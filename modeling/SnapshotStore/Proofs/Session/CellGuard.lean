import SnapshotStore.Proofs.Session.Acceptance
import SnapshotStore.Proofs.View.Rows

/-!
The checks before a cell is read or written, in the order in which they are made. Of several faults
the first is reported, so checks are lists: those of a computation are those of its first part and
then those of the rest.
-/

namespace SnapshotStore

/-- What has to hold, and the error if it does not. -/
structure Check where
  holds : Prop
  error : Error

namespace Check
variable {α β : Type} {check : Check} {checks others : List Check} {x : Except Error α}
  {f : α → Except Error β} {e : Error}

/-- The error is that of the first check that fails. -/
def FirstFailing : List Check → Error → Prop
  | [], _ => False
  | check :: rest, e => ¬check.holds ∧ e = check.error ∨ check.holds ∧ FirstFailing rest e

/-- The computation makes the checks, one after the other, and fails at no other place. -/
structure Guards (checks : List Check) (x : Except Error α) : Prop where
  fails : ∀ e, FirstFailing checks e → x = .error e
  passes : (∀ check ∈ checks, check.holds) → ∃ y, x = .ok y

/-- Unless all checks hold, one of them is the first that fails. -/
theorem exists_firstFailing (h : ¬∀ check ∈ checks, check.holds) : ∃ e, FirstFailing checks e := by
  induction checks with
  | nil => exact absurd (fun _ hcheck => nomatch hcheck) h
  | cons check rest ih =>
      by_cases hcheck : check.holds
      · obtain ⟨e, he⟩ := ih fun hrest => h (List.forall_mem_cons.mpr ⟨hcheck, hrest⟩)
        exact ⟨e, .inr ⟨hcheck, he⟩⟩
      · exact ⟨check.error, .inl ⟨hcheck, rfl⟩⟩

theorem firstFailing_append : FirstFailing (checks ++ others) e ↔
    FirstFailing checks e ∨ (∀ check ∈ checks, check.holds) ∧ FirstFailing others e := by
  induction checks with
  | nil => simp [FirstFailing]
  | cons check rest ih =>
      rw [List.cons_append, FirstFailing, FirstFailing, ih, List.forall_mem_cons, and_or_left,
        or_assoc, and_assoc]

namespace Guards

theorem pure (y : α) : Guards [] (.ok y : Except Error α) := ⟨fun _ h => h.elim, fun _ => ⟨y, rfl⟩⟩

theorem single {p : Prop} {y : α} (holds : p → x = .ok y) (fails : ¬p → x = .error e) :
    Guards [⟨p, e⟩] x where
  fails := by
    intro e' h
    cases h with
    | inl h => rw [fails h.1, h.2]
    | inr h => exact h.2.elim
  passes h := ⟨y, holds (h _ (.head _))⟩

theorem ite {p : Prop} [Decidable p] (y : α) (e : Error) :
    Guards [⟨p, e⟩] (if p then .ok y else .error e) :=
  .single (fun h => if_pos h) fun h => if_neg h

/-- A computation that goes through has passed all its checks. -/
theorem ok_iff (h : Guards checks x) : (∃ y, x = .ok y) ↔ ∀ check ∈ checks, check.holds := by
  refine ⟨fun hx => Classical.byContradiction fun hchecks => ?_, h.passes⟩
  obtain ⟨e, he⟩ := exists_firstFailing hchecks
  obtain ⟨y, hy⟩ := hx
  exact nomatch hy.symm.trans (h.fails e he)

theorem bind (hx : Guards checks x) (hf : ∀ y, x = .ok y → Guards others (f y)) :
    Guards (checks ++ others) (x >>= f) where
  fails := by
    intro e he
    cases firstFailing_append.mp he with
    | inl hfirst => rw [hx.fails e hfirst]; rfl
    | inr hrest =>
        obtain ⟨y, hy⟩ := hx.passes hrest.1
        rw [hy]
        exact (hf y hy).fails e hrest.2
  passes := by
    intro h
    obtain ⟨y, hy⟩ := hx.passes fun check hcheck => h check (List.mem_append_left _ hcheck)
    rw [hy]
    exact (hf y hy).passes fun check hcheck => h check (List.mem_append_right _ hcheck)

/-- A check can be put in other words. -/
theorem congr {p q : Prop} (hpq : p ↔ q) (h : Guards (⟨p, e⟩ :: checks) x) :
    Guards (⟨q, e⟩ :: checks) x := propext hpq ▸ h

/-- A check that is sure to hold makes no difference. -/
theorem skip (hcheck : check.holds) (h : Guards others x) : Guards (check :: others) x where
  fails := by
    intro e he
    cases he with
    | inl hfails => exact absurd hcheck hfails.1
    | inr hrest => exact h.fails e hrest.2
  passes hall := h.passes (List.forall_mem_cons.mp hall).2

end Guards
end Check

namespace Table
variable {t : Table} {i j : Nat} {expected : ColumnType} {mixed : Bool}

/-- The column has the type, or it is a mixed one and the cell holds a value of the type, if that
will do. -/
def Suits (t : Table) (i j : Nat) (expected : ColumnType) (mixed : Bool) : Prop :=
  ∃ c, t.columns[i]? = some c ∧ (c.type = expected ∨
    mixed = true ∧ c.type = .mixed ∧ ∃ v, t.cell? i j = some v ∧ v.type? = some expected)

/-- The type that is reported where it is not the one expected. -/
def typeFound (t : Table) (i j : Nat) (mixed : Bool) : String :=
  match t.columns[i]? with
  | some c =>
    if c.type = .mixed && mixed then mixedTypeName ((t.cell? i j).bind (·.type?)) else c.type.name
  | none => ""

open Check

theorem checkColumn_guards (t : Table) (column : Int) :
    Guards [⟨0 ≤ column ∧ column < t.columnCount, .columnOutOfRange column t.columnCount⟩]
      (t.checkColumn column) := .ite _ _

theorem checkRow_guards (t : Table) (row : Int) :
    Guards [⟨0 ≤ row ∧ row < t.size, .rowOutOfRange row t.size false⟩] (t.checkRow row false) :=
  .ite _ _

theorem checkType_guards (hw : t.WellFormed) (hi : i < t.columnCount) (hj : j < t.size)
    (expected : ColumnType) (mixed : Bool) :
    Guards [⟨t.Suits i j expected mixed, .typeMismatch i expected (t.typeFound i j mixed)⟩]
      (t.checkType i (some j) expected mixed) := by
  obtain ⟨c, hc⟩ := column_of_lt hi
  have hcolumn := column_eq_ok.mp hc
  obtain ⟨v, hv⟩ := Option.isSome_iff_exists.mp (hw.cell?_isSome hi hj)
  have hdeclared : t.columnType i = .ok c.type := columnType_eq_ok.mpr ⟨c, hcolumn, rfl⟩
  have hactual : t.cellType i j = .ok v.type? := map_eq_ok.mpr ⟨v, hw.get_eq_ok.mpr hv, rfl⟩
  have hsuits : t.Suits i j expected mixed ↔ c.type = expected ∨
      (c.type = .mixed ∧ mixed = true) ∧ v.type? = some expected := by
    simp [Suits, hcolumn, hv, and_assoc, and_left_comm]
  have hcheck : t.checkType i (some j) expected mixed =
      if c.type = expected then .ok () else if c.type = .mixed && mixed then
        if v.type? = some expected then .ok ()
        else .error (.typeMismatch i expected (mixedTypeName v.type?))
      else .error (.typeMismatch i expected c.type.name) := by
    simp only [checkType, hdeclared, hactual]
    rfl
  have hfound : t.typeFound i j mixed =
      if c.type = .mixed && mixed then mixedTypeName v.type? else c.type.name := by
    simp only [typeFound, hcolumn, hv, Option.bind_some]
  rw [hcheck, hfound]
  apply Guards.single
  case holds =>
    intro h
    by_cases hsame : c.type = expected
    · exact if_pos hsame
    · obtain ⟨hmixed, htype⟩ := (hsuits.mp h).resolve_left hsame
      rw [if_neg hsame, if_pos (by simpa using hmixed), if_pos htype]
  case fails =>
    intro h
    rw [hsuits, not_or] at h
    rw [if_neg h.1]
    by_cases hmixed : (c.type = .mixed && mixed) = true
    · have htype : ¬v.type? = some expected := fun htype => h.2 ⟨by simpa using hmixed, htype⟩
      rw [if_pos hmixed, if_pos hmixed, if_neg htype]
    · rw [if_neg hmixed, if_neg hmixed]

/-- A cell is checked by its column, its row and then its type. -/
theorem checkCell_guards (hw : t.WellFormed) (column row : Int) (expected : ColumnType)
    (mixed : Bool) :
    Guards [⟨0 ≤ column ∧ column < t.columnCount, .columnOutOfRange column t.columnCount⟩,
        ⟨0 ≤ row ∧ row < t.size, .rowOutOfRange row t.size false⟩,
        ⟨t.Suits column.toNat row.toNat expected mixed,
          .typeMismatch column.toNat expected (t.typeFound column.toNat row.toNat mixed)⟩]
      (t.checkCell column row (some (expected, mixed))) := by
  rw [checkCell_eq]
  apply (t.checkColumn_guards column).bind
  intro i hi
  apply (t.checkRow_guards row).bind
  intro j hj
  obtain ⟨rfl, hcolumn⟩ := checkColumn_eq_ok.mp hi
  obtain ⟨rfl, hrow⟩ := checkRow_eq_ok.mp hj
  exact (checkType_guards hw hcolumn hrow expected mixed).bind
    fun _ _ => .pure _

/-- What stands in a cell that suits a type is of the type or null. -/
theorem Suits.fits {v : Value} (h : t.Suits i j expected mixed) (hw : t.WellFormed)
    (hv : t.cell? i j = some v) : v.fits expected := by
  obtain ⟨c, hc, htype⟩ := h
  cases htype with
  | inl hdeclared =>
      obtain ⟨r, hr, hcell⟩ := cell?_eq_some.mp hv
      exact hdeclared ▸ (hw.cells c v ⟨i, r, hc, List.mem_of_getElem? hr, hcell⟩).typed
  | inr hheld =>
      obtain ⟨-, -, w, hw', hsome⟩ := hheld
      obtain rfl := Option.some.inj (hv.symm.trans hw')
      simp [Value.fits, hsome]

end Table

theorem Context.requireWriting_guards (c : Context) :
    Check.Guards [⟨c.isWriting = true, notWriting⟩] c.requireWriting := .ite _ _

/-- How many rows the table has that the links of the column lead to. -/
def Context.targetSize (c : Context) (t : Table) (column : Nat) : Nat :=
  (t.columns[column]?.bind (·.target?)).elim 0 c.tableSize

theorem Group.WellFormed.checkLinkTarget_guards {g : Group} {c : Context} {t : Table} {column : Nat}
    (hw : g.WellFormed) (hg : c.group = .ok g) (ht : g.table? t.key = some t)
    (htype : t.columnType column = .ok .link) (target : Int) :
    Check.Guards [⟨0 ≤ target ∧ target < c.targetSize t column,
        .rowOutOfRange target (c.targetSize t column) false⟩]
      (g.checkLinkTarget t column target) := by
  obtain ⟨d, hd, hlink⟩ := Table.columnType_eq_ok.mp htype
  obtain ⟨into, u, hinto, hu⟩ := hw.target_of_linkLike ht hd (hlink ▸ rfl)
  have hsize : c.targetSize t column = u.size := by
    simp only [Context.targetSize, hd, Option.bind_some, hinto, Option.elim_some,
      Context.tableSize_of_seen hg hu]
  have hcheck : g.checkLinkTarget t column target = u.checkRow target false := by
    have hlike : t.checkLinkLike column = .ok () := by
      simp only [Table.checkLinkLike, htype]
      rfl
    simp only [checkLinkTarget, hlike, Table.column_eq_ok.mpr hd, bind, Except.bind, hinto, hu]
  rw [hcheck, hsize]
  exact u.checkRow_guards target

/-! Calls on one cell -/

/-- The cell that a call is about, and what is asked of it. -/
structure CellAccess where
  handle : UInt64
  column : Int
  row : Int
  type : ColumnType
  /-- The row that a link is to lead to. -/
  target? : Option Int
  writes : Bool

/-- The calls that read or write one cell as one of a type. -/
def Call.cellAccess? : Call → Option CellAccess
  | getScalar h type column row => some ⟨h, column, row, type.columnType, none, false⟩
  | getMixed h column row => some ⟨h, column, row, .mixed, none, false⟩
  | getLink h column row => some ⟨h, column, row, .link, none, false⟩
  | setScalar h column row x => some ⟨h, column, row, x.type.columnType, none, true⟩
  | setLink h column row target => some ⟨h, column, row, .link, some target, true⟩
  | nullifyLink h column row => some ⟨h, column, row, .link, none, true⟩
  | _ => none

/-- What has to hold of the table of the handle: the column and the row are there, the type is the
one that is asked for, where a mixed cell will do for reading but not for writing, the row that a
link is to lead to is there, and a write transaction is open. -/
def CellAccess.checks (a : CellAccess) (c : Context) (t : Table) : List Check :=
  [⟨0 ≤ a.column ∧ a.column < t.columnCount, .columnOutOfRange a.column t.columnCount⟩,
    ⟨0 ≤ a.row ∧ a.row < t.size, .rowOutOfRange a.row t.size false⟩,
    ⟨t.Suits a.column.toNat a.row.toNat a.type !a.writes,
      .typeMismatch a.column.toNat a.type (t.typeFound a.column.toNat a.row.toNat !a.writes)⟩,
    ⟨∀ target ∈ a.target?, 0 ≤ target ∧ target < c.targetSize t a.column.toNat,
      .rowOutOfRange (a.target?.getD 0) (c.targetSize t a.column.toNat) false⟩,
    ⟨a.writes = true → c.isWriting = true, Context.notWriting⟩]

theorem CellAccess.hold_iff {a : CellAccess} {c : Context} {t : Table} :
    (∀ check ∈ a.checks c t, check.holds) ↔ (0 ≤ a.column ∧ a.column < t.columnCount) ∧
      (0 ≤ a.row ∧ a.row < t.size) ∧ t.Suits a.column.toNat a.row.toNat a.type (!a.writes) ∧
      (∀ target ∈ a.target?, 0 ≤ target ∧ target < c.targetSize t a.column.toNat) ∧
      (a.writes = true → c.isWriting = true) := by
  simp only [checks, List.forall_mem_cons, List.not_mem_nil, false_implies, implies_true, and_true]

/-- What a call that reads a cell answers where the cell holds the value. -/
inductive Call.Reads (h : UInt64) (column row : Int) : Call → Value → Reply → Prop
  | absent (type : ScalarType) : Reads h column row (.getScalar h type column row) .null
      (.scalar? none)
  | scalar (x : Scalar) : Reads h column row (.getScalar h x.type column row) x.value
      (.scalar? (some x))
  | mixed (v : Value) : Reads h column row (.getMixed h column row) v (.value v)
  | unlinked : Reads h column row (.getLink h column row) .null (.number? none)
  | link (target : Nat) : Reads h column row (.getLink h column row) (.link target)
      (.number? (some target))

namespace Scalar
variable {type : ScalarType}

theorem ofValue?_value (x : Scalar) : ofValue? x.type x.value = some x := by cases x <;> rfl

theorem type_of_fits {x : Scalar} (h : x.value.fits type.columnType) : x.type = type := by
  cases x <;> cases type <;> first | rfl | exact nomatch h

/-- What stands in a column of scalars is one of them or null. -/
theorem of_fits {v : Value} (h : v.fits type.columnType) :
    v = .null ∨ ∃ x : Scalar, x.type = type ∧ x.value = v := by
  cases v with
  | null => exact .inl rfl
  | int n => exact .inr ⟨.int n, type_of_fits h, rfl⟩
  | bool b => exact .inr ⟨.bool b, type_of_fits h, rfl⟩
  | float bits => exact .inr ⟨.float bits, type_of_fits h, rfl⟩
  | double bits => exact .inr ⟨.double bits, type_of_fits h, rfl⟩
  | string text => exact .inr ⟨.string text, type_of_fits h, rfl⟩
  | binary bytes => exact .inr ⟨.binary bytes, type_of_fits h, rfl⟩
  | date millis => exact .inr ⟨.date millis, type_of_fits h, rfl⟩
  | link | linkList => cases type <;> exact nomatch h

end Scalar

namespace Session
variable {s : Session} {h : UInt64} {t : Table} {c : Call} {a : CellAccess} {column row : Int}
  {e : Error}

/-! The handle comes before all other checks -/

theorem table_of_get_error (hget : s.tables.get h = .error e) : s.table h = .error e := by
  simp only [table, lookUp, hget]
  rfl

theorem table_of_detached {bound : Bound TableRef} (hget : s.tables.get h = .ok bound)
    (hdetached : bound.isAttached s.context = false) :
    s.table h = .error (.detached HandleKind.table.name) := by
  cases hr : bound.resolve s.context with
  | ok t => simp [Bound.isAttached, hr, Except.isOk, Except.toBool] at hdetached
  | error e =>
      obtain rfl := Bound.resolve_eq_error hr
      simp only [table, lookUp, hget, hr, bind, Except.bind]
      rfl

theorem plan_of_handle_error (ha : c.cellAccess? = some a) (ht : s.table a.handle = .error e) :
    s.plan c = .error e := by
  cases c with
  | getScalar | getMixed | getLink =>
      obtain rfl := Option.some.inj ha
      simp only [plan, cell, ht]
      rfl
  | setScalar | nullifyLink =>
      obtain rfl := Option.some.inj ha
      simp only [plan, planSet, ht]
      rfl
  | setLink =>
      obtain rfl := Option.some.inj ha
      simp only [plan, planEdit, ht]
      rfl
  | _ => cases ha

/-! Then those of the cell -/

theorem cell_guards (hw : t.WellFormed) (ht : s.table h = .ok t) (expected : ColumnType)
    (f : Value → Reply) :
    Check.Guards (CellAccess.checks ⟨h, column, row, expected, none, false⟩ s.context t)
      (s.cell h column row expected >>= fun v => .ok (Operation.read (v.map f))) := by
  have hcell : (s.cell h column row expected >>= fun v => .ok (Operation.read (v.map f))) =
      t.checkCell column row (some (expected, true)) >>= fun found =>
        .ok (Operation.read ((t.get found.1 found.2).map f)) := by
    rw [cell, ht]
    cases hfound : t.checkCell column row (some (expected, true)) with
    | ok found => simp only [bind, Except.bind, hfound]; rfl
    | error e => simp only [bind, Except.bind, hfound]
  rw [hcell]
  apply (Table.checkCell_guards hw column row expected true).bind
  intro found _
  apply Check.Guards.skip fun target h => absurd h (Option.not_mem_none target)
  exact .skip (fun h => absurd h Bool.false_ne_true) (.pure _)

/-- A cell that passes its checks is read. -/
theorem cell_of_checks (hw : t.WellFormed) (ht : s.table h = .ok t) {expected : ColumnType}
    (hall : ∀ check ∈ CellAccess.checks ⟨h, column, row, expected, none, false⟩ s.context t,
      check.holds) : ∃ v, t.cell? column.toNat row.toNat = some v ∧ v.fits expected ∧
        s.cell h column row expected = .ok (.ok v) := by
  obtain ⟨found, hfound⟩ := (Table.checkCell_guards hw column row expected true).passes
    fun check hcheck => hall check (List.mem_append_left _ hcheck)
  obtain ⟨i, j⟩ := found
  obtain ⟨hi, hj, -⟩ := Table.checkCell_eq_ok hfound
  obtain ⟨rfl, hcolumn⟩ := Table.checkColumn_eq_ok.mp hi
  obtain ⟨rfl, hrow⟩ := Table.checkRow_eq_ok.mp hj
  obtain ⟨v, hv⟩ := Table.get_of_lt hcolumn hrow
  have hcell := hw.get_eq_ok.mp hv
  have hsuits : t.Suits i j expected true :=
    hall _ (.tail _ (.tail _ (.head _)))
  refine ⟨v, hcell, hsuits.fits hw hcell, ?_⟩
  exact bind_eq_ok.mpr ⟨t, ht, bind_eq_ok.mpr ⟨_, hfound, congrArg Except.ok hv⟩⟩

theorem planSet_guards (hw : t.WellFormed) (ht : s.table h = .ok t) (expected : ColumnType)
    (v : Value) :
    Check.Guards (CellAccess.checks ⟨h, column, row, expected, none, true⟩ s.context t)
      (s.planSet h column row expected v) := by
  have hplan : s.planSet h column row expected v =
      t.checkCell column row (some (expected, false)) >>= fun found =>
        s.context.requireWriting >>= fun _ => .ok (.edit (.set t.key found.1 found.2 v)) := by
    rw [planSet, ht]
    rfl
  rw [hplan]
  apply (Table.checkCell_guards hw column row expected false).bind
  intro found _
  apply Check.Guards.skip fun target h => absurd h (Option.not_mem_none target)
  apply Check.Guards.congr (forall_prop_of_true rfl).symm
  exact s.context.requireWriting_guards.bind fun _ _ => .pure _

/-- A call that reads a cell and passes its checks answers what stands there. -/
theorem plan_reads (hw : t.WellFormed) (ha : c.cellAccess? = some a) (hreads : a.writes = false)
    (ht : s.table a.handle = .ok t) (hall : ∀ check ∈ a.checks s.context t, check.holds) :
    ∃ v reply, t.cell? a.column.toNat a.row.toNat = some v ∧
      c.Reads a.handle a.column a.row v reply ∧ s.plan c = .ok (.read (.ok reply)) := by
  cases c with
  | getScalar h type column row =>
      obtain rfl := Option.some.inj ha
      obtain ⟨v, hv, hfits, hcell⟩ := cell_of_checks hw ht hall
      refine ⟨v, .scalar? (Scalar.ofValue? type v), hv, ?_, bind_eq_ok.mpr ⟨_, hcell, rfl⟩⟩
      obtain rfl | ⟨x, rfl, rfl⟩ := Scalar.of_fits hfits
      · have hnone : Scalar.ofValue? type .null = none := by cases type <;> rfl
        exact hnone ▸ .absent type
      · exact (Scalar.ofValue?_value x).symm ▸ .scalar x
  | getMixed h column row =>
      obtain rfl := Option.some.inj ha
      obtain ⟨v, hv, -, hcell⟩ := cell_of_checks hw ht hall
      exact ⟨v, .value v, hv, .mixed v, bind_eq_ok.mpr ⟨_, hcell, rfl⟩⟩
  | getLink h column row =>
      obtain rfl := Option.some.inj ha
      obtain ⟨v, hv, hfits, hcell⟩ := cell_of_checks hw ht hall
      refine ⟨v, .number? v.link?, hv, ?_, bind_eq_ok.mpr ⟨_, hcell, rfl⟩⟩
      cases v with
      | null => exact .unlinked
      | link target => exact .link target
      | _ => exact nomatch hfits
  | setScalar | nullifyLink | setLink =>
      obtain rfl := Option.some.inj ha
      exact nomatch hreads
  | _ => cases ha

section
variable (hg : ∀ g, s.context.group = .ok g → g.WellFormed ∧ g.Numbered)
include hg

theorem setLink_guards (ht : s.table h = .ok t) (target : Int) :
    Check.Guards (CellAccess.checks ⟨h, column, row, .link, some target, true⟩ s.context t)
      (s.plan (.setLink h column row target)) := by
  obtain ⟨g, hgroup, hw, hseen⟩ := table_found hg ht
  have hplan : s.plan (.setLink h column row target) =
      t.checkCell column row (some (.link, false)) >>= fun found =>
        g.checkLinkTarget t found.1 target >>= fun k =>
          s.context.requireWriting >>= fun _ => .ok (.edit (.setLink t.key found.1 found.2 k)) := by
    simp only [plan, planEdit, ht, hgroup, bind_assoc, pure_bind]
    rfl
  rw [hplan]
  apply (Table.checkCell_guards (hw.tables _ t hseen) column row .link false).bind
  intro found hfound
  obtain ⟨i, j⟩ := found
  obtain ⟨rfl, -⟩ := Table.checkColumn_eq_ok.mp (Table.checkCell_eq_ok hfound).1
  have htype := Table.checkCell_strict hfound
  have hone : 0 ≤ target ∧ target < s.context.targetSize t i ↔
      ∀ k ∈ some target, 0 ≤ k ∧ k < s.context.targetSize t i := by simp
  apply Check.Guards.congr hone
  apply (hw.checkLinkTarget_guards hgroup hseen htype target).bind
  intro k _
  apply Check.Guards.congr (forall_prop_of_true rfl).symm
  exact s.context.requireWriting_guards.bind fun _ _ => .pure _

/-- The checks of a call are made in this order, once its handle is found to be good. -/
theorem plan_guards (ha : c.cellAccess? = some a) (ht : s.table a.handle = .ok t) :
    Check.Guards (a.checks s.context t) (s.plan c) := by
  obtain ⟨g, hgroup, hw, hseen⟩ := table_found hg ht
  have htable := hw.tables _ t hseen
  cases c with
  | getScalar | getMixed | getLink =>
      obtain rfl := Option.some.inj ha
      exact cell_guards htable ht _ _
  | setScalar | nullifyLink =>
      obtain rfl := Option.some.inj ha
      exact planSet_guards htable ht _ _
  | setLink =>
      obtain rfl := Option.some.inj ha
      exact setLink_guards hg ht _
  | _ => cases ha

end
end Session
end SnapshotStore
