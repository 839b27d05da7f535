import SnapshotStore.Proofs.Group.Acceptance
import SnapshotStore.Proofs.Session.Bounds

/-!
Calls that are checked in full. What passes the checks of such a call is accepted by the group, but
for values of mixed cells, which nobody looks at, and for lists whose column has become another.
-/

namespace SnapshotStore

/-- The calls that read and write the rows and cells of a table, and the shape of it. -/
def Call.isOfTable : Call → Bool
  | removeColumn .. | columnCount .. | columnName .. | columnType .. | columnIndex .. | size ..
  | addEmptyRow .. | insertEmptyRow .. | removeRow .. | clear .. | getScalar .. | setScalar ..
  | getMixed .. | setMixed .. | getMixedType .. | isNull .. | setNull .. | getLink .. | setLink ..
  | nullifyLink .. | getRow .. | rowIndex .. | rowGet .. | rowSet .. | getLinkList ..
  | linkListSize .. | linkListTarget .. | linkListAdd .. | linkListRemove .. | linkListClear .. =>
    true
  | _ => false

/-- Row numbers are 64 bits wide. -/
def Call.Sized : Call → Prop
  | rowSet _ _ (.link target) => target < 0x10000000000000000
  | _ => True

/-- The handle is good for a list whose column is not one of lists any more. -/
def Session.Dangles (s : Session) (h : UInt64) : Prop :=
  ∃ t column i, s.linkList h = .ok (t, column, i) ∧ t.columnType column ≠ .ok .linkList

/-- What the checks of a call forget: a mixed cell is to become null or a link though its column
does not take that, or there is no list where the handle of a list leads. -/
def Session.Misfits (s : Session) : Call → Prop
  | .setMixed h column _ v =>
    ∃ t i, s.table h = .ok t ∧ t.checkColumn column = .ok i ∧ ¬t.Takes i v
  | .linkListSize h | .linkListAdd h _ | .linkListClear h => s.Dangles h
  | _ => False

/-! Operations that go through -/

theorem Context.writing_of_required {c : Context} {g : Group} (h : c.requireWriting = .ok ())
    (hg : c.group = .ok g) : ∃ base, c.state = .writing base g := by
  unfold requireWriting isWriting at h
  unfold group at hg
  cases hc : c.state with
  | idle => simp [hc] at hg
  | reading v f => simp [hc] at h
  | writing base f =>
      simp only [hc, Except.ok.injEq] at hg
      exact ⟨base, hg ▸ rfl⟩

theorem Connection.edit_of_accepts {c : Connection} {base : Version} {g : Group} {e : Edit}
    (writing : c.context.state = .writing base g) (h : g.Accepts e) :
    ∃ made c', Connection.edit e c = .ok made c' ∧ c'.store = c.store := by
  obtain ⟨made, hmade⟩ := h
  cases hr : g.edit e with
  | mk result g' =>
      have hresult : result = .ok made := by rw [← hmade, hr]
      simp only [Connection.edit, writing, hr, hresult]
      exact ⟨made, _, rfl, rfl⟩

theorem Connection.edit_of_refuses {c : Connection} {base : Version} {g : Group} {e : Edit}
    (writing : c.context.state = .writing base g) (h : g.Refuses e) :
    ∃ err c', Connection.edit e c = .error err c' ∧ c'.store = c.store := by
  obtain ⟨err, herr⟩ := h
  cases hr : g.edit e with
  | mk result g' =>
      have hresult : result = .error err := by rw [← herr, hr]
      simp only [Connection.edit, writing, hr, hresult]
      exact ⟨err, _, rfl, rfl⟩

namespace Operation

/-- The operation goes through. -/
def Accepted (s : Session) : Operation → Prop
  | read result => ∃ reply, result = .ok reply
  | keep found => ∃ item, found = .ok item
  | edit e => ∃ base g, s.context.state = .writing base g ∧ g.Accepts e
  | _ => False

/-- The operation reaches the store and fails. -/
def Refused (s : Session) : Operation → Prop
  | read result => ∃ e, result = .error e
  | edit e => ∃ base g, s.context.state = .writing base g ∧ g.Refuses e
  | _ => False

variable {w : Workspace} {operation : Operation}

open Workspace in
theorem perform_accepted (h : operation.Accepted w.session) : ∃ out w',
    operation.perform w = .ok out w' ∧ w'.database.store = w.database.store.recordCall := by
  cases operation with
  | read result =>
      obtain ⟨reply, rfl⟩ := h
      exact ⟨_, w.counted, rfl, rfl⟩
  | keep found =>
      obtain ⟨item, rfl⟩ := h
      exact ⟨_, _, rfl, rfl⟩
  | edit e =>
      obtain ⟨base, g, hstate, hg⟩ := h
      obtain ⟨made, c, hc, hstore⟩ :=
        Connection.edit_of_accepts (c := w.counted.connection) hstate hg
      rw [perform, forward_bind, bind_of_ok (act_run_ok.mpr ⟨c, hc, rfl⟩)]
      cases made with
      | none => exact ⟨_, _, rfl, hstore⟩
      | some key => exact ⟨_, _, rfl, hstore⟩
  | _ => exact h.elim

open Workspace in
theorem perform_refused (h : operation.Refused w.session) : ∃ e w',
    operation.perform w = .error e w' ∧ w'.database.store = w.database.store.recordCall := by
  cases operation with
  | read result =>
      obtain ⟨e, rfl⟩ := h
      exact ⟨e, w.counted, rfl, rfl⟩
  | edit e =>
      obtain ⟨base, g, hstate, hg⟩ := h
      obtain ⟨err, c, hc, hstore⟩ :=
        Connection.edit_of_refuses (c := w.counted.connection) hstate hg
      rw [perform, forward_bind, bind_of_error (act_run_error.mpr ⟨c, hc, rfl⟩)]
      exact ⟨err, _, rfl, hstore⟩
  | _ => exact h.elim

end Operation

/-! What passes the checks -/

theorem Scalar.value_fits (x : Scalar) : x.value.fits x.type.columnType = true := by
  cases x <;> rfl

theorem Scalar.value_ne_null (x : Scalar) : x.value ≠ .null := by cases x <;> simp [value]

namespace Session
variable {s : Session} {h : UInt64} {g : Group} {t : Table} {e : Edit}

theorem edit_accepted (hgroup : s.context.group = .ok g)
    (hwriting : s.context.requireWriting = .ok ()) (he : g.Accepts e) :
    (Operation.edit e).Accepted s := by
  obtain ⟨base, hstate⟩ := Context.writing_of_required hwriting hgroup
  exact ⟨base, g, hstate, he⟩

theorem edit_refused (hgroup : s.context.group = .ok g)
    (hwriting : s.context.requireWriting = .ok ()) (he : g.Refuses e) :
    (Operation.edit e).Refused s := by
  obtain ⟨base, hstate⟩ := Context.writing_of_required hwriting hgroup
  exact ⟨base, g, hstate, he⟩

theorem read_accepted {α : Type} {x : Except Error α} {a : α} (hx : x = .ok a) (f : α → Reply) :
    (Operation.read (x.map f)).Accepted s := ⟨f a, map_eq_ok.mpr ⟨a, hx, rfl⟩⟩

section Plan
variable (hg : ∀ g, s.context.group = .ok g → g.WellFormed ∧ g.Numbered)
  (hc : ∀ g, s.context.group = .ok g → g.AllColumns Column.Conforms)

theorem planRead_accepted {f : Table → Except Error Reply} :
    Yields (Operation.Accepted s) (s.planRead h f) :=
  .bind fun _ _ => .bind fun reply _ => .pure ⟨reply, rfl⟩

theorem cell_accepted (column row : Int) (expected : ColumnType) (f : Value → Reply) :
    Yields (Operation.Accepted s) (do
      let v ← s.cell h column row expected
      return .read (v.map f)) := by
  refine .bind fun v hv => .pure ?_
  simp only [cell, bind_eq_ok, pure_eq_ok] at hv
  obtain ⟨t, -, ⟨i, j⟩, hcell, rfl⟩ := hv
  obtain ⟨hi, hj, -⟩ := Table.checkCell_eq_ok hcell
  obtain ⟨a, ha⟩ := Table.get_of_lt (Table.checkColumn_lt hi) (Table.checkRow_lt hj)
  exact read_accepted ha f

include hg

theorem planEdit_accepted {f : Table → Except Error Edit}
    (hf : ∀ g t e, s.context.group = .ok g → g.WellFormed → g.table? t.key = some t →
      f t = .ok e → g.Accepts e) : Yields (Operation.Accepted s) (s.planEdit h f) := by
  refine .bind fun t ht => .bind fun e he => .bind fun _ hwriting => .pure ?_
  obtain ⟨g, hgroup, hw, hseen⟩ := table_found hg ht
  exact edit_accepted hgroup hwriting (hf g t e hgroup hw hseen he)

theorem planSet_accepted {column row : Int} {expected : ColumnType} {v : Value}
    (hv : ∀ g t i, s.context.group = .ok g → s.table h = .ok t → g.table? t.key = some t →
      t.checkColumn column = .ok i → t.columnType i = .ok expected → t.Takes i v) :
    Yields (Operation.Accepted s) (s.planSet h column row expected v) := by
  refine .bind fun t ht => .bind fun found hcell => .bind fun _ hwriting => .pure ?_
  obtain ⟨g, hgroup, -, hseen⟩ := table_found hg ht
  obtain ⟨hi, hj, -⟩ := Table.checkCell_eq_ok hcell
  have htakes := hv g t found.1 hgroup ht hseen hi (Table.checkCell_strict hcell)
  exact edit_accepted hgroup hwriting
    (Group.accepts_set hseen htakes (Table.checkRow_lt hj))

include hc

theorem planRowSet_accepted {column : Int} {v : Value}
    (hsized : Call.Sized (.rowSet h column v)) :
    Yields (Operation.Accepted s) (s.planRowSet h column v) := by
  refine .bind fun found hr => .bind fun i hi => .bind fun type htype => .ite (.throw _) <|
    .bind fun _ hvalue => ?_
  obtain ⟨t, j⟩ := found
  obtain ⟨hj, g, hgroup, hseen⟩ := row_seen (fun g h => (hg g h).2) hr
  split
  next target =>
    refine .bind fun g' hgroup' => .bind fun n hn => .bind fun _ hwriting => .pure ?_
    obtain rfl := Except.ok.inj (hgroup.symm.trans hgroup')
    obtain rfl := checkLinkTarget_signed hsized hn
    have hlink : type = .link := Value.link_fits.mp (Table.checkValue_fits hvalue htype)
    exact edit_accepted hgroup hwriting
      (Group.accepts_setLink hseen (hlink ▸ htype) hj (Group.checkLinkTarget_eq_ok hn).2.1)
  next v _ =>
    refine .bind fun _ hwriting => .pure (edit_accepted hgroup hwriting ?_)
    exact Group.accepts_set hseen
      (Table.takes_of_checkValue (hc g hgroup _ t hseen) hvalue) hj

/-- A list that is where its handle leads can be read. -/
theorem linkList_readable {column i : Nat} (hr : s.linkList h = .ok (t, column, i))
    (hd : ¬s.Dangles h) : ∃ g rows, s.context.group = .ok g ∧ g.table? t.key = some t ∧
      t.columnType column = .ok .linkList ∧ t.linkList column i = .ok rows := by
  obtain ⟨hi, g, hgroup, hseen⟩ := linkList_seen (fun g h => (hg g h).2) hr
  have htype : t.columnType column = .ok .linkList :=
    Classical.not_not.mp fun hne => hd ⟨t, column, i, hr, hne⟩
  obtain ⟨rows, hrows⟩ := ((hg g hgroup).1.tables _ t hseen).linkList_of_type
    (hc g hgroup _ t hseen) htype hi
  exact ⟨g, rows, hgroup, hseen, htype, hrows⟩

omit hc in
/-- What is no list cannot be read as one. -/
theorem linkList_dangling {column i : Nat} (hr : s.linkList h = .ok (t, column, i))
    (hd : s.Dangles h) : ∃ g e, s.context.group = .ok g ∧ g.table? t.key = some t ∧
      t.columnType column ≠ .ok .linkList ∧ t.linkList column i = .error e := by
  obtain ⟨t', column', i', hr', htype⟩ := hd
  obtain ⟨rfl, hrest⟩ := Prod.mk.inj (Except.ok.inj (hr'.symm.trans hr))
  obtain ⟨rfl, rfl⟩ := Prod.mk.inj hrest
  obtain ⟨-, g, hgroup, hseen⟩ := linkList_seen (fun g h => (hg g h).2) hr
  obtain ⟨e, he⟩ := ((hg g hgroup).1.tables _ _ hseen).linkList_of_other htype i'
  exact ⟨g, e, hgroup, hseen, htype, he⟩

/-- What passes the checks of a call goes through, unless the checks forget something. -/
theorem plan_accepted {c : Call} (hcall : c.isOfTable = true) (hsized : c.Sized)
    (hfit : ¬s.Misfits c) : Yields (Operation.Accepted s) (s.plan c) := by
  have hnumbered := fun g h => (hg g h).2
  cases c with
  | columnCount h | columnName h column | columnType h column | columnIndex h name | size h =>
      exact planRead_accepted
  | getScalar h type column row | getMixed h column row | getMixedType h column row
  | getLink h column row => exact cell_accepted column row _ _
  | isNull h column row =>
      refine .bind fun t _ => .bind fun found hcell => .pure ?_
      obtain ⟨hi, hj, -⟩ := Table.checkCell_eq_ok hcell
      obtain ⟨v, hv⟩ := Table.get_of_lt (Table.checkColumn_lt hi) (Table.checkRow_lt hj)
      exact read_accepted hv _
  | removeColumn h column =>
      refine planEdit_accepted hg fun g t e _ _ hseen he => ?_
      simp only [bind_eq_ok, pure_eq_ok] at he
      obtain ⟨i, hi, rfl⟩ := he
      exact Group.accepts_removeColumn hseen (Table.checkColumn_lt hi)
  | addEmptyRow h =>
      exact planEdit_accepted hg fun g t e _ _ hseen he =>
        pure_eq_ok.mp he ▸ Group.accepts_addRow hseen
  | insertEmptyRow h row =>
      refine planEdit_accepted hg fun g t e _ _ hseen he => ?_
      rw [t.checkInsertion_eq row fun i => Edit.insertRow t.key i] at he
      obtain ⟨i, hi, rfl⟩ := map_eq_ok.mp he
      exact Group.accepts_insertRow hseen (Table.checkRow_le hi)
  | removeRow h row =>
      refine planEdit_accepted hg fun g t e _ _ hseen he => ?_
      simp only [bind_eq_ok, pure_eq_ok] at he
      obtain ⟨i, hi, rfl⟩ := he
      exact Group.accepts_removeRow hseen (Table.checkRow_lt hi)
  | clear h =>
      exact planEdit_accepted hg fun g t e _ _ hseen he =>
        pure_eq_ok.mp he ▸ Group.accepts_clear hseen
  | setScalar h column row x =>
      exact planSet_accepted hg fun g t i _ _ _ _ htype =>
        Table.takes_of_type htype x.value_fits x.value_ne_null
  | setMixed h column row v =>
      -- The value is not checked, so that it fits has to be known from elsewhere.
      refine planSet_accepted hg fun g t i _ ht _ hi _ => ?_
      exact Classical.not_not.mp fun hv => hfit ⟨t, i, ht, hi, hv⟩
  | nullifyLink h column row =>
      exact planSet_accepted hg fun g t i hgroup _ hseen _ htype =>
        Table.takes_null_of_link (hc g hgroup _ t hseen) htype
  | setNull h column row =>
      refine planEdit_accepted hg fun g t e hgroup _ hseen he => ?_
      simp only [bind_eq_ok, pure_eq_ok] at he
      obtain ⟨⟨i, j⟩, hcell, _, hnull, rfl⟩ := he
      exact Group.accepts_set hseen (Table.takes_null (hc g hgroup _ t hseen) hnull)
        (Table.checkRow_lt (Table.checkCell_eq_ok hcell).2.1)
  | setLink h column row target =>
      refine planEdit_accepted hg fun g t e hgroup _ hseen he => ?_
      simp only [bind_eq_ok, pure_eq_ok] at he
      obtain ⟨⟨i, j⟩, hcell, g', hgroup', n, hn, rfl⟩ := he
      obtain rfl := Except.ok.inj (hgroup.symm.trans hgroup')
      exact Group.accepts_setLink hseen (Table.checkCell_strict hcell)
        (Table.checkRow_lt (Table.checkCell_eq_ok hcell).2.1) (Group.checkLinkTarget_eq_ok hn).2.1
  | getRow h row =>
      exact .bind fun t _ => .bind fun i _ => .pure ⟨_, rfl⟩
  | rowIndex h => exact .bind fun found _ => .pure ⟨_, rfl⟩
  | rowGet h column =>
      refine .bind fun found hr => .bind fun i hi => .pure ?_
      obtain ⟨hj, -⟩ := row_seen hnumbered hr
      obtain ⟨v, hv⟩ := Table.get_of_lt (Table.checkColumn_lt hi) hj
      exact read_accepted hv _
  | rowSet h column v => exact planRowSet_accepted hg hc hsized
  | getLinkList h column row =>
      exact .bind fun t _ => .bind fun found _ => .pure ⟨_, rfl⟩
  | linkListSize h =>
      refine .bind fun found hr => .pure ?_
      obtain ⟨g, rows, -, -, -, hrows⟩ := linkList_readable hg hc hr hfit
      exact read_accepted hrows _
  | linkListTarget h position =>
      exact .bind fun found _ => .bind fun targets _ => .bind fun i _ => .pure ⟨_, rfl⟩
  | linkListAdd h target =>
      refine .bind fun found hr => .bind fun g' hgroup' => .bind fun n hn =>
        .bind fun _ hwriting => .pure ?_
      obtain ⟨g, rows, hgroup, hseen, htype, hrows⟩ := linkList_readable hg hc hr hfit
      obtain rfl := Except.ok.inj (hgroup.symm.trans hgroup')
      exact edit_accepted hgroup hwriting
        (Group.accepts_pushLink hseen htype hrows (Group.checkLinkTarget_eq_ok hn).2.1)
  | linkListRemove h position =>
      refine .bind fun found hr => .bind fun targets htargets => .bind fun p hp =>
        .bind fun _ hwriting => .pure ?_
      obtain ⟨t, column, i⟩ := found
      obtain ⟨-, g, hgroup, hseen⟩ := linkList_seen hnumbered hr
      exact edit_accepted hgroup hwriting
        (Group.accepts_eraseLink hseen htargets (checkPosition_eq_ok.mp hp).2)
  | linkListClear h =>
      refine .bind fun found hr => .bind fun _ hwriting => .pure ?_
      obtain ⟨g, rows, hgroup, hseen, -, hrows⟩ := linkList_readable hg hc hr hfit
      exact edit_accepted hgroup hwriting (Group.accepts_clearLinks hseen hrows)
  | _ => simp [Call.isOfTable] at hcall

omit hc in
/-- Where the checks of a call forget something, what passes them is refused. -/
theorem plan_refused {c : Call} (hfit : s.Misfits c) :
    Yields (Operation.Refused s) (s.plan c) := by
  cases c with
  | setMixed h column row v =>
      obtain ⟨t', i', ht', hi', hv⟩ := hfit
      refine .bind fun t ht => .bind fun found hcell => .bind fun _ hwriting => .pure ?_
      obtain rfl := Except.ok.inj (ht'.symm.trans ht)
      obtain ⟨g, hgroup, -, hseen⟩ := table_found hg ht
      obtain rfl := Except.ok.inj (hi'.symm.trans (Table.checkCell_eq_ok hcell).1)
      exact edit_refused hgroup hwriting (Group.refuses_set hseen hv found.2)
  | linkListSize h =>
      refine .bind fun found hr => .pure ?_
      obtain ⟨g, e, -, -, -, he⟩ := linkList_dangling hg hr hfit
      exact ⟨e, map_eq_error.mpr he⟩
  | linkListAdd h target =>
      refine .bind fun found hr => .bind fun _ _ => .bind fun n _ => .bind fun _ hwriting =>
        .pure ?_
      obtain ⟨g, -, hgroup, hseen, htype, -⟩ := linkList_dangling hg hr hfit
      exact edit_refused hgroup hwriting (Group.refuses_pushLink hseen htype _ n)
  | linkListClear h =>
      refine .bind fun found hr => .bind fun _ hwriting => .pure ?_
      obtain ⟨g, e, hgroup, hseen, -, he⟩ := linkList_dangling hg hr hfit
      exact edit_refused hgroup hwriting (Group.refuses_clearLinks hseen he)
  | _ => exact hfit.elim

end Plan
end Session
end SnapshotStore
