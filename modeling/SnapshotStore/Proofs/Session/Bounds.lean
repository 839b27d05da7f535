import SnapshotStore.Proofs.Group.Bounds
import SnapshotStore.Proofs.Session.Edits

/-!
What the checks of a call are good for. A call that stops at a check stops with a complaint; one
that gets past its checks names tables, columns, rows and places in lists that are there.
-/

namespace SnapshotStore

/-! Failures at the checks -/

theorem Arena.locate_complains {α : Type} (a : Arena α) (raw : UInt64) :
    Complains (a.locate raw) := by
  have hdecode : Complains (a.decode raw) := by
    unfold decode
    split
    · exact .error rfl
    · exact .ite (.ok _) (.error rfl)
  have hstale : ∀ handle, (a.stale handle).isComplaint = true := by
    intro handle
    unfold stale
    split <;> rfl
  unfold locate
  split
  next e he => exact .error (hdecode e he)
  · split
    · exact .ite (.ok _) (.error (hstale _))
    · exact .error (hstale _)

theorem Arena.get_complains {α : Type} (a : Arena α) (raw : UInt64) : Complains (a.get raw) :=
  fun e he => a.locate_complains raw e (get_eq_error.mp he)

theorem Bound.resolve_complains {α : Type} [Anchored α] (b : Bound α) (c : Context) :
    Complains (b.resolve c) := fun _ he => resolve_eq_error he ▸ rfl

namespace Table
variable {t : Table} {column row : Int} {i j : Nat} {type? : Option (ColumnType × Bool)}

theorem checkCell_complains (t : Table) (column row : Int) (type? : Option (ColumnType × Bool)) :
    Complains (t.checkCell column row type?) := by
  rw [checkCell_eq]
  refine (t.checkColumn_complains column).bind fun i _ =>
    (t.checkRow_complains row false).bind fun j _ => FailsBy.bind ?_ fun _ _ => .ok _
  cases type? with
  | none => exact .ok _
  | some type => exact t.checkType_complains i (some j) type.1 type.2

/-- To insert a row is to ask for a row number that may be the end. -/
theorem checkInsertion_eq {α : Type} (t : Table) (row : Int) (f : Nat → α) :
    (do let checked ← Access.check ⟨none, some (.insertion row), none⟩ t
        return f (← checked.row)) = (t.checkRow row true).map f := by
  simp only [Access.check, Access.checkColumn?, Access.checkRow?]
  cases t.checkRow row true <;> rfl

theorem checkColumn_eq_ok : t.checkColumn column = .ok i ↔ column = i ∧ i < t.columnCount :=
  ite_toNat_eq_ok

theorem checkColumn_lt (h : t.checkColumn column = .ok i) : i < t.columnCount :=
  (checkColumn_eq_ok.mp h).2

theorem checkRow_le (h : t.checkRow row true = .ok j) : j ≤ t.size :=
  Nat.le_of_lt_succ (ite_toNat_eq_ok.mp h).2

/-- A cell that passes its check is there. -/
theorem WellFormed.cell?_of_checkCell (hw : t.WellFormed)
    (h : t.checkCell column row type? = .ok (i, j)) : (t.cell? i j).isSome := by
  obtain ⟨hi, hj, -⟩ := checkCell_eq_ok h
  exact hw.cell?_isSome (checkColumn_lt hi) (checkRow_lt hj)

theorem checkLinkLike_eq_ok {c : Column} (h : t.checkLinkLike i = .ok ())
    (hc : t.columns[i]? = some c) : c.type.isLinkLike = true := by
  simp only [checkLinkLike, columnType, column_eq_ok.mpr hc, Except.map, bind, Except.bind] at h
  cases hlink : c.type.isLinkLike with
  | true => rfl
  | false => simp [hlink] at h

end Table

theorem checkPosition_complains (position : Int) (size : Nat) :
    Complains (checkPosition position size) := .ite (.ok _) (.error rfl)

theorem Group.WellFormed.checkLinkTarget_complains {g : Group} (hg : g.WellFormed) {t : Table}
    (ht : g.table? t.key = some t) (column : Nat) (target : Int) :
    Complains (g.checkLinkTarget t column target) := by
  have hlinkLike : Complains (t.checkLinkLike column) :=
    (t.columnType_complains column).bind fun _ _ => .ite (.error rfl) (.ok _)
  refine hlinkLike.bind fun _ hlink => (t.column_complains column).bind fun c hc => ?_
  have hc := Table.column_eq_ok.mp hc
  obtain ⟨into, u, hinto, hu⟩ := hg.target_of_linkLike ht hc (Table.checkLinkLike_eq_ok hlink hc)
  simp only [hinto, hu]
  exact u.checkRow_complains target false

/-- A link target that passes its check is a row of the table that the column links to. -/
theorem Group.checkLinkTarget_eq_ok {g : Group} {t : Table} {column n : Nat} {target : Int}
    (h : g.checkLinkTarget t column target = .ok n) : target = n ∧
      t.LinksWithin g column n ∧ ∃ c, t.columns[column]? = some c ∧ c.type.isLinkLike = true := by
  simp only [checkLinkTarget, bind_eq_ok, Table.column_eq_ok] at h
  obtain ⟨_, hlink, c, hc, h⟩ := h
  split at h
  · simp at h
  next into hinto =>
    split at h
    · simp at h
    next u hu =>
      obtain ⟨htarget, hlt⟩ := Table.checkRow_eq_ok.mp h
      exact ⟨htarget, ⟨c, into, u, hc, hinto, hu, hlt⟩, c, hc,
        Table.checkLinkLike_eq_ok hlink hc⟩

theorem checkPosition_eq_ok {position : Int} {size i : Nat} :
    checkPosition position size = .ok i ↔ position = i ∧ i < size := ite_toNat_eq_ok

theorem eq_of_signed {n m : Nat} (hn : n < 0x10000000000000000) (h : Error.signed n = m) :
    m = n := by
  unfold Error.signed at h
  rw [Int.bmod_def] at h
  split at h <;> omega

theorem checkLinkTarget_signed {g : Group} {t : Table} {column n m : Nat}
    (hn : n < 0x10000000000000000)
    (h : g.checkLinkTarget t column (Error.signed n) = .ok m) : m = n :=
  eq_of_signed hn (Group.checkLinkTarget_eq_ok h).1

theorem Group.Numbered.lt_of_indexIn? {g : Group} (hg : g.Numbered) {t : Table}
    (ht : g.table? t.key = some t) {l : RowLocator} {i : Nat} (h : l.indexIn? t = some i) :
    i < t.size := by
  obtain ⟨-, -, hid⟩ := RowLocator.indexIn?_eq_some h
  have hlt := (List.getElem?_eq_some_iff.mp hid).1
  rwa [(hg.tables t.key t ht).1.counted] at hlt

/-! Operations that calls come to -/

/-- Everything that the edit names by its position is there before it is made. Row numbers are
64 bits wide. Whether there is a list in the cell to clear is left to the edit. -/
def Edit.Placed (g : Group) : Edit → Prop
  | setLink key column row target => ∃ t, g.table? key = some t ∧ (t.cell? column row).isSome ∧
    (target < 0x10000000000000000 → t.LinksWithin g column target)
  | clearLinks key _ row => ∃ t, g.table? key = some t ∧ row < t.size
  | e => e.InBounds g

/-- Whatever the operation has read or found is fine or a complaint, a view that it replaces is
fine or failed in one of the ways given, and an edit is of things that are there. -/
def Operation.Sure (P : Error → Prop) (s : Session) : Operation → Prop
  | read result => Complains result
  | keep found => Complains found
  | replaceView _ outcome _ => FailsBy P outcome
  | edit e => ∀ g, s.context.group = .ok g → e.Placed g
  | _ => True

/-- Either a complaint or an operation to be sure of. -/
structure Orderly (P : Error → Prop) (s : Session) (x : Except Error Operation) : Prop where
  complains : Complains x
  sure : Yields (Operation.Sure P s) x

namespace Orderly
variable {α : Type} {P : Error → Prop} {s : Session} {operation : Operation}

theorem pure (h : operation.Sure P s) : Orderly P s (pure operation) := ⟨.ok _, .pure h⟩

theorem throw {e : Error} (h : e.isComplaint = true) : Orderly P s (throw e) :=
  ⟨.error h, .throw e⟩

theorem bind {x : Except Error α} {f : α → Except Error Operation} (hx : Complains x)
    (hf : ∀ a, x = .ok a → Orderly P s (f a)) : Orderly P s (x >>= f) :=
  ⟨hx.bind fun a ha => (hf a ha).complains, .bind fun a ha => (hf a ha).sure⟩

theorem ite {c : Prop} [Decidable c] {x y : Except Error Operation} (hx : Orderly P s x)
    (hy : Orderly P s y) : Orderly P s (if c then x else y) := by
  split
  · exact hx
  · exact hy

end Orderly

namespace Session
variable {P : Error → Prop} {s : Session} {h : UInt64}

/-- The call is to sort a view by keys that do not order its rows, and it panics. -/
def Panics (s : Session) (c : Call) (reason : String) : Prop :=
  ∃ h keys d v t sorting, c = .viewSort h keys d ∧ s.view h = .ok (v, t) ∧
    Request.checkKeys t keys = .ok sorting ∧ v.Panics t sorting d reason

theorem lookUp_complains {α : Type} [Anchored α] (s : Session) (a : Arena (Bound α))
    (h : UInt64) : Complains (s.lookUp a h) :=
  (a.get_complains h).bind fun b _ => (b.resolve_complains s.context).bind fun _ _ => .ok _

theorem table_complains (s : Session) (h : UInt64) : Complains (s.table h) :=
  (s.lookUp_complains s.tables h).map _

theorem row_complains (s : Session) (h : UInt64) : Complains (s.row h) := by
  refine (s.lookUp_complains s.rows h).bind fun found _ => ?_
  dsimp only
  split
  · exact .ok _
  · exact .error rfl

theorem linkList_complains (s : Session) (h : UInt64) : Complains (s.linkList h) := by
  refine (s.lookUp_complains s.lists h).bind fun found _ => ?_
  dsimp only
  split
  · exact .ok _
  · exact .error rfl

theorem isAttached_complains {α : Type} [Anchored α] (s : Session) (a : Arena (Bound α))
    (h : UInt64) : Complains (s.isAttached a h) := by
  unfold isAttached
  split
  · exact .ok _
  next e he => exact .ite (.ok _) (.error (a.get_complains h e he))

theorem portable_complains (s : Session) (kind : PayloadKind) (h : UInt64) :
    Complains (s.portable kind h) := by
  cases kind <;> exact (s.lookUp_complains _ h).map _

/-- A row handle that is good finds its row in a table of the context. -/
theorem row_seen {t : Table} {i : Nat} (hn : ∀ g, s.context.group = .ok g → g.Numbered)
    (hr : s.row h = .ok (t, i)) :
    i < t.size ∧ ∃ g, s.context.group = .ok g ∧ g.table? t.key = some t := by
  obtain ⟨l, hl, hi⟩ := row_eq_ok.mp hr
  obtain ⟨-, g, hg, ht⟩ := lookUp_seen hn hl
  exact ⟨(hn g hg).lt_of_indexIn? ht hi, g, hg, ht⟩

/-- A list handle that is good finds the row of its list in a table of the context. -/
theorem linkList_seen {t : Table} {column i : Nat}
    (hn : ∀ g, s.context.group = .ok g → g.Numbered) (hr : s.linkList h = .ok (t, column, i)) :
    i < t.size ∧ ∃ g, s.context.group = .ok g ∧ g.table? t.key = some t := by
  obtain ⟨l, hl, -, hi⟩ := linkList_eq_ok.mp hr
  obtain ⟨-, g, hg, ht⟩ := lookUp_seen hn hl
  exact ⟨(hn g hg).lt_of_indexIn? ht hi, g, hg, ht⟩

/-! Plans -/

section Plan
variable (hg : ∀ g, s.context.group = .ok g → g.WellFormed ∧ g.Numbered)
include hg

theorem table_found {t : Table} (ht : s.table h = .ok t) :
    ∃ g, s.context.group = .ok g ∧ g.WellFormed ∧ g.table? t.key = some t := by
  obtain ⟨g, hgroup, hseen⟩ := table_seen (fun g h => (hg g h).2) ht
  exact ⟨g, hgroup, (hg g hgroup).1, hseen⟩

/-- An edit of a table that is looked up is of a table that is there. -/
theorem edit_sure {t : Table} {e : Edit} (ht : s.table h = .ok t)
    (he : ∀ g, g.WellFormed → g.table? t.key = some t → e.Placed g) :
    (Operation.edit e).Sure P s := by
  intro g hgroup
  obtain ⟨g', hgroup', hw, hseen⟩ := table_found hg ht
  obtain rfl := Except.ok.inj (hgroup'.symm.trans hgroup)
  exact he g' hw hseen

theorem planEdit_orderly {f : Table → Except Error Edit}
    (hf : ∀ g t, s.context.group = .ok g → g.WellFormed → g.table? t.key = some t →
      Complains (f t))
    (he : ∀ g t e, s.context.group = .ok g → g.WellFormed → g.table? t.key = some t →
      f t = .ok e → e.Placed g) :
    Orderly P s (s.planEdit h f) := by
  refine .bind (s.table_complains h) fun t ht => ?_
  obtain ⟨g, hgroup, hw, hseen⟩ := table_found hg ht
  refine .bind (hf g t hgroup hw hseen) fun e hfe =>
    .bind s.context.requireWriting_complains fun _ _ => .pure fun g' hgroup' => ?_
  obtain rfl := Except.ok.inj (hgroup.symm.trans hgroup')
  exact he g t e hgroup hw hseen hfe

theorem planSet_orderly (column row : Int) (expected : ColumnType) (v : Value) :
    Orderly P s (s.planSet h column row expected v) :=
  .bind (s.table_complains h) fun t ht =>
    .bind (t.checkCell_complains column row _) fun _ hcell =>
      .bind s.context.requireWriting_complains fun _ _ =>
        .pure <| edit_sure hg ht fun _ hw hseen =>
          ⟨t, hseen, (hw.tables _ t hseen).cell?_of_checkCell hcell⟩

omit hg in
theorem planRead_orderly {f : Table → Except Error Reply} (hf : ∀ t, Complains (f t)) :
    Orderly P s (s.planRead h f) :=
  .bind (s.table_complains h) fun t _ => .bind (hf t) fun _ _ => .pure (.ok _)

omit hg in
theorem cell_orderly (column row : Int) (expected : ColumnType) (f : Value → Reply) :
    Orderly P s (do
      let v ← s.cell h column row expected
      return .read (v.map f)) := by
  refine ⟨?_, ?_⟩
  · exact ((s.table_complains h).bind fun t _ => (t.checkCell_complains column row _).bind
      fun _ _ => .ok _).bind fun _ _ => .ok _
  · refine .bind fun v hv => .pure ?_
    simp only [cell, bind_eq_ok, pure_eq_ok] at hv
    obtain ⟨t, -, ⟨i, j⟩, -, rfl⟩ := hv
    exact (t.get_complains i j).map f

theorem planRowSet_orderly (column : Int) (v : Value) : Orderly P s (s.planRowSet h column v) := by
  refine .bind (s.row_complains h) fun (t, i) hr => ?_
  obtain ⟨hi, g, hgroup, hseen⟩ := row_seen (fun g h => (hg g h).2) hr
  obtain ⟨hw, -⟩ := hg g hgroup
  refine .bind (t.checkColumn_complains column) fun j hj =>
    .bind (t.columnType_complains j) fun type _ => .ite (.throw rfl) <|
      .bind (t.checkValue_complains j v) fun _ _ => ?_
  have hcell := (hw.tables _ t hseen).cell?_isSome (Table.checkColumn_lt hj) hi
  split
  next target =>
    refine .bind s.context.group_complains fun g' hgroup' => ?_
    obtain rfl := Except.ok.inj (hgroup.symm.trans hgroup')
    refine .bind (hw.checkLinkTarget_complains hseen j _) fun n hn =>
      .bind s.context.requireWriting_complains fun _ _ => .pure fun g' hgroup' => ?_
    obtain rfl := Except.ok.inj (hgroup.symm.trans hgroup')
    exact ⟨t, hseen, hcell, fun hsize =>
      checkLinkTarget_signed hsize hn ▸ (Group.checkLinkTarget_eq_ok hn).2.1⟩
  next =>
    refine .bind s.context.requireWriting_complains fun _ _ => .pure fun g' hgroup' => ?_
    obtain rfl := Except.ok.inj (hgroup.symm.trans hgroup')
    exact ⟨t, hseen, hcell⟩

theorem linkList_placed {t : Table} {column i : Nat} {e : Edit}
    (hr : s.linkList h = .ok (t, column, i))
    (he : ∀ g, g.WellFormed → g.table? t.key = some t → e.Placed g) :
    (Operation.edit e).Sure P s := by
  intro g hgroup
  obtain ⟨-, g', hgroup', hseen⟩ := linkList_seen (fun g h => (hg g h).2) hr
  obtain rfl := Except.ok.inj (hgroup'.symm.trans hgroup)
  exact he g' (hg g' hgroup).1 hseen

theorem plan_removeColumn_orderly (column : Int) :
    Orderly P s (s.plan (.removeColumn h column)) := by
  refine planEdit_orderly hg (fun _ t _ _ _ => (t.checkColumn_complains column).bind
    fun _ _ => .ok _) fun _ t e _ hw ht he => ?_
  simp only [bind_eq_ok, pure_eq_ok] at he
  obtain ⟨i, hi, rfl⟩ := he
  have hlt := Table.checkColumn_lt hi
  exact ⟨t, ht, hlt, fun r hr => ((hw.tables _ t ht).width r hr).symm ▸ hlt⟩

theorem plan_insertEmptyRow_orderly (row : Int) : Orderly P s (s.plan (.insertEmptyRow h row)) := by
  refine planEdit_orderly hg (fun _ t _ _ _ => ?_) fun _ t e _ hw ht he => ?_
  · rw [t.checkInsertion_eq row (Edit.insertRow t.key)]
    exact (t.checkRow_complains row true).map _
  · rw [t.checkInsertion_eq row (Edit.insertRow t.key)] at he
    obtain ⟨i, hi, rfl⟩ := map_eq_ok.mp he
    have hle := Table.checkRow_le hi
    exact ⟨t, ht, hle, (hw.tables _ t ht).identified ▸ hle⟩

theorem plan_setLink_orderly (column row target : Int) :
    Orderly P s (s.plan (.setLink h column row target)) := by
  refine planEdit_orderly hg (fun g t hgroup hw ht =>
    (t.checkCell_complains column row _).bind fun _ _ =>
      s.context.group_complains.bind fun g' hgroup' => ?_) fun g t e hgroup hw ht he => ?_
  · obtain rfl := Except.ok.inj (hgroup.symm.trans hgroup')
    exact (hw.checkLinkTarget_complains ht _ target).bind fun _ _ => .ok _
  · simp only [bind_eq_ok, pure_eq_ok] at he
    obtain ⟨_, hcell, g', hgroup', n, hn, rfl⟩ := he
    obtain rfl := Except.ok.inj (hgroup.symm.trans hgroup')
    exact ⟨t, ht, (hw.tables _ t ht).cell?_of_checkCell hcell,
      fun _ => (Group.checkLinkTarget_eq_ok hn).2.1⟩

theorem plan_linkListAdd_orderly (target : Int) : Orderly P s (s.plan (.linkListAdd h target)) := by
  refine .bind (s.linkList_complains h) fun found hr => ?_
  obtain ⟨t, column, i⟩ := found
  obtain ⟨hi, g, hgroup, hseen⟩ := linkList_seen (fun g h => (hg g h).2) hr
  obtain ⟨hw, -⟩ := hg g hgroup
  refine .bind s.context.group_complains fun g' hgroup' => ?_
  obtain rfl := Except.ok.inj (hgroup.symm.trans hgroup')
  refine .bind (hw.checkLinkTarget_complains hseen _ target) fun n hn =>
    .bind s.context.requireWriting_complains fun _ _ => .pure fun g' hgroup' => ?_
  obtain rfl := Except.ok.inj (hgroup.symm.trans hgroup')
  obtain ⟨-, hlink, c, hc, -⟩ := Group.checkLinkTarget_eq_ok hn
  exact ⟨t, hseen, (hw.tables _ t hseen).cell?_isSome
    (List.getElem?_eq_some_iff.mp hc).1 hi, hlink⟩

theorem plan_linkListRemove_orderly (position : Int) :
    Orderly P s (s.plan (.linkListRemove h position)) := by
  refine .bind (s.linkList_complains h) fun found hr => ?_
  obtain ⟨t, column, i⟩ := found
  refine .bind (t.linkList_complains _ _) fun targets htargets =>
    .bind (checkPosition_complains position _) fun p hp =>
      .bind s.context.requireWriting_complains fun _ _ =>
        .pure (linkList_placed hg hr fun g hw hseen => ?_)
  exact ⟨t, targets, hseen, (hw.tables _ t hseen).linkList_eq_ok.mp htargets,
    (checkPosition_eq_ok.mp hp).2⟩

/-- Every call that is not refused with a complaint comes to an operation to be sure of. -/
theorem plan_orderly {c : Call} (complaints : ∀ e, e.isComplaint = true → P e)
    (panics : ∀ reason, s.Panics c reason → P (.panicked reason)) : Orderly P s (s.plan c) := by
  cases c with
  | transact t | close kind h | importObject kind h | run h request | runBatch requests =>
      exact .pure trivial
  | addTable name => exact .bind s.context.requireWriting_complains fun _ _ => .pure trivial
  | getTable name =>
      refine .bind s.context.group_complains fun g _ => ?_
      split
      · exact .pure (.ok _)
      · exact .pure (.error rfl)
  | hasTable name => exact .bind s.context.group_complains fun _ _ => .pure (.ok _)
  | removeTable h | addEmptyRow h | clear h =>
      exact planEdit_orderly hg (fun _ _ _ _ _ => .ok _) fun _ t _ _ _ ht he =>
        pure_eq_ok.mp he ▸ ⟨t, ht⟩
  | removeColumn h column => exact plan_removeColumn_orderly hg column
  | insertEmptyRow h row => exact plan_insertEmptyRow_orderly hg row
  | removeRow h row =>
      refine planEdit_orderly hg (fun _ t _ _ _ => (t.checkRow_complains row false).bind
        fun _ _ => .ok _) fun _ t e _ hw ht he => ?_
      simp only [bind_eq_ok, pure_eq_ok] at he
      obtain ⟨i, hi, rfl⟩ := he
      have hlt := Table.checkRow_lt hi
      exact ⟨t, ht, hlt, (hw.tables _ t ht).identified ▸ hlt⟩
  | setNull h column row =>
      refine planEdit_orderly hg (fun _ t _ _ _ => (t.checkCell_complains column row none).bind
        fun _ _ => (t.checkNullable_complains _).bind fun _ _ => .ok _) fun _ t e _ hw ht he => ?_
      simp only [bind_eq_ok, pure_eq_ok] at he
      obtain ⟨_, hcell, _, -, rfl⟩ := he
      exact ⟨t, ht, (hw.tables _ t ht).cell?_of_checkCell hcell⟩
  | setLink h column row target => exact plan_setLink_orderly hg column row target
  | tableName h | columnCount h | columnIndex h name | size h =>
      exact planRead_orderly fun _ => .ok _
  | columnName h column =>
      exact planRead_orderly fun t => (t.checkColumn_complains column).bind fun i _ =>
        (t.column_complains i).bind fun _ _ => .ok _
  | columnType h column =>
      exact planRead_orderly fun t => (t.checkColumn_complains column).bind fun i _ =>
        (t.columnType_complains i).bind fun _ _ => .ok _
  | addColumn h type name nullable =>
      exact .bind (s.table_complains h) fun t ht =>
        .bind s.context.requireWriting_complains fun _ _ => .ite (.throw rfl) <|
          .pure (edit_sure hg ht fun _ _ hseen => ⟨t, hseen⟩)
  | addLinkColumn h type name target =>
      exact .bind (s.table_complains h) fun t ht => .bind (s.table_complains target) fun _ _ =>
        .bind s.context.requireWriting_complains fun _ _ => .ite (.throw rfl) <|
          .pure (edit_sure hg ht fun _ _ hseen => ⟨t, hseen⟩)
  | getScalar h type column row | getMixed h column row | getMixedType h column row
  | getLink h column row => exact cell_orderly column row _ _
  | isNull h column row =>
      exact .bind (s.table_complains h) fun t _ => .bind (t.checkCell_complains column row _)
        fun _ _ => .pure ((t.get_complains _ _).map _)
  | setScalar h column row x | setMixed h column row v | nullifyLink h column row =>
      exact planSet_orderly hg column row _ _
  | isTableAttached h | isRowAttached h | isViewAttached h =>
      exact .bind (s.isAttached_complains _ h) fun _ _ => .pure trivial
  | getRow h row =>
      exact .bind (s.table_complains h) fun t _ => .bind (t.checkRow_complains row false)
        fun _ _ => .pure (.ok _)
  | rowIndex h => exact .bind (s.row_complains h) fun _ _ => .pure (.ok _)
  | rowGet h column =>
      exact .bind (s.row_complains h) fun found _ =>
        .bind (found.1.checkColumn_complains column) fun _ _ =>
          .pure ((found.1.get_complains _ _).map _)
  | rowSet h column v => exact planRowSet_orderly hg column v
  | getLinkList h column row =>
      exact .bind (s.table_complains h) fun t _ => .bind (t.checkCell_complains column row _)
        fun _ _ => .pure (.ok _)
  | linkListSize h =>
      exact .bind (s.linkList_complains h) fun found _ =>
        .pure ((found.1.linkList_complains _ _).map _)
  | linkListTarget h position =>
      exact .bind (s.linkList_complains h) fun found _ =>
        .bind (found.1.linkList_complains _ _) fun _ _ =>
          .bind (checkPosition_complains position _) fun _ _ => .pure (.ok _)
  | linkListAdd h target => exact plan_linkListAdd_orderly hg target
  | linkListRemove h position => exact plan_linkListRemove_orderly hg position
  | linkListClear h =>
      refine .bind (s.linkList_complains h) fun found hr => ?_
      obtain ⟨t, column, i⟩ := found
      refine .bind s.context.requireWriting_complains fun _ _ =>
        .pure (linkList_placed hg hr fun g hw hseen => ⟨t, hseen, ?_⟩)
      exact (linkList_seen (fun g h => (hg g h).2) hr).1
  | whereTable h => exact .bind (s.table_complains h) fun _ _ => .pure (.ok _)
  | queryFilter h p =>
      exact .bind (s.lookUp_complains _ h) fun found _ =>
        .bind ((found.1.filter p).check_complains found.2) fun _ _ => .pure trivial
  | queryValidate h => exact .bind (s.lookUp_complains _ h) fun _ _ => .pure (.ok _)
  | queryFind h start =>
      exact .bind (s.lookUp_complains _ h) fun found _ =>
        .bind (found.2.checkRow_complains start true) fun _ _ =>
          .pure ((found.1.find_complains found.2 _).map _)
  | queryFindAll h start stop limit =>
      exact .bind (s.lookUp_complains _ h) fun found _ =>
        .bind (Window.ofBounds_complains _ start stop limit) fun w _ =>
          .pure ((View.ofQuery_complains found.2 found.1 w).map _)
  | queryCount h start stop limit =>
      exact .bind (s.lookUp_complains _ h) fun found _ =>
        .bind (Window.ofBounds_complains _ start stop limit) fun w _ =>
          .pure ((found.1.count_complains found.2 w).map _)
  | queryAggregate h kind column =>
      exact .bind (s.lookUp_complains _ h) fun found _ =>
        .bind (found.2.checkColumn_complains column) fun i _ =>
          .pure ((found.1.aggregate_complains found.2 kind i .all).map _)
  | viewSize h => exact .bind (s.lookUp_complains _ h) fun _ _ => .pure (.ok _)
  | viewRowIndex h position =>
      exact .bind (s.lookUp_complains _ h) fun found _ =>
        .bind (checkPosition_complains position _) fun i _ =>
          .pure ((found.1.rowIndex_complains i).map _)
  | viewGet h column position =>
      exact .bind (s.lookUp_complains _ h) fun found _ =>
        .bind (found.2.checkColumn_complains column) fun j _ =>
          .bind (checkPosition_complains position _) fun i _ =>
            .pure ((found.1.get_complains found.2 j i).map _)
  | viewSort h keys d =>
      refine .bind (s.lookUp_complains _ h) fun found hv =>
        .bind (Request.checkKeys_complains found.2 keys) fun sorting hkeys => .pure fun e he => ?_
      obtain ⟨v, t⟩ := found
      rcases View.sort_eq_error he with ⟨hcheck, -⟩ | ⟨reason, rfl, hpanics, -⟩
      · exact complaints e (v.checkAttached_complains t e hcheck)
      · exact panics reason ⟨h, keys, d, v, t, sorting, rfl, hv, hkeys, hpanics⟩
  | viewDistinct h column =>
      refine .bind (s.lookUp_complains _ h) fun found _ =>
        .bind (found.2.checkColumn_complains column) fun i _ =>
          .bind (found.2.checkDistinct_complains i) fun _ _ => ?_
      split
      next => exact .pure (.ok ())
      next e he => exact .pure (.error (complaints e (found.1.distinct_complains found.2 i e he)))
  | viewSync h =>
      exact .bind (s.lookUp_complains _ h) fun found _ =>
        .pure ((found.1.sync_complains found.2).mono complaints)
  | viewAggregate h kind column =>
      exact .bind (s.lookUp_complains _ h) fun found _ =>
        .bind (found.2.checkColumn_complains column) fun i _ =>
          .pure ((found.1.aggregate_complains found.2 kind i).map _)
  | exportObject kind h policy =>
      exact .bind (s.portable_complains kind h) fun _ _ => .pure trivial

/-- The link that is read from a list stands in the list. -/
theorem plan_linkListTarget {position : Int} {n : Nat}
    (hp : s.plan (.linkListTarget h position) = .ok (.read (.ok (.number n)))) :
    ∃ t column row targets, s.linkList h = .ok (t, column, row) ∧
      t.cell? column row = some (.linkList targets) ∧ targets[position.toNat]? = some n := by
  simp only [plan, bind_eq_ok, pure_eq_ok] at hp
  obtain ⟨⟨t, column, row⟩, hr, targets, htargets, i, hi, hread⟩ := hp
  obtain ⟨-, g, hgroup, hseen⟩ := linkList_seen (fun g h => (hg g h).2) hr
  have hlist := (((hg g hgroup).1.tables _ t hseen).linkList_eq_ok).mp htargets
  have hlt := (checkPosition_eq_ok.mp hi).2
  have hposition : i = position.toNat := by
    unfold checkPosition at hi
    split at hi
    · exact (Except.ok.inj hi).symm
    · simp at hi
  have hn := Reply.number.inj (Except.ok.inj (Operation.read.inj hread))
  rw [List.getElem?_eq_getElem hlt, Option.getD_some] at hn
  exact ⟨t, column, row, targets, hr, hlist,
    hposition ▸ (List.getElem?_eq_getElem hlt).trans (congrArg some hn)⟩

end Plan
end Session
end SnapshotStore
