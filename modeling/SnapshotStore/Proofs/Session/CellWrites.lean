import SnapshotStore.Proofs.Session.CellGuard
import SnapshotStore.Proofs.Session.CellHandles

/-!
Calls that write a cell. Each is led to one cell by a handle of a table, of a row or of a list, and
comes to an edit of this cell. Afterwards the calls that read the cell, by this handle or another
one, answer what was written.
-/

namespace SnapshotStore

def Call.writesCell : Call → Bool
  | setScalar .. | setMixed .. | setNull .. | setLink .. | nullifyLink .. | rowSet ..
  | linkListAdd .. | linkListRemove .. | linkListClear .. => true
  | _ => false

/-- The call writes a cell of the table, which is to have the content then. -/
inductive Session.Overwrites (s : Session) (t : Table) (i j : Nat) : Call → Value → Prop
  | scalar {h : UInt64} {x : Scalar} (found : s.table h = .ok t)
      (typed : t.columnType i = .ok x.type.columnType) :
      Overwrites s t i j (.setScalar h i j x) x.value
  | mixed {h : UInt64} (found : s.table h = .ok t) (typed : t.columnType i = .ok .mixed)
      (v : Value) : Overwrites s t i j (.setMixed h i j v) v
  | null {h : UInt64} (found : s.table h = .ok t) : Overwrites s t i j (.setNull h i j) .null
  | link {h : UInt64} (found : s.table h = .ok t) (typed : t.columnType i = .ok .link)
      (target : Nat) : Overwrites s t i j (.setLink h i j target) (.link target)
  | unlink {h : UInt64} (found : s.table h = .ok t) (typed : t.columnType i = .ok .link) :
      Overwrites s t i j (.nullifyLink h i j) .null
  | row {h : UInt64} (found : s.row h = .ok (t, j)) (v : Value) :
      Overwrites s t i j (.rowSet h i v) v
  | push {h : UInt64} {targets : List Nat} (found : s.linkList h = .ok (t, i, j))
      (held : t.cell? i j = some (.linkList targets)) (target : Nat) :
      Overwrites s t i j (.linkListAdd h target) (.linkList (targets ++ [target]))
  | erase {h : UInt64} {targets : List Nat} (found : s.linkList h = .ok (t, i, j))
      (held : t.cell? i j = some (.linkList targets)) {position : Nat}
      (there : position < targets.length) :
      Overwrites s t i j (.linkListRemove h position) (.linkList (targets.eraseIdx position))
  | clear {h : UInt64} {targets : List Nat} (found : s.linkList h = .ok (t, i, j))
      (held : t.cell? i j = some (.linkList targets)) :
      Overwrites s t i j (.linkListClear h) (.linkList [])

/-- What a call answers that reads the cell of the table, by whatever handle, where the cell holds
the value. A mixed cell can be read as one of the type that its value has. -/
inductive Session.Shows (s : Session) (t : Table) (i j : Nat) (v : Value) : Call → Reply → Prop
  | cell {h : UInt64} {type : ColumnType} {r : Call} {reply : Reply}
      (asked : r.cellAccess? = some ⟨h, i, j, type, none, false⟩) (found : s.table h = .ok t)
      (typed : t.columnType i = .ok type ∨ t.columnType i = .ok .mixed ∧ v.type? = some type)
      (reads : r.Reads h i j v reply) : Shows s t i j v r reply
  | null {h : UInt64} (found : s.table h = .ok t) :
      Shows s t i j v (.isNull h i j) (.flag v.isNull)
  | row {h : UInt64} (found : s.row h = .ok (t, j)) : Shows s t i j v (.rowGet h i) (.value v)
  | size {h : UInt64} {targets : List Nat} (found : s.linkList h = .ok (t, i, j))
      (held : v = .linkList targets) :
      Shows s t i j v (.linkListSize h) (.number targets.length)
  | target {h : UInt64} {targets : List Nat} {position target : Nat}
      (found : s.linkList h = .ok (t, i, j)) (held : v = .linkList targets)
      (there : targets[position]? = some target) :
      Shows s t i j v (.linkListTarget h position) (.number target)

namespace Table
variable {t : Table} {i j : Nat}

theorem checkCell_cast {column row : Int} {type? : Option (ColumnType × Bool)}
    (h : t.checkCell column row type? = .ok (i, j)) : column = i ∧ row = j := by
  obtain ⟨hi, hj, -⟩ := checkCell_eq_ok h
  exact ⟨(checkColumn_eq_ok.mp hi).1, (checkRow_eq_ok.mp hj).1⟩

theorem checkCell_of_cell {v : Value} (hw : t.WellFormed) (hv : t.cell? i j = some v) :
    t.checkCell i j none = .ok (i, j) := by
  obtain ⟨hi, hj⟩ := hw.lt_of_cell? hv
  rw [checkCell_eq, checkColumn_eq_ok.mpr ⟨rfl, hi⟩, checkRow_eq_ok.mpr ⟨rfl, hj⟩]
  rfl

end Table

namespace Session
variable {s : Session} {h : UInt64} {t : Table} {g : Group} {c : Call} {operation : Operation}
  {i j : Nat} {v : Value}

/-! The edit that a call comes to -/

theorem planSet_writes {column row : Int} {expected : ColumnType}
    (hp : s.planSet h column row expected v = .ok operation) : ∃ (t : Table) (i j : Nat),
      s.table h = .ok t ∧ t.columnType i = .ok expected ∧ column = i ∧ row = j ∧
        operation = .edit (.set t.key i j v) := by
  simp only [planSet, bind_eq_ok, pure_eq_ok] at hp
  obtain ⟨t, ht, ⟨i, j⟩, hcell, _, -, rfl⟩ := hp
  obtain ⟨hcolumn, hrow⟩ := Table.checkCell_cast hcell
  exact ⟨t, i, j, ht, Table.checkCell_strict hcell, hcolumn, hrow, rfl⟩

theorem planRowSet_writes {column : Int} (hp : s.planRowSet h column v = .ok operation) :
    ∃ (t : Table) (i j : Nat), s.row h = .ok (t, j) ∧ column = i ∧
      (operation = .edit (.set t.key i j v) ∨
        ∃ target, v = .link target ∧ operation = .edit (.setLink t.key i j target)) := by
  simp only [planRowSet, bind_eq_ok] at hp
  obtain ⟨⟨t, j⟩, hrow, i, hcolumn, type, -, hp⟩ := hp
  refine ⟨t, i, j, hrow, (Table.checkColumn_eq_ok.mp hcolumn).1, ?_⟩
  split at hp
  · simp at hp
  simp only [bind_eq_ok] at hp
  obtain ⟨_, -, hp⟩ := hp
  split at hp
  next target =>
    simp only [bind_eq_ok, pure_eq_ok] at hp
    obtain ⟨_, -, _, -, _, -, rfl⟩ := hp
    exact .inr ⟨target, rfl, rfl⟩
  next =>
    simp only [bind_eq_ok, pure_eq_ok] at hp
    obtain ⟨_, -, rfl⟩ := hp
    exact .inl rfl

/-- A call that writes a cell comes to an edit of a cell of a table that is there. -/
theorem plan_writes (hn : ∀ g, s.context.group = .ok g → g.Numbered) (hc : c.writesCell = true)
    (hp : s.plan c = .ok operation) : ∃ t i j e, operation = .edit e ∧
      (∃ g, s.context.group = .ok g ∧ g.table? t.key = some t) ∧ e.cell? = some (t.key, i, j) ∧
      ∀ v, e.Puts t.key t i j v → s.Overwrites t i j c v := by
  cases c with
  | setScalar h column row x =>
      obtain ⟨t, i, j, ht, htype, rfl, rfl, rfl⟩ := planSet_writes hp
      refine ⟨t, i, j, _, rfl, table_seen hn ht, rfl, ?_⟩
      intro v hv
      cases hv
      exact .scalar ht htype
  | setMixed h column row v =>
      obtain ⟨t, i, j, ht, htype, rfl, rfl, rfl⟩ := planSet_writes hp
      refine ⟨t, i, j, _, rfl, table_seen hn ht, rfl, ?_⟩
      intro w hw
      cases hw
      exact .mixed ht htype v
  | nullifyLink h column row =>
      obtain ⟨t, i, j, ht, htype, rfl, rfl, rfl⟩ := planSet_writes hp
      refine ⟨t, i, j, _, rfl, table_seen hn ht, rfl, ?_⟩
      intro v hv
      cases hv
      exact .unlink ht htype
  | setNull h column row =>
      simp only [plan, planEdit, bind_eq_ok, pure_eq_ok] at hp
      obtain ⟨t, ht, e, ⟨⟨i, j⟩, hcell, _, -, rfl⟩, _, -, rfl⟩ := hp
      obtain ⟨rfl, rfl⟩ := Table.checkCell_cast hcell
      refine ⟨t, i, j, _, rfl, table_seen hn ht, rfl, ?_⟩
      intro v hv
      cases hv
      exact .null ht
  | setLink h column row target =>
      simp only [plan, planEdit, bind_eq_ok, pure_eq_ok] at hp
      obtain ⟨t, ht, e, ⟨⟨i, j⟩, hcell, g, -, k, hk, rfl⟩, _, -, rfl⟩ := hp
      obtain ⟨rfl, rfl⟩ := Table.checkCell_cast hcell
      obtain ⟨rfl, -⟩ := Group.checkLinkTarget_eq_ok hk
      refine ⟨t, i, j, _, rfl, table_seen hn ht, rfl, ?_⟩
      intro v hv
      cases hv
      exact .link ht (Table.checkCell_strict hcell) k
  | rowSet h column v =>
      obtain ⟨t, i, j, hrow, rfl, hedit⟩ := planRowSet_writes hp
      obtain rfl | ⟨target, rfl, rfl⟩ := hedit
      · refine ⟨t, i, j, _, rfl, (row_seen hn hrow).2, rfl, ?_⟩
        intro w hw
        cases hw
        exact .row hrow v
      · refine ⟨t, i, j, _, rfl, (row_seen hn hrow).2, rfl, ?_⟩
        intro w hw
        cases hw
        exact .row hrow _
  | linkListAdd h target =>
      simp only [plan, bind_eq_ok, pure_eq_ok] at hp
      obtain ⟨⟨t, i, j⟩, hl, g, -, k, hk, _, -, rfl⟩ := hp
      obtain ⟨rfl, -⟩ := Group.checkLinkTarget_eq_ok hk
      refine ⟨t, i, j, _, rfl, (linkList_seen hn hl).2, rfl, ?_⟩
      intro v hv
      cases hv with
      | push held => exact .push hl held k
  | linkListRemove h position =>
      simp only [plan, bind_eq_ok, pure_eq_ok] at hp
      obtain ⟨⟨t, i, j⟩, hl, targets, -, k, hk, _, -, rfl⟩ := hp
      obtain ⟨rfl, -⟩ := checkPosition_eq_ok.mp hk
      refine ⟨t, i, j, _, rfl, (linkList_seen hn hl).2, rfl, ?_⟩
      intro v hv
      cases hv with
      | erase held there => exact .erase hl held there
  | linkListClear h =>
      simp only [plan, bind_eq_ok, pure_eq_ok] at hp
      obtain ⟨⟨t, i, j⟩, hl, _, -, rfl⟩ := hp
      refine ⟨t, i, j, _, rfl, (linkList_seen hn hl).2, rfl, ?_⟩
      intro v hv
      cases hv with
      | clear held => exact .clear hl held
  | _ => cases hc

/-! What is read afterwards -/

variable {s' : Session} {t' : Table} {r : Call} {reply : Reply}

/-- A call that reads a cell as one of a type answers what it finds there. -/
theorem plan_of_reads {column row : Int} {type : ColumnType}
    (asked : r.cellAccess? = some ⟨h, column, row, type, none, false⟩)
    (reads : r.Reads h column row v reply) (hcell : s.cell h column row type = .ok (.ok v)) :
    s.plan r = .ok (.read (.ok reply)) := by
  cases reads with
  | absent type =>
      cases asked
      cases type <;> exact bind_eq_ok.mpr ⟨_, hcell, rfl⟩
  | scalar x =>
      cases asked
      rw [← Scalar.ofValue?_value x]
      exact bind_eq_ok.mpr ⟨_, hcell, rfl⟩
  | mixed | unlinked | link =>
      cases asked
      exact bind_eq_ok.mpr ⟨_, hcell, rfl⟩

/-- A cell is read as one of its column's type, and a mixed one as one of its value's. -/
theorem cell_of_typed {type : ColumnType} (hw : t.WellFormed) (found : s.table h = .ok t)
    (hv : t.cell? i j = some v)
    (typed : t.columnType i = .ok type ∨ t.columnType i = .ok .mixed ∧ v.type? = some type) :
    s.cell h i j type = .ok (.ok v) := by
  obtain ⟨hi, hj⟩ := hw.lt_of_cell? hv
  have hsuits : t.Suits i j type true := by
    cases typed with
    | inl hdeclared =>
        obtain ⟨c, hc, htype⟩ := Table.columnType_eq_ok.mp hdeclared
        exact ⟨c, hc, .inl htype⟩
    | inr hmixed =>
        obtain ⟨c, hc, htype⟩ := Table.columnType_eq_ok.mp hmixed.1
        exact ⟨c, hc, .inr ⟨rfl, htype, v, hv, hmixed.2⟩⟩
  have hall : ∀ check ∈ CellAccess.checks ⟨h, i, j, type, none, false⟩ s.context t, check.holds :=
    CellAccess.hold_iff.mpr ⟨⟨Int.natCast_nonneg i, Int.ofNat_lt.mpr hi⟩,
      ⟨Int.natCast_nonneg j, Int.ofNat_lt.mpr hj⟩, hsuits, (fun _ h => nomatch h),
      fun h => nomatch h⟩
  obtain ⟨w, hw', -, hcell⟩ := cell_of_checks hw found hall
  obtain rfl := Option.some.inj (hv.symm.trans hw')
  exact hcell

/-- In a session whose handles lead to the table with the new content, that content is shown. -/
theorem Shows.plan (hr : s.Shows t i j v r reply) (hw : t'.WellFormed)
    (same : t.SameBut t' i j) (hv : t'.cell? i j = some v)
    (table : ∀ h, s.table h = .ok t → s'.table h = .ok t')
    (row : ∀ h, s.row h = .ok (t, j) → s'.row h = .ok (t', j))
    (list : ∀ h, s.linkList h = .ok (t, i, j) → s'.linkList h = .ok (t', i, j)) :
    s'.plan r = .ok (.read (.ok reply)) := by
  have hget := hw.get_eq_ok.mpr hv
  cases hr with
  | cell asked found typed reads =>
      rw [← same.columnType] at typed
      exact plan_of_reads asked reads (cell_of_typed hw (table _ found) hv typed)
  | null found =>
      refine bind_eq_ok.mpr ⟨t', table _ found, ?_⟩
      refine bind_eq_ok.mpr ⟨_, Table.checkCell_of_cell hw hv, ?_⟩
      exact congrArg (fun x => Except.ok (Operation.read (x.map fun v => .flag v.isNull))) hget
  | row found =>
      refine bind_eq_ok.mpr ⟨_, row _ found, ?_⟩
      refine bind_eq_ok.mpr ⟨i, Table.checkColumn_eq_ok.mpr ⟨rfl, (hw.lt_of_cell? hv).1⟩, ?_⟩
      exact congrArg (fun x => Except.ok (Operation.read (x.map .value))) hget
  | size found held =>
      have htargets := hw.linkList_eq_ok.mpr (held ▸ hv)
      refine bind_eq_ok.mpr ⟨_, list _ found, ?_⟩
      exact congrArg
        (fun x => Except.ok (Operation.read (x.map fun targets => .number targets.length))) htargets
  | target found held there =>
      have htargets := hw.linkList_eq_ok.mpr (held ▸ hv)
      have hposition :=
        checkPosition_eq_ok.mpr ⟨rfl, (List.getElem?_eq_some_iff.mp there).1⟩
      refine bind_eq_ok.mpr ⟨_, list _ found, ?_⟩
      refine bind_eq_ok.mpr ⟨_, htargets, bind_eq_ok.mpr ⟨_, hposition, ?_⟩⟩
      rw [there]
      rfl

end Session

/-- What becomes of the workspace when a call writes a cell: the call is counted, and the cell gets
its content in the group that the session works on. -/
theorem Workspace.call_writes {w w' : Workspace} {c : Call} {out : Outcome}
    (hg : ∀ g, w.session.context.group = .ok g → g.WellFormed ∧ g.Numbered)
    (hc : c.writesCell = true) (h : call c w = .ok out w') : ∃ base g t i j v,
      w.session.context.state = .writing base g ∧ g.table? t.key = some t ∧
      (t.cell? i j).isSome ∧ (t.putCell i j v).WellFormed ∧ w.session.Overwrites t i j c v ∧
      out = ⟨.nothing, none⟩ ∧ w' = { w.counted with
        session := w.session.working base (g.put t.key (t.putCell i j v)) } := by
  obtain ⟨operation, hplan, hp⟩ := call_ok_iff.mp h
  obtain ⟨t, i, j, e, rfl, ⟨g, hgroup, hseen⟩, he, hputs⟩ :=
    Session.plan_writes (fun g h => (hg g h).2) hc hplan
  rw [Operation.perform, forward_bind, bind_run_ok] at hp
  obtain ⟨made, w₁, hact, hp⟩ := hp
  obtain ⟨x, hedit, rfl⟩ := act_run_ok.mp hact
  obtain ⟨base, g', hstate, hmade, rfl⟩ := Connection.edit_run_ok hedit
  obtain rfl := Except.ok.inj (hgroup.symm.trans (Context.group_of_writing hstate))
  obtain ⟨hw, hn⟩ := hg g hgroup
  obtain ⟨t', v, ht', hcell, hv, hresult⟩ := hw.edit_cell he hmade
  obtain rfl := Option.some.inj (hseen.symm.trans ht')
  have hw' := hw.edit (Session.plan_edit_safe hgroup hn hplan)
  rw [hresult] at hmade hp hw'
  obtain rfl := Except.ok.inj hmade
  obtain ⟨rfl, rfl⟩ := pure_run_ok.mp hp
  refine ⟨base, g, t, i, j, v, hstate, hseen, hcell, ?_, hputs v hv, rfl, rfl⟩
  exact hw'.tables t.key _ (by rw [Group.table?_put, if_pos rfl])

end SnapshotStore
