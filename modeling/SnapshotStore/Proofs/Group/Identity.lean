import SnapshotStore.Proofs.Group.Lineage

/-!
Identity. Tables, rows and the columns of a table at one schema epoch are known by numbers.
A number that a group has handed out means the same thing in every group it leads to, or
nothing at all.
-/

namespace SnapshotStore

/-- What a number can stand for. -/
inductive Subject
  | table (key : TableKey)
  | row (table : TableKey) (id : RowId)
  /-- The columns of a table for as long as it has the schema epoch. -/
  | columns (table : TableKey) (epoch : Nat)
  deriving DecidableEq

/-- What can be told of a subject that is there. -/
inductive Sight
  | table (name : String)
  | row
  | columns (columns : List Column)

namespace Group

def sight? (g : Group) : Subject → Option Sight
  | .table key => (g.table? key).map fun t => .table t.name
  | .row key id => (g.table? key).bind fun t => if id ∈ t.rowIds then some .row else none
  | .columns key epoch =>
    (g.table? key).bind fun t => if t.schemaEpoch = epoch then some (.columns t.columns) else none

/-- The number was handed out, or was never free to be handed out again. -/
def Minted (g : Group) : Subject → Prop
  | .table key => (key : Nat) ≤ g.lastKey
  | .row key id => (key : Nat) ≤ g.lastKey ∧ ∀ t, g.table? key = some t → id < t.nextRowId
  | .columns key epoch =>
    (key : Nat) ≤ g.lastKey ∧ ∀ t, g.table? key = some t → epoch ≤ t.schemaEpoch

variable {g g' : Group} {x : Subject} {i : Sight}

theorem sight?_table_eq_some {key : TableKey} :
    g.sight? (.table key) = some i ↔ ∃ t, g.table? key = some t ∧ .table t.name = i := by
  simp [sight?, Option.map_eq_some_iff]

theorem sight?_row_eq_some {key : TableKey} {id : RowId} :
    g.sight? (.row key id) = some i ↔
      ∃ t, g.table? key = some t ∧ id ∈ t.rowIds ∧ .row = i := by
  simp [sight?, Option.bind_eq_some_iff]

theorem sight?_columns_eq_some {key : TableKey} {epoch : Nat} :
    g.sight? (.columns key epoch) = some i ↔
      ∃ t, g.table? key = some t ∧ t.schemaEpoch = epoch ∧ .columns t.columns = i := by
  simp [sight?, Option.bind_eq_some_iff]

theorem sight?_table {key : TableKey} {t : Table} (ht : g.table? key = some t) :
    g.sight? (.table key) = some (.table t.name) := by
  simp [sight?, ht]

theorem sight?_columns {key : TableKey} {t : Table} (ht : g.table? key = some t) :
    g.sight? (.columns key t.schemaEpoch) = some (.columns t.columns) := by
  simp [sight?, ht]

theorem sight?_row {key : TableKey} {t : Table} {i : Nat} {id : RowId}
    (ht : g.table? key = some t) (hid : t.rowId? i = some id) :
    g.sight? (.row key id) = some .row :=
  sight?_row_eq_some.mpr ⟨t, ht, List.mem_of_getElem? hid, rfl⟩

theorem Numbered.minted (hg : g.Numbered) (h : g.sight? x = some i) : g.Minted x := by
  cases x with
  | table key =>
      obtain ⟨t, ht, -⟩ := sight?_table_eq_some.mp h
      exact (hg.tables key t ht).2
  | row key id =>
      obtain ⟨t, ht, hid, -⟩ := sight?_row_eq_some.mp h
      refine ⟨(hg.tables key t ht).2, fun u hu => ?_⟩
      obtain rfl := Option.some.inj (ht.symm.trans hu)
      exact (hg.tables key t ht).1.next id hid
  | columns key epoch =>
      obtain ⟨t, ht, rfl, -⟩ := sight?_columns_eq_some.mp h
      refine ⟨(hg.tables key t ht).2, fun u hu => ?_⟩
      obtain rfl := Option.some.inj (ht.symm.trans hu)
      exact Nat.le_refl _

namespace Leads

/-- A table of the later group under a key of the earlier one comes from there. -/
theorem table (h : g.Leads g') {key : Nat} (hk : key ≤ g.lastKey) {t' : Table}
    (ht : g'.table? key = some t') : ∃ t, g.table? key = some t ∧ t.Leads t' := by
  rcases h.tables key t' ht with ht | ⟨hlt, -, -⟩
  · exact ht
  · exact absurd hk (Nat.not_le_of_lt hlt)

theorem minted (h : g.Leads g') (hx : g.Minted x) : g'.Minted x := by
  cases x with
  | table key => exact Nat.le_trans hx h.lastKey
  | row key id =>
      refine ⟨Nat.le_trans hx.1 h.lastKey, fun t' ht' => ?_⟩
      obtain ⟨t, ht, hl⟩ := h.table hx.1 ht'
      exact Nat.lt_of_lt_of_le (hx.2 t ht) hl.next
  | columns key epoch =>
      refine ⟨Nat.le_trans hx.1 h.lastKey, fun t' ht' => ?_⟩
      obtain ⟨t, ht, hl⟩ := h.table hx.1 ht'
      exact Nat.le_trans (hx.2 t ht) hl.epoch

/-- What has an old number later was there before and looked the same. -/
theorem seen (h : g.Leads g') (hx : g.Minted x) (hi : g'.sight? x = some i) :
    g.sight? x = some i := by
  cases x with
  | table key =>
      obtain ⟨t', ht', rfl⟩ := sight?_table_eq_some.mp hi
      obtain ⟨t, ht, hl⟩ := h.table hx ht'
      exact sight?_table_eq_some.mpr ⟨t, ht, by rw [hl.name]⟩
  | row key id =>
      obtain ⟨t', ht', hid, rfl⟩ := sight?_row_eq_some.mp hi
      obtain ⟨t, ht, hl⟩ := h.table hx.1 ht'
      rcases hl.ids id hid with hid | hnew
      · exact sight?_row_eq_some.mpr ⟨t, ht, hid, rfl⟩
      · exact absurd (hx.2 t ht) (Nat.not_lt_of_le hnew.1)
  | columns key epoch =>
      obtain ⟨t', ht', he, rfl⟩ := sight?_columns_eq_some.mp hi
      obtain ⟨t, ht, hl⟩ := h.table hx.1 ht'
      have he' : t'.schemaEpoch = t.schemaEpoch :=
        Nat.le_antisymm (he ▸ hx.2 t ht) hl.epoch
      exact sight?_columns_eq_some.mpr ⟨t, ht, he'.symm.trans he, by rw [hl.columns he']⟩

end Leads
end Group
end SnapshotStore
