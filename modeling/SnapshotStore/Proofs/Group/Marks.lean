import SnapshotStore.Group.Edit
import SnapshotStore.Proofs.NatMap
import SnapshotStore.Proofs.Outcome

/-!
Marks. An edit marks each table that it writes to with the revision of the group, also where the
write is refused and where the removal of rows reaches the links of other tables. A table without
the mark is the very table that was there when the revision began.
-/

namespace SnapshotStore
namespace Group
variable {g g' g'' : Group} {key : TableKey}

/-- Each table of the later group is marked with the revision or is there as it was before. -/
structure Marks (g g' : Group) : Prop where
  revision : g'.revision = g.revision
  entries : ∀ (k : Nat) e, g'.tables.get? k = some e →
    e.writtenIn = g.revision ∨ g.tables.get? k = some e

namespace Marks

theorem refl (g : Group) : g.Marks g := ⟨rfl, fun _ _ he => .inr he⟩

theorem trans (h : g.Marks g') (h' : g'.Marks g'') : g.Marks g'' where
  revision := h'.revision.trans h.revision
  entries k e he := by
    rcases h'.entries k e he with hmark | hkept
    · exact .inl (hmark.trans h.revision)
    · exact h.entries k e hkept

end Marks

/-! One edit -/

theorem put_marks (g : Group) (key : TableKey) (t : Table) : g.Marks (g.put key t) := by
  refine ⟨rfl, fun k e he => ?_⟩
  simp only [put, NatMap.get?_insert] at he
  split at he
  · exact .inl (congrArg Entry.writtenIn (Option.some.inj he)).symm
  · exact .inr he

/-- A refused write marks its table like any other. -/
theorem write_marks {α : Type} (g : Group) (key : TableKey)
    (f : Table → Except Error (α × Table)) : g.Marks (g.write key f).2 := by
  unfold write
  cases g.table? key with
  | none => exact .refl g
  | some t =>
      dsimp only
      cases f t with
      | error e => exact put_marks g key t
      | ok r => exact put_marks g key r.2

theorem overwrite_marks (g : Group) (key : TableKey) (f : Table → Except Error Table) :
    g.Marks (g.overwrite key f).2 :=
  write_marks g key _

theorem mapLinks_marks (g : Group) (target : TableKey) (f : Value → Value) :
    g.Marks (g.mapLinks target f) := by
  refine ⟨rfl, fun k e he => ?_⟩
  simp only [mapLinks, NatMap.get?_mapValues, Option.map_eq_some_iff] at he
  obtain ⟨before, hbefore, rfl⟩ := he
  by_cases hlinks : before.table.linksTo target = true
  · exact .inl (by rw [if_pos hlinks])
  · exact .inr (by rw [if_neg hlinks, hbefore])

theorem addTable_marks {name : String} (h : g.addTable name = .ok (key, g')) : g.Marks g' := by
  unfold addTable at h
  split at h
  · simp at h
  · split at h
    · simp at h
    · obtain ⟨-, rfl⟩ := Prod.mk.inj (Except.ok.inj h)
      have hput := put_marks { g with
        names := g.names.insert name (g.lastKey + 1)
        lastKey := g.lastKey + 1 } (g.lastKey + 1) (.empty (g.lastKey + 1) name)
      exact ⟨rfl, hput.entries⟩

theorem removeTable_marks (h : g.removeTable key = .ok g') : g.Marks g' := by
  simp only [removeTable, bind_eq_ok] at h
  obtain ⟨t, -, h⟩ := h
  split at h
  · simp at h
  · obtain rfl := pure_eq_ok.mp h
    refine ⟨rfl, fun k e he => .inr ?_⟩
    simp only [NatMap.get?_erase] at he
    split at he
    · simp at he
    · exact he

theorem removeRow_marks (g : Group) (key : TableKey) (row : Nat) :
    g.Marks (g.removeRow key row).2 := by
  have h := overwrite_marks g key (·.removeRow row)
  unfold removeRow
  split
  next hr => rwa [hr] at h
  next hr =>
    rw [hr] at h
    exact h.trans (mapLinks_marks ..)

theorem clearTable_marks (g : Group) (key : TableKey) : g.Marks (g.clearTable key).2 := by
  have h := overwrite_marks g key fun t => .ok t.clear
  unfold clearTable
  split
  next hr => rwa [hr] at h
  next hr =>
    rw [hr] at h
    exact h.trans (mapLinks_marks ..)

theorem writeLink_marks (g : Group) (key : TableKey) (column target : Nat) (expected : ColumnType)
    (f : Table → Except Error Table) : g.Marks (g.writeLink key column target expected f).2 := by
  unfold writeLink
  split
  · exact .refl g
  · exact overwrite_marks g key f

/-- There is no way around the mark. -/
theorem edit_marks (g : Group) (e : Edit) : g.Marks (g.edit e).2 := by
  cases e with
  | addTable name =>
      simp only [edit]
      split
      next h => exact addTable_marks h
      next => exact .refl g
  | removeTable key =>
      simp only [edit]
      split
      next h => exact removeTable_marks h
      next => exact .refl g
  | addColumn key column => exact write_marks g key (·.addColumn column)
  | addRow key => exact write_marks g key fun t => .ok t.addRow
  | removeRow key row => exact removeRow_marks g key row
  | clear key => exact clearTable_marks g key
  | setLink key column row target | pushLink key column row target =>
      exact writeLink_marks g key column target ..
  | removeColumn key column | insertRow key row | dropRow key row | dropRows key
  | set key column row value | eraseLink key column row position | clearLinks key column row =>
      exact overwrite_marks g key _

/-! Runs of edits -/

theorem editAll_marks (g : Group) (edits : List Edit) : g.Marks (g.editAll edits) := by
  induction edits generalizing g with
  | nil => exact .refl g
  | cons e edits ih => exact (edit_marks g e).trans (ih (g.edit e).2)

/-- No table is marked with a revision to come. -/
def Marked (g : Group) : Prop :=
  ∀ (k : Nat) e, g.tables.get? k = some e → (e.writtenIn : Nat) ≤ g.revision

theorem empty_marked : Group.empty.Marked := fun k e he => by
  simp [empty] at he

theorem Marked.marks (hg : g.Marked) (h : g.Marks g') : g'.Marked := by
  intro k e he
  rw [h.revision]
  rcases h.entries k e he with hmark | hkept
  · exact Nat.le_of_eq hmark
  · exact hg k e hkept

theorem Marked.revise (hg : g.Marked) {revision : Version} (h : (g.revision : Nat) ≤ revision) :
    { g with revision }.Marked :=
  fun k e he => Nat.le_trans (hg k e he) h

/-- An entry of before and one of a later revision with the same mark are one. -/
theorem Marked.same_entry {f : Group} (hf : f.Marked) {v : Version}
    (hv : (f.revision : Nat) < v) {edits : List Edit} {k : Nat} {e e' : Entry}
    (he : f.tables.get? k = some e)
    (he' : ({ f with revision := v }.editAll edits).tables.get? k = some e')
    (hmark : e'.writtenIn = e.writtenIn) : e' = e := by
  rcases (editAll_marks { f with revision := v } edits).entries k e' he' with hnew | hkept
  · have hold := hf k e he
    rw [← hmark, hnew] at hold
    exact absurd hold (Nat.not_le_of_lt hv)
  · exact Option.some.inj (hkept.symm.trans he)

end Group
end SnapshotStore
