import SnapshotStore.Proofs.Group.Lineage
import SnapshotStore.Proofs.Outcome

/-!
Edits that are refused. They leave every table of the group as it is, though the one that was to
be written to is marked as written.
-/

namespace SnapshotStore

namespace Group

/-- The groups have the same tables under the same keys and names and hand out the same keys next.
The marks of the last write to each table may differ. -/
structure Alike (g g' : Group) : Prop where
  tables : ∀ k : Nat, g'.table? k = g.table? k
  names : g'.names = g.names
  lastKey : g'.lastKey = g.lastKey
  revision : g'.revision = g.revision

variable {g : Group} {key : TableKey} {t : Table} {err : Error}

theorem Alike.refl (g : Group) : g.Alike g := ⟨fun _ => rfl, rfl, rfl, rfl⟩

/-- To put a table in its own place marks it, and that is all. -/
theorem put_alike (ht : g.table? key = some t) : g.Alike (g.put key t) where
  tables k := by
    rw [table?_put]
    split
    next hk => exact hk ▸ ht.symm
    next => rfl
  names := rfl
  lastKey := rfl
  revision := rfl

theorem write_alike {α : Type} {f : Table → Except Error (α × Table)}
    (h : (g.write key f).1 = .error err) : g.Alike (g.write key f).2 := by
  unfold write at h ⊢
  cases ht : g.table? key with
  | none => exact .refl g
  | some t =>
      simp only [ht] at h ⊢
      cases hf : f t with
      | error e => exact put_alike ht
      | ok made => simp [hf] at h

theorem overwrite_alike {f : Table → Except Error Table}
    (h : (g.overwrite key f).1 = .error err) : g.Alike (g.overwrite key f).2 := write_alike h

theorem writeLink_alike {column target : Nat} {expected : ColumnType}
    {f : Table → Except Error Table}
    (h : (g.writeLink key column target expected f).1 = .error err) :
    g.Alike (g.writeLink key column target expected f).2 := by
  unfold writeLink at h ⊢
  split at h
  · exact .refl g
  · exact overwrite_alike h

theorem overwrite_refused {f : Table → Except Error Table} {g' : Group}
    (h : g.overwrite key f = (.error err, g')) : g.Alike g' := by
  have halike := overwrite_alike (congrArg Prod.fst h)
  rwa [h] at halike

/-- Links are looked after only once the row is gone. -/
theorem removeRow_alike {row : Nat} (h : (g.removeRow key row).1 = .error err) :
    g.Alike (g.removeRow key row).2 := by
  unfold removeRow at h ⊢
  split at h
  next he => exact overwrite_refused he
  next => simp at h

theorem clearTable_alike (h : (g.clearTable key).1 = .error err) :
    g.Alike (g.clearTable key).2 := by
  unfold clearTable at h ⊢
  split at h
  next he => exact overwrite_refused he
  next => simp at h

/-- A refused edit leaves the group alike. -/
theorem edit_alike {e : Edit} (h : (g.edit e).1 = .error err) : g.Alike (g.edit e).2 := by
  cases e with
  | addTable name =>
      simp only [edit] at h ⊢
      split at h
      · simp at h
      next he => exact .refl g
  | removeTable key =>
      simp only [edit] at h ⊢
      split at h
      · simp at h
      next he => exact .refl g
  | addColumn key c => exact write_alike (map_eq_error.mp h)
  | addRow key => exact write_alike (f := fun t => .ok t.addRow) (map_eq_error.mp h)
  | removeColumn key column => exact overwrite_alike (map_eq_error.mp h)
  | insertRow key row => exact overwrite_alike (map_eq_error.mp h)
  | removeRow key row => exact removeRow_alike (map_eq_error.mp h)
  | dropRow key row => exact overwrite_alike (map_eq_error.mp h)
  | clear key => exact clearTable_alike (map_eq_error.mp h)
  | dropRows key => exact overwrite_alike (f := fun t => .ok t.clear) (map_eq_error.mp h)
  | set key column row v => exact overwrite_alike (map_eq_error.mp h)
  | setLink key column row target => exact writeLink_alike (map_eq_error.mp h)
  | pushLink key column row target => exact writeLink_alike (map_eq_error.mp h)
  | eraseLink key column row position => exact overwrite_alike (map_eq_error.mp h)
  | clearLinks key column row => exact overwrite_alike (map_eq_error.mp h)

end Group
end SnapshotStore
