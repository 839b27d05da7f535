import SnapshotStore.Proofs.Group.Bounds
import SnapshotStore.Proofs.Table.Change

/-!
Writing a cell. Whatever an edit of a cell is, it puts one value into that cell and leaves the rest
of the group as it is.
-/

namespace SnapshotStore

namespace Table
variable {t : Table} {column row : Nat} {v : Value}

/-- The tables are the same but for one cell. -/
structure SameBut (t t' : Table) (column row : Nat) : Prop where
  key : t'.key = t.key
  name : t'.name = t.name
  columns : t'.columns = t.columns
  ids : t'.rowIds = t.rowIds
  cells : ∀ i j, (i, j) ≠ (column, row) → t'.cell? i j = t.cell? i j
  nextRowId : t'.nextRowId = t.nextRowId
  schemaEpoch : t'.schemaEpoch = t.schemaEpoch

theorem cell?_putCell (t : Table) (column row : Nat) (v : Value) (i j : Nat) :
    (t.putCell column row v).cell? i j =
      if (i, j) = (column, row) then (t.cell? i j).map fun _ => v else t.cell? i j := by
  simp only [cell?, putCell, List.getElem?_modify, Prod.mk.injEq]
  cases t.rows[j]? with
  | none => simp
  | some r =>
      by_cases hj : j = row
      · by_cases hi : i = column
        · simp only [hi, hj, Option.bind_some, and_self, if_true]
          exact List.getElem?_set_self'
        · simp [hi, hj, Ne.symm hi]
      · simp [hj, Ne.symm hj]

theorem putCell_sameBut (t : Table) (column row : Nat) (v : Value) :
    t.SameBut (t.putCell column row v) column row where
  key := rfl
  name := rfl
  columns := rfl
  ids := rfl
  cells i j h := by rw [cell?_putCell, if_neg h]
  nextRowId := rfl
  schemaEpoch := rfl

theorem cell?_putCell_self (h : (t.cell? column row).isSome) :
    (t.putCell column row v).cell? column row = some v := by
  obtain ⟨old, hold⟩ := Option.isSome_iff_exists.mp h
  rw [cell?_putCell, if_pos rfl, hold]
  rfl

end Table

/-! Edits of one cell -/

/-- The cell that an edit is about, if it is about one: its table, its column and its row. -/
def Edit.cell? : Edit → Option (TableKey × Nat × Nat)
  | set key column row _ | setLink key column row _ | pushLink key column row _
  | eraseLink key column row _ | clearLinks key column row => some (key, column, row)
  | _ => none

/-- What an edit of a cell of the table puts into it. -/
inductive Edit.Puts (key : TableKey) (t : Table) (column row : Nat) : Edit → Value → Prop
  | set (v : Value) : Puts key t column row (.set key column row v) v
  | link (target : Nat) : Puts key t column row (.setLink key column row target) (.link target)
  | push {targets : List Nat} (held : t.cell? column row = some (.linkList targets))
      (target : Nat) :
      Puts key t column row (.pushLink key column row target) (.linkList (targets ++ [target]))
  | erase {targets : List Nat} (held : t.cell? column row = some (.linkList targets))
      {position : Nat} (there : position < targets.length) :
      Puts key t column row (.eraseLink key column row position)
        (.linkList (targets.eraseIdx position))
  | clear {targets : List Nat} (held : t.cell? column row = some (.linkList targets)) :
      Puts key t column row (.clearLinks key column row) (.linkList [])

namespace Group
variable {g : Group} {key : TableKey} {column row : Nat} {e : Edit} {made : Option Nat}

/-- The groups are the same but for one table. -/
structure SameBut (g g' : Group) (key : TableKey) : Prop where
  tables : ∀ k, k ≠ key → g'.table? k = g.table? k
  names : g'.names = g.names
  lastKey : g'.lastKey = g.lastKey
  revision : g'.revision = g.revision

theorem put_sameBut (g : Group) (key : TableKey) (t : Table) : g.SameBut (g.put key t) key where
  tables k hk := by rw [table?_put, if_neg hk]
  names := rfl
  lastKey := rfl
  revision := rfl

theorem writeLink_eq_overwrite {target : Nat} {expected : ColumnType}
    {f : Table → Except Error Table} (h : (g.writeLink key column target expected f).1 = .ok ()) :
    g.writeLink key column target expected f = g.overwrite key f := by
  unfold writeLink at h ⊢
  split at h
  · cases h
  next => rfl

/-- An edit of a cell puts its value there. -/
theorem WellFormed.edit_cell (hg : g.WellFormed) (he : e.cell? = some (key, column, row))
    (h : (g.edit e).1 = .ok made) : ∃ t v, g.table? key = some t ∧ (t.cell? column row).isSome ∧
      e.Puts key t column row v ∧ g.edit e = (.ok none, g.put key (t.putCell column row v)) := by
  have hdone {f : Table → Except Error Table} {t : Table} {v : Value} (ht : g.table? key = some t)
      (hf : f t = .ok (t.putCell column row v)) :
      edit.done (g.overwrite key f) = (.ok none, g.put key (t.putCell column row v)) := by
    rw [overwrite_of_ok ht hf]
    rfl
  cases e with
  | set key column row v =>
      cases he
      obtain ⟨t, t', ht, hs⟩ := overwrite_ok (f := (·.set column row v)) (edit_done h)
      have hthere := cell?_of_set (hg.tables key t ht) hs
      obtain ⟨c, -, -, rfl⟩ := Table.set_eq_ok hs
      exact ⟨t, v, ht, hthere, .set v, hdone (f := (·.set column row v)) ht hs⟩
  | setLink key column row target =>
      cases he
      obtain ⟨t, t', ht, hs, -⟩ := writeLink_ok (f := (·.set column row (.link target)))
        (edit_done h)
      have hthere := cell?_of_set (hg.tables key t ht) hs
      obtain ⟨c, -, -, rfl⟩ := Table.set_eq_ok hs
      refine ⟨t, _, ht, hthere, .link target, ?_⟩
      rw [Group.edit, Group.setLink, writeLink_eq_overwrite (edit_done h)]
      exact hdone (f := (·.set column row (.link target))) ht hs
  | pushLink key column row target =>
      cases he
      obtain ⟨t, t', ht, hs, -⟩ := writeLink_ok (f := (·.pushLink column row target)) (edit_done h)
      obtain ⟨targets, htargets, hput⟩ := bind_eq_ok.mp hs
      obtain rfl := pure_eq_ok.mp hput
      have hheld := (hg.tables key t ht).linkList_eq_ok.mp (t.linksToWrite_eq .. ▸ htargets)
      refine ⟨t, _, ht, Option.isSome_of_eq_some hheld, .push hheld target, ?_⟩
      rw [Group.edit, Group.pushLink, writeLink_eq_overwrite (edit_done h)]
      exact hdone (f := (·.pushLink column row target)) ht hs
  | eraseLink key column row position =>
      cases he
      obtain ⟨t, t', ht, hs⟩ := overwrite_ok (f := (·.eraseLink column row position)) (edit_done h)
      obtain ⟨targets, htargets, hput⟩ := bind_eq_ok.mp hs
      have hheld := (hg.tables key t ht).linkList_eq_ok.mp (t.linksToWrite_eq .. ▸ htargets)
      split at hput
      · cases hput
      next hlt =>
        obtain rfl := pure_eq_ok.mp hput
        exact ⟨t, _, ht, Option.isSome_of_eq_some hheld, .erase hheld (Nat.lt_of_not_le hlt),
          hdone (f := (·.eraseLink column row position)) ht hs⟩
  | clearLinks key column row =>
      cases he
      obtain ⟨t, t', ht, hs⟩ := overwrite_ok (f := (·.clearLinks column row)) (edit_done h)
      obtain ⟨targets, htargets, hput⟩ := bind_eq_ok.mp hs
      obtain rfl := pure_eq_ok.mp hput
      have hheld := (hg.tables key t ht).linkList_eq_ok.mp (t.linksToWrite_eq .. ▸ htargets)
      exact ⟨t, _, ht, Option.isSome_of_eq_some hheld, .clear hheld,
        hdone (f := (·.clearLinks column row)) ht hs⟩
  | _ => cases he

end Group
end SnapshotStore
