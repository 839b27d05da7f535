import SnapshotStore.Proofs.Group.WellFormed

/-!
Links as the rows of their target table move. A link is kept as a position, so the row that it
designates depends on where rows stand. When a row is removed, links follow the rows that move
up. When a row is inserted, links stay where they are and the rows after it move away from them.
-/

namespace SnapshotStore

/-- Links to the removed row go, and links to later rows follow them. -/
theorem Value.targets_afterRowRemoved (v : Value) (i : Nat) : (v.afterRowRemoved i).targets =
    (v.targets.filter (· ≠ i)).map fun row => if i < row then row - 1 else row := by
  cases v with
  | link row =>
      simp only [afterRowRemoved, targets]
      by_cases he : row = i
      · simp [he]
      · by_cases hlt : i < row <;> simp [he, hlt]
  | linkList rows => rfl
  | null | bool b | int n | float b | double b | string s | binary b | date d => rfl

/-- A cell, named by the identity of its row, which stays as rows move. -/
structure Cell where
  table : TableKey
  row : RowId
  column : Nat

namespace Table
variable {t : Table} {id : RowId} {c : Column} {v : Value} {column i p q : Nat}

/-- The row with the identity holds the value in the column. -/
def HasCell (t : Table) (id : RowId) (column : Nat) (c : Column) (v : Value) : Prop :=
  t.columns[column]? = some c ∧ ∃ p, t.rowId? p = some id ∧ t.cell? column p = some v

theorem HasCell.holds (h : t.HasCell id column c v) : t.Holds c v := by
  obtain ⟨hc, p, -, hv⟩ := h
  exact .of_cell? hc hv

theorem WellFormed.rowId?_of_lt (hw : t.WellFormed) (h : p < t.size) :
    ∃ id, t.rowId? p = some id :=
  ⟨_, List.getElem?_eq_getElem (hw.identified.symm ▸ h)⟩

theorem WellFormed.rowId?_lt (hw : t.WellFormed) (h : t.rowId? p = some id) :
    id < t.nextRowId :=
  hw.next id (List.mem_of_getElem? h)

/-- No row stands in two places. -/
theorem WellFormed.rowId?_injective (hw : t.WellFormed) (hp : t.rowId? p = some id)
    (hq : t.rowId? q = some id) : p = q := by
  have hlt := (List.getElem?_eq_some_iff.mp hp).1
  exact (List.getElem?_inj hlt hw.ids).mp (hp.trans hq.symm)

/-! A row comes in -/

/-- The table with a fresh row at the position. -/
def withRow (t : Table) (i : Nat) : Table :=
  { t with
    rows := t.rows.insertIdx i t.freshRow
    rowIds := t.rowIds.insertIdx i t.nextRowId
    nextRowId := t.nextRowId + 1 }

theorem WellFormed.rowId?_withRow (hw : t.WellFormed) (hi : i ≤ t.size) (p : Nat) :
    (t.withRow i).rowId? p =
      if p < i then t.rowId? p else if p = i then some t.nextRowId else t.rowId? (p - 1) := by
  have hlen : i ≤ t.rowIds.length := hw.identified.symm ▸ hi
  simp only [rowId?, withRow, List.getElem?_insertIdx]
  split
  · rfl
  · split
    next he => rw [if_pos (he ▸ hlen)]
    next => rfl

/-- The cells of the old rows move as their identities do. -/
theorem HasCell.withRow (h : t.HasCell id column c v) (i : Nat) :
    (t.withRow i).HasCell id column c v := by
  obtain ⟨hc, p, hid, hv⟩ := h
  refine ⟨hc, if p < i then p else p + 1, ?_, ?_⟩
  · rw [← hid]
    simp only [rowId?, Table.withRow, List.getElem?_insertIdx]
    split
    next => rfl
    next => rw [if_neg (by omega), if_neg (by omega), Nat.add_sub_cancel]
  · rw [← hv]
    simp only [cell?, Table.withRow, List.getElem?_insertIdx]
    split
    next => rfl
    next => rw [if_neg (by omega), if_neg (by omega), Nat.add_sub_cancel]

/-- What stands at a position after a row came in: the same row before the new one, the new row
at its position, and after it the row that stood one place before. -/
theorem WellFormed.designates_withRow (hw : t.WellFormed) (hi : i ≤ t.size)
    (hid : t.rowId? p = some id) :
    (t.withRow i).rowId? (if p < i then p else p + 1) = some id ∧
      ((t.withRow i).rowId? p = some id ↔ p < i) := by
  refine ⟨?_, ?_⟩
  · rw [hw.rowId?_withRow hi]
    by_cases hp : p < i
    · rw [if_pos hp, if_pos hp, hid]
    · rw [if_neg hp, if_neg (by omega), if_neg (by omega), Nat.add_sub_cancel, hid]
  · rw [hw.rowId?_withRow hi]
    split
    next hp => simp [hp, hid]
    next hp =>
      have hother : (if p = i then some t.nextRowId else t.rowId? (p - 1)) ≠ some id := by
        split
        next => exact fun he => Nat.lt_irrefl _ (Option.some.inj he ▸ hw.rowId?_lt hid)
        next hne =>
          intro he
          have := hw.rowId?_injective hid he
          omega
      simp [hp, hother]

/-! A row goes -/

/-- The table without the row at the position. -/
def withoutRow (t : Table) (i : Nat) : Table :=
  { t with rows := t.rows.eraseIdx i, rowIds := t.rowIds.eraseIdx i }

theorem rowId?_withoutRow (t : Table) (i p : Nat) :
    (t.withoutRow i).rowId? p = t.rowId? (if p < i then p else p + 1) := by
  simp only [rowId?, withoutRow, List.getElem?_eraseIdx]
  split <;> rfl

theorem cell?_withoutRow (t : Table) (i p : Nat) :
    (t.withoutRow i).cell? column p = t.cell? column (if p < i then p else p + 1) := by
  simp only [cell?, withoutRow, List.getElem?_eraseIdx]
  split <;> rfl

/-- What stood at a position other than the removed one stands where a link to it leads then. -/
theorem back_of_removed (h : p ≠ i) : (if (if i < p then p - 1 else p) < i
    then if i < p then p - 1 else p else (if i < p then p - 1 else p) + 1) = p := by
  split <;> split <;> omega

/-- The cells of the rows that are left move as their identities do. -/
theorem HasCell.withoutRow (h : t.HasCell id column c v) (hne : t.rowId? i ≠ some id) :
    (t.withoutRow i).HasCell id column c v := by
  obtain ⟨hc, p, hid, hv⟩ := h
  have hpi : p ≠ i := by
    rintro rfl
    exact hne hid
  refine ⟨hc, if i < p then p - 1 else p, ?_, ?_⟩
  · rw [rowId?_withoutRow, back_of_removed hpi, hid]
  · rw [cell?_withoutRow, back_of_removed hpi, hv]

theorem rowId?_mapLinks (t : Table) (target : TableKey) (f : Value → Value) (p : Nat) :
    (t.mapLinks target f).rowId? p = t.rowId? p := by
  rfl

theorem HasCell.mapLinks {target : TableKey} (h : t.HasCell id column c v)
    (hc : c.target? = some target) (f : Value → Value) :
    (t.mapLinks target f).HasCell id column c (f v) := by
  obtain ⟨hcolumn, p, hid, hcell⟩ := h
  obtain ⟨r, hr, hv⟩ := cell?_eq_some.mp hcell
  refine ⟨hcolumn, p, hid, ?_⟩
  simp [cell?, Table.mapLinks, List.getElem?_mapIdx, hr, hv, hcolumn, hc]

/-- The links that are left designate the rows that they designated before. -/
theorem WellFormed.designates_withoutRow (hw : t.WellFormed) (hid : t.rowId? i = some id)
    (positions : List Nat) :
    ((positions.filter (· ≠ i)).map fun p => if i < p then p - 1 else p).filterMap
        (t.withoutRow i).rowId? =
      (positions.filterMap t.rowId?).filter (· ≠ id) := by
  induction positions with
  | nil => rfl
  | cons p rest ih =>
      by_cases hp : p = i
      · subst hp
        rw [List.filterMap_cons_some hid]
        simpa using ih
      · have hmoved : (t.withoutRow i).rowId? (if i < p then p - 1 else p) = t.rowId? p := by
          rw [rowId?_withoutRow, back_of_removed hp]
        rw [List.filter_cons_of_pos (by simpa using hp), List.map_cons, List.filterMap_cons, hmoved,
          List.filterMap_cons, ih]
        cases hq : t.rowId? p with
        | none => rfl
        | some other =>
            have hne : other ≠ id := fun he => hp (hw.rowId?_injective (he ▸ hq) hid)
            simp [hne]

end Table

namespace Group
variable {g : Group} {key : TableKey} {t : Table} {x : Cell} {c : Column} {v : Value} {i : Nat}

/-- The group has the cell, with the value in it. -/
def HasCell (g : Group) (x : Cell) (c : Column) (v : Value) : Prop :=
  ∃ t, g.table? x.table = some t ∧ t.HasCell x.row x.column c v

/-- The identity of the row that stands at a position of a table. -/
def rowId? (g : Group) (key : TableKey) (p : Nat) : Option RowId :=
  (g.table? key).bind (·.rowId? p)

theorem rowId?_of_table? (ht : g.table? key = some t) (p : Nat) :
    g.rowId? key p = t.rowId? p := by
  rw [rowId?, ht, Option.bind_some]

theorem HasCell.put {t' : Table} (h : g.HasCell x c v) (ht : g.table? key = some t)
    (hcell : x.table = key → t.HasCell x.row x.column c v → t'.HasCell x.row x.column c v) :
    (g.put key t').HasCell x c v := by
  obtain ⟨u, hu, hx⟩ := h
  by_cases hk : x.table = key
  · obtain rfl := Option.some.inj (ht.symm.trans (hk ▸ hu))
    exact ⟨t', by rw [table?_put, if_pos hk], hcell hk hx⟩
  · exact ⟨u, by rw [table?_put, if_neg hk, hu], hx⟩

theorem WellFormed.links_lt (h : g.WellFormed) (hx : g.HasCell x c v)
    (hc : c.target? = some key) (ht : g.table? key = some t) {p : Nat} (hp : p ∈ v.targets) :
    p < t.size := by
  obtain ⟨u, hu, hcell⟩ := hx
  obtain ⟨into, w, hinto, hw, hlt⟩ := h.links x.table u c v hu hcell.holds p hp
  obtain rfl := Option.some.inj (hc.symm.trans hinto)
  exact Option.some.inj (ht.symm.trans hw) ▸ hlt

theorem edit_insertRow (ht : g.table? key = some t) (hi : i ≤ t.size) :
    g.edit (.insertRow key i) = (.ok none, g.put key (t.withRow i)) := by
  simp only [edit, edit.done, overwrite_of_ok (f := (·.insertRow i)) ht (if_pos hi)]
  rfl

theorem edit_removeRow (ht : g.table? key = some t) (hi : i < t.size) :
    g.edit (.removeRow key i) = (.ok none,
      (g.put key (t.withoutRow i)).mapLinks key (.afterRowRemoved i)) := by
  have hrow : t.row i = .ok t.rows[i] := Table.row_eq_ok.mpr (List.getElem?_eq_getElem hi)
  have hremove : t.removeRow i = .ok (t.withoutRow i) := by
    rw [Table.removeRow, hrow]
    rfl
  simp only [edit, edit.done, removeRow, overwrite_of_ok (f := (·.removeRow i)) ht hremove]
  rfl

/-- After a row is inserted every link into the table is at the position that it was at, and
designates the row that it designated just if that position is before the new row. -/
theorem WellFormed.links_insertRow (h : g.WellFormed) (ht : g.table? key = some t)
    (hi : i ≤ t.size) : ∃ g', g.edit (.insertRow key i) = (.ok none, g') ∧
      ∀ x c v, g.HasCell x c v → c.target? = some key → g'.HasCell x c v ∧
        ∀ p ∈ v.targets, ∃ id, g.rowId? key p = some id ∧
          g'.rowId? key (if p < i then p else p + 1) = some id ∧
          (g'.rowId? key p = some id ↔ p < i) ∧
          (p = i → g'.rowId? key p = some t.nextRowId) ∧
          (i < p → g'.rowId? key p = g.rowId? key (p - 1)) := by
  refine ⟨_, edit_insertRow ht hi, fun x c v hx hc => ⟨?_, fun p hp => ?_⟩⟩
  · exact hx.put ht fun _ hcell => hcell.withRow i
  · have hafter : (g.put key (t.withRow i)).table? key = some (t.withRow i) := by
      rw [table?_put, if_pos rfl]
    simp only [rowId?_of_table? ht, rowId?_of_table? hafter]
    have hw := h.tables key t ht
    obtain ⟨id, hid⟩ := hw.rowId?_of_lt (h.links_lt hx hc ht hp)
    obtain ⟨hmoved, hsame⟩ := hw.designates_withRow hi hid
    refine ⟨id, hid, hmoved, hsame, fun he => ?_, fun hlt => ?_⟩
    · rw [hw.rowId?_withRow hi, if_neg (by omega), if_pos he]
    · rw [hw.rowId?_withRow hi, if_neg (by omega), if_neg (by omega)]

/-- After a row is removed every link into the table designates the row that it designated,
except that the links to the removed row are gone. -/
theorem WellFormed.links_removeRow (h : g.WellFormed) (ht : g.table? key = some t)
    (hi : i < t.size) : ∃ g', g.edit (.removeRow key i) = (.ok none, g') ∧
      ∀ x c v, g.HasCell x c v → c.target? = some key →
        (x.table = key → g.rowId? key i ≠ some x.row) → ∃ v', g'.HasCell x c v' ∧
          v'.targets.filterMap (g'.rowId? key) =
            (v.targets.filterMap (g.rowId? key)).filter (some · ≠ g.rowId? key i) := by
  have hafter : ∀ p, ((g.put key (t.withoutRow i)).mapLinks key
      (.afterRowRemoved i)).rowId? key p = (t.withoutRow i).rowId? p := by
    intro p
    rw [rowId?, table?_mapLinks, table?_put, if_pos rfl, Option.map_some, Option.bind_some,
      Table.rowId?_mapLinks]
  refine ⟨_, edit_removeRow ht hi, fun x c v hx hc hother => ?_⟩
  obtain ⟨u, hu, hcell⟩ : HasCell (g.put key (t.withoutRow i)) x c v :=
    hx.put ht fun hk hcell => hcell.withoutRow (rowId?_of_table? ht i ▸ hother hk)
  refine ⟨v.afterRowRemoved i, ⟨_, ?_, hcell.mapLinks hc _⟩, ?_⟩
  · rw [table?_mapLinks, hu, Option.map_some]
  · obtain ⟨id, hid⟩ := (h.tables key t ht).rowId?_of_lt hi
    simp only [funext (rowId?_of_table? ht), funext hafter, Value.targets_afterRowRemoved, hid,
      ne_eq, Option.some.injEq]
    exact (h.tables key t ht).designates_withoutRow hid v.targets

end Group
end SnapshotStore
