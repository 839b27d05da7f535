import SnapshotStore.Proofs.Group.Lineage

/-!
Well-formed tables: columns with names of their own, rows with one identity each that no other
row has and, in every row, one cell for each column that its column takes. For each operation on
a table there is first what it does to the cells of a column and then that it keeps a table
well-formed.
-/

namespace SnapshotStore

namespace Value

/-- The rows that a cell points to. -/
def targets : Value → List Nat
  | link row => [row]
  | linkList rows => rows
  | _ => []

/-- The cell may stand in the column: it has the column's type or is null, and null only
where null may stand. -/
structure Suits (v : Value) (c : Column) : Prop where
  typed : v.fits c.type
  absent : v = null → c.nullable ∨ c.type = .link ∨ c.type = .table

variable {c : Column} {v : Value} {i row : Nat}

theorem link_fits {type : ColumnType} : (link row).fits type ↔ type = .link := by
  simp [fits, type?, ColumnType.isLinkLike, eq_comm]

theorem linkList_fits {type : ColumnType} {rows : List Nat} :
    (linkList rows).fits type ↔ type = .linkList := by
  simp [fits, type?, ColumnType.isLinkLike, eq_comm]

theorem initial_suits (c : Column) : (initial c.type c.nullable).Suits c := by
  obtain ⟨name, type, nullable, target?⟩ := c
  cases nullable <;> cases type <;> exact ⟨rfl, by simp [initial]⟩

theorem initial_targets (type : ColumnType) (nullable : Bool) :
    (initial type nullable).targets = [] := by
  cases nullable <;> cases type <;> rfl

theorem link_suits (h : c.type = .link) (row : Nat) : (link row).Suits c :=
  ⟨link_fits.mpr h, fun hn => nomatch hn⟩

theorem linkList_suits (h : c.type = .linkList) (rows : List Nat) : (linkList rows).Suits c :=
  ⟨linkList_fits.mpr h, fun hn => nomatch hn⟩

theorem null_suits (h : c.type = .link) : null.Suits c := ⟨rfl, fun _ => .inr (.inl h)⟩

/-- What stands in a column of links: null, a link or a list of links. -/
theorem Suits.linked (h : v.Suits c) (hc : c.type.isLinkLike) :
    v = Value.null ∨ (∃ row, v = link row ∧ c.type = .link) ∨
      ∃ rows, v = linkList rows ∧ c.type = .linkList := by
  have hf := h.typed
  cases v with
  | null => exact .inl rfl
  | link row => exact .inr (.inl ⟨row, rfl, link_fits.mp hf⟩)
  | linkList rows => exact .inr (.inr ⟨rows, rfl, linkList_fits.mp hf⟩)
  | bool b | int n | float b | double b | string s | binary b | date d =>
      cases ht : c.type <;> simp_all [fits, type?, ColumnType.isLinkLike]

/-- Only columns of links hold what points to rows. -/
theorem Suits.linkLike (h : v.Suits c) (hv : v.targets ≠ []) : c.type.isLinkLike := by
  cases v with
  | link row => rw [link_fits.mp h.typed]; rfl
  | linkList rows => rw [linkList_fits.mp h.typed]; rfl
  | null | bool b | int n | float b | double b | string s | binary b | date d =>
      exact absurd rfl hv

/-! Cells after rows of their target table went -/

theorem Suits.afterRowRemoved (h : v.Suits c) (hc : c.type.isLinkLike) (i : Nat) :
    (v.afterRowRemoved i).Suits c := by
  rcases h.linked hc with rfl | ⟨row, rfl, ht⟩ | ⟨rows, rfl, ht⟩
  · exact h
  · simp only [Value.afterRowRemoved]
    split
    · exact null_suits ht
    · split <;> exact link_suits ht _
  · exact linkList_suits ht _

theorem Suits.afterRowsCleared (h : v.Suits c) (hc : c.type.isLinkLike) :
    v.afterRowsCleared.Suits c := by
  rcases h.linked hc with rfl | ⟨row, rfl, ht⟩ | ⟨rows, rfl, ht⟩
  · exact h
  · exact null_suits ht
  · exact linkList_suits ht _

/-- Links follow the rows that move up, and none is left to the row that went. -/
theorem mem_targets_afterRowRemoved (h : row ∈ (v.afterRowRemoved i).targets) :
    ∃ old ∈ v.targets, old ≠ i ∧ row = if i < old then old - 1 else old := by
  cases v with
  | link old =>
      simp only [afterRowRemoved] at h
      split at h
      · simp [targets] at h
      next hne =>
        refine ⟨old, by simp [targets], hne, ?_⟩
        split at h
        next hlt => simpa [targets, hlt] using h
        next hlt => simpa [targets, hlt] using h
  | linkList rows =>
      simp only [afterRowRemoved, targets, List.mem_map, List.mem_filter, decide_eq_true_eq] at h
      obtain ⟨old, ⟨hold, hne⟩, rfl⟩ := h
      exact ⟨old, hold, hne, rfl⟩
  | null | bool b | int n | float b | double b | string s | binary b | date d =>
      simp [afterRowRemoved, targets] at h

theorem targets_afterRowsCleared (v : Value) : v.afterRowsCleared.targets = [] := by
  cases v <;> rfl

end Value

/-- Whether a value may be set in the column. -/
def Column.takes (c : Column) (v : Value) : Bool := (!v.isNull || c.nullable) && v.fits c.type

theorem Column.takes_iff {c : Column} {v : Value} : c.takes v = true ↔
    ¬(v.isNull && !c.nullable) = true ∧ ¬(!v.fits c.type) = true := by
  unfold takes
  cases v.isNull <;> cases c.nullable <;> cases v.fits c.type <;> decide

theorem Column.suits_of_takes {c : Column} {v : Value} (h : c.takes v = true) : v.Suits c := by
  simp only [takes, Bool.and_eq_true, Bool.or_eq_true, Bool.not_eq_true'] at h
  obtain ⟨hnull, hfits⟩ := h
  refine ⟨hfits, ?_⟩
  rintro rfl
  exact .inl (hnull.resolve_left Bool.true_eq_false.mp)

namespace Table

/-- The table holds the value somewhere in the column. -/
def Holds (t : Table) (c : Column) (v : Value) : Prop :=
  ∃ (j : Nat) (cells : List Value), t.columns[j]? = some c ∧ cells ∈ t.rows ∧ cells[j]? = some v

structure WellFormed (t : Table) : Prop where
  named : ∀ c ∈ t.columns, c.name ≠ ""
  distinct : (t.columns.map (·.name)).Nodup
  /-- The columns of links, and they only, say where the links go. -/
  linked : ∀ c ∈ t.columns, c.target?.isSome = c.type.isLinkLike
  width : ∀ r ∈ t.rows, r.length = t.columnCount
  cells : ∀ c v, t.Holds c v → v.Suits c
  /-- There is one identity for each row. -/
  identified : t.rowIds.length = t.rows.length
  ids : t.rowIds.Nodup
  next : ∀ id ∈ t.rowIds, id < t.nextRowId

variable {t t' : Table} {c d : Column} {v w : Value} {i : Nat} {rows : List (List Value)}
  {rowIds : List RowId}

theorem Holds.column (h : t.Holds c v) : c ∈ t.columns := by
  obtain ⟨j, r, hc, -, -⟩ := h
  exact List.mem_of_getElem? hc

/-- What a table holds after some of its rows went. -/
theorem Holds.of_rows (hsub : rows ⊆ t.rows) (h : Holds { t with rows, rowIds } c v) :
    t.Holds c v := by
  obtain ⟨j, r, hc, hr, hv⟩ := h
  exact ⟨j, r, hc, hsub hr, hv⟩

theorem cell?_eq_some {j k : Nat} : t.cell? j k = some v ↔
    ∃ r, t.rows[k]? = some r ∧ r[j]? = some v := by
  simp only [cell?, Option.bind_eq_some_iff]

theorem Holds.of_cell? {j k : Nat} (hc : t.columns[j]? = some c) (h : t.cell? j k = some v) :
    t.Holds c v := by
  obtain ⟨r, hr, hv⟩ := cell?_eq_some.mp h
  exact ⟨j, r, hc, List.mem_of_getElem? hr, hv⟩

theorem column_eq_ok {j : Nat} : t.column j = .ok c ↔ t.columns[j]? = some c := by
  unfold column
  cases t.columns[j]? <;> simp

theorem columnType_eq_ok {j : Nat} {type : ColumnType} :
    t.columnType j = .ok type ↔ ∃ c, t.columns[j]? = some c ∧ c.type = type := by
  simp only [columnType, map_eq_ok, column_eq_ok]

theorem row_eq_ok {j : Nat} {r : List Value} : t.row j = .ok r ↔ t.rows[j]? = some r := by
  unfold row
  cases t.rows[j]? <;> simp

/-! Cells that are there -/

section
variable {column row : Nat}

theorem column_of_lt (h : column < t.columnCount) : ∃ c, t.column column = .ok c :=
  ⟨_, column_eq_ok.mpr (List.getElem?_eq_getElem h)⟩

theorem row_of_lt (h : row < t.size) : ∃ r, t.row row = .ok r :=
  ⟨_, row_eq_ok.mpr (List.getElem?_eq_getElem h)⟩

theorem get_of_lt (hcolumn : column < t.columnCount) (hrow : row < t.size) :
    ∃ v, t.get column row = .ok v := by
  obtain ⟨c, hc⟩ := column_of_lt hcolumn
  obtain ⟨r, hr⟩ := row_of_lt hrow
  simp only [get, hc, hr]
  exact ⟨_, rfl⟩

theorem get_of_ge (hcolumn : column < t.columnCount) (hrow : t.size ≤ row) :
    t.get column row = .error (.rowOutOfRange (Error.signed row) t.size false) := by
  obtain ⟨c, hc⟩ := column_of_lt hcolumn
  have hr : t.rows[row]? = none := List.getElem?_eq_none hrow
  simp only [get, hc, Table.row, hr]
  rfl

theorem lt_of_get (h : t.get column row = .ok v) : column < t.columnCount ∧ row < t.size := by
  simp only [get, bind_eq_ok, column_eq_ok, row_eq_ok] at h
  obtain ⟨_, hc, _, hr, -⟩ := h
  exact ⟨(List.getElem?_eq_some_iff.mp hc).1, (List.getElem?_eq_some_iff.mp hr).1⟩

end

/-! The operations one by one -/

theorem empty_wellFormed (key : TableKey) (name : String) : (empty key name).WellFormed where
  named _ hc := nomatch hc
  distinct := .nil
  linked _ hc := nomatch hc
  width _ hr := nomatch hr
  cells _ _ h := nomatch h.column
  identified := rfl
  ids := .nil
  next _ hid := nomatch hid

namespace WellFormed

/-- The columns stay and the rows are a selection of those that were there. -/
theorem of_rows (h : t.WellFormed) (hrows : rows.Sublist t.rows) (hids : rowIds.Sublist t.rowIds)
    (identified : rowIds.length = rows.length) : WellFormed { t with rows, rowIds } where
  named := h.named
  distinct := h.distinct
  linked := h.linked
  width r hr := h.width r (hrows.mem hr)
  cells c v hv := h.cells c v (hv.of_rows hrows.subset)
  identified := identified
  ids := h.ids.sublist hids
  next id hid := h.next id (hids.mem hid)

/-- The columns stay and so do the rows, but for what their cells hold. -/
theorem of_cells (h : t.WellFormed) (size : rows.length = t.rows.length)
    (width : ∀ r ∈ rows, r.length = t.columnCount)
    (cells : ∀ c v, Holds { t with rows } c v → v.Suits c) : WellFormed { t with rows } where
  named := h.named
  distinct := h.distinct
  linked := h.linked
  width := width
  cells := cells
  identified := h.identified.trans size.symm
  ids := h.ids
  next := h.next

end WellFormed

theorem columnRefusal?_eq_none (h : t.columnRefusal? c = none) :
    c.name ≠ "" ∧ ∀ d ∈ t.columns, d.name ≠ c.name := by
  unfold columnRefusal? at h
  split at h
  · simp at h
  next hname =>
    split at h
    · simp at h
    next hindex =>
      refine ⟨fun he => hname (by simp [he]), fun d hd he => hindex ?_⟩
      rw [columnIndex?, List.findIdx?_isSome, List.any_eq_true]
      exact ⟨d, hd, decide_eq_true he⟩

theorem addColumn_eq_ok (h : t.addColumn c = .ok (i, t')) : t.columnRefusal? c = none ∧
    t' = { t with
      columns := t.columns ++ [c]
      rows := t.rows.map (· ++ [.initial c.type c.nullable])
      schemaEpoch := t.schemaEpoch + 1 } := by
  unfold addColumn at h
  split at h
  · simp at h
  next hr =>
    simp only [Except.ok.injEq, Prod.mk.injEq] at h
    exact ⟨hr, h.2.symm⟩

/-- The new column holds its initial value in every row. -/
theorem addColumn_holds (hw : t.WellFormed) (h : t.addColumn c = .ok (i, t'))
    (hv : t'.Holds d v) : t.Holds d v ∨ d = c ∧ v = .initial c.type c.nullable := by
  obtain ⟨-, rfl⟩ := addColumn_eq_ok h
  obtain ⟨j, r', hd, hr', hv⟩ := hv
  obtain ⟨r, hr, rfl⟩ := List.mem_map.mp hr'
  have hwidth := hw.width r hr
  rw [columnCount] at hwidth
  by_cases hj : j < t.columns.length
  · rw [List.getElem?_append_left hj] at hd
    rw [List.getElem?_append_left (hwidth ▸ hj)] at hv
    exact .inl ⟨j, r, hd, hr, hv⟩
  · rw [List.getElem?_append_right (Nat.le_of_not_lt hj)] at hd
    rw [List.getElem?_append_right (hwidth ▸ Nat.le_of_not_lt hj)] at hv
    exact .inr ⟨(List.mem_singleton.mp (List.mem_of_getElem? hd)),
      List.mem_singleton.mp (List.mem_of_getElem? hv)⟩

theorem WellFormed.addColumn (hw : t.WellFormed) (hc : c.target?.isSome = c.type.isLinkLike)
    (h : t.addColumn c = .ok (i, t')) : t'.WellFormed := by
  have hholds := fun d v => addColumn_holds (d := d) (v := v) hw h
  obtain ⟨hr, rfl⟩ := addColumn_eq_ok h
  obtain ⟨hname, hfresh⟩ := columnRefusal?_eq_none hr
  refine ⟨?_, ?_, ?_, ?_, ?_, ?_, hw.ids, hw.next⟩
  · intro d hd
    rcases List.mem_append.mp hd with hd | hd
    · exact hw.named d hd
    · exact List.mem_singleton.mp hd ▸ hname
  · simp only [List.map_append, List.map_cons, List.map_nil]
    refine List.nodup_append.mpr ⟨hw.distinct, by simp, ?_⟩
    rintro _ ha _ hb
    obtain ⟨d, hd, rfl⟩ := List.mem_map.mp ha
    exact List.mem_singleton.mp hb ▸ hfresh d hd
  · intro d hd
    rcases List.mem_append.mp hd with hd | hd
    · exact hw.linked d hd
    · exact List.mem_singleton.mp hd ▸ hc
  · intro r' hr'
    obtain ⟨r, hr, rfl⟩ := List.mem_map.mp hr'
    simpa [columnCount] using hw.width r hr
  · intro d v hv
    rcases hholds d v hv with hv | ⟨rfl, rfl⟩
    · exact hw.cells d v hv
    · exact Value.initial_suits d
  · simpa using hw.identified

theorem removeColumn_holds (h : t.removeColumn i = .ok t') (hv : t'.Holds d v) :
    t.Holds d v := by
  simp only [removeColumn, bind_eq_ok, pure_eq_ok] at h
  obtain ⟨c, -, rfl⟩ := h
  obtain ⟨j, r', hd, hr', hv⟩ := hv
  obtain ⟨r, hr, rfl⟩ := List.mem_map.mp hr'
  rw [List.getElem?_eraseIdx] at hd hv
  by_cases hj : j < i
  · rw [if_pos hj] at hd hv
    exact ⟨j, r, hd, hr, hv⟩
  · rw [if_neg hj] at hd hv
    exact ⟨j + 1, r, hd, hr, hv⟩

theorem WellFormed.removeColumn (hw : t.WellFormed) (h : t.removeColumn i = .ok t') :
    t'.WellFormed := by
  have hholds := fun d v => removeColumn_holds (d := d) (v := v) h
  simp only [Table.removeColumn, bind_eq_ok, pure_eq_ok, column_eq_ok] at h
  obtain ⟨c, hc, rfl⟩ := h
  have hsub := List.eraseIdx_sublist t.columns i
  have hi := (List.getElem?_eq_some_iff.mp hc).1
  refine ⟨fun d hd => hw.named d (hsub.mem hd), hw.distinct.sublist (hsub.map _),
    fun d hd => hw.linked d (hsub.mem hd), ?_, fun d v hv => hw.cells d v (hholds d v hv), ?_,
    hw.ids, hw.next⟩
  · intro r' hr'
    obtain ⟨r, hr, rfl⟩ := List.mem_map.mp hr'
    have hwidth := hw.width r hr
    rw [columnCount] at hwidth ⊢
    rw [List.length_eraseIdx_of_lt (hwidth ▸ hi), List.length_eraseIdx_of_lt hi, hwidth]
  · simpa using hw.identified

theorem freshRow_cell {j : Nat} (hc : t.columns[j]? = some c)
    (hv : t.freshRow[j]? = some v) : v = .initial c.type c.nullable := by
  simp only [freshRow, List.getElem?_map, hc, Option.map_some, Option.some.injEq] at hv
  exact hv.symm

/-- A fresh row holds initial values. -/
theorem fresh_holds {nextRowId : RowId} (hrows : ∀ r ∈ rows, r = t.freshRow ∨ r ∈ t.rows)
    (hv : Holds { t with rows, rowIds, nextRowId } d v) :
    t.Holds d v ∨ v = .initial d.type d.nullable := by
  obtain ⟨j, r, hd, hr, hv⟩ := hv
  rcases hrows r hr with rfl | hr
  · exact .inr (freshRow_cell hd hv)
  · exact .inl ⟨j, r, hd, hr, hv⟩

/-- Every row has one identity, no identity is there twice, and all were handed out. -/
structure Identified (t : Table) : Prop where
  counted : t.rowIds.length = t.rows.length
  ids : t.rowIds.Nodup
  next : ∀ id ∈ t.rowIds, id < t.nextRowId

theorem WellFormed.isIdentified (h : t.WellFormed) : t.Identified :=
  ⟨h.identified, h.ids, h.next⟩

/-- The next identity is free for a fresh row wherever it comes in. -/
theorem Identified.fresh (h : t.Identified) (hrows : rows.Perm (t.freshRow :: t.rows))
    (hids : rowIds.Perm (t.nextRowId :: t.rowIds)) :
    Identified { t with rows, rowIds, nextRowId := t.nextRowId + 1 } where
  counted := by
    rw [hrows.length_eq, hids.length_eq, List.length_cons, List.length_cons, h.counted]
  ids := hids.nodup_iff.mpr
    (List.nodup_cons.mpr ⟨fun hid => Nat.lt_irrefl _ (h.next _ hid), h.ids⟩)
  next id hid := by
    rcases List.mem_cons.mp (hids.mem_iff.mp hid) with rfl | hid
    · exact Nat.lt_succ_self _
    · exact Nat.lt_succ_of_lt (h.next id hid)

theorem WellFormed.fresh (hw : t.WellFormed) (hrows : rows.Perm (t.freshRow :: t.rows))
    (hids : rowIds.Perm (t.nextRowId :: t.rowIds)) :
    WellFormed { t with rows, rowIds, nextRowId := t.nextRowId + 1 } := by
  have hmem : ∀ r ∈ rows, r = t.freshRow ∨ r ∈ t.rows := fun r hr =>
    List.mem_cons.mp (hrows.mem_iff.mp hr)
  have hfresh := hw.isIdentified.fresh hrows hids
  refine ⟨hw.named, hw.distinct, hw.linked, ?_, ?_, hfresh.counted, hfresh.ids, hfresh.next⟩
  · intro r hr
    rcases hmem r hr with rfl | hr
    · simp [freshRow, columnCount]
    · exact hw.width r hr
  · intro d v hv
    rcases fresh_holds hmem hv with hv | rfl
    · exact hw.cells d v hv
    · exact Value.initial_suits d

theorem insertRow_eq_ok (h : t.insertRow i = .ok t') : i ≤ t.rows.length ∧
    t' = { t with
      rows := t.rows.insertIdx i t.freshRow
      rowIds := t.rowIds.insertIdx i t.nextRowId
      nextRowId := t.nextRowId + 1 } := by
  unfold insertRow at h
  split at h
  next hi => exact ⟨hi, (Except.ok.inj h).symm⟩
  next => simp at h

theorem WellFormed.insertRow (hw : t.WellFormed) (h : t.insertRow i = .ok t') :
    t'.WellFormed := by
  obtain ⟨hi, rfl⟩ := insertRow_eq_ok h
  exact hw.fresh (List.perm_insertIdx _ _ hi) (List.perm_insertIdx _ _ (hw.identified ▸ hi))

theorem WellFormed.addRow (hw : t.WellFormed) : t.addRow.2.WellFormed :=
  hw.fresh (List.perm_append_singleton _ _) (List.perm_append_singleton _ _)

theorem removeRow_eq_ok (h : t.removeRow i = .ok t') : i < t.rows.length ∧
    t' = { t with rows := t.rows.eraseIdx i, rowIds := t.rowIds.eraseIdx i } := by
  simp only [removeRow, bind_eq_ok, pure_eq_ok, row_eq_ok] at h
  obtain ⟨r, hr, rfl⟩ := h
  exact ⟨(List.getElem?_eq_some_iff.mp hr).1, rfl⟩

theorem WellFormed.removeRow (hw : t.WellFormed) (h : t.removeRow i = .ok t') :
    t'.WellFormed := by
  obtain ⟨hi, rfl⟩ := removeRow_eq_ok h
  refine hw.of_rows (List.eraseIdx_sublist _ _) (List.eraseIdx_sublist _ _) ?_
  rw [List.length_eraseIdx_of_lt hi, List.length_eraseIdx_of_lt (hw.identified ▸ hi),
    hw.identified]

theorem WellFormed.clear (hw : t.WellFormed) : t.clear.WellFormed :=
  hw.of_rows (List.nil_sublist _) (List.nil_sublist _) rfl

theorem putCell_holds {j k : Nat} (hv : (t.putCell j k w).Holds d v) :
    t.Holds d v ∨ t.columns[j]? = some d ∧ v = w := by
  obtain ⟨l, r', hd, hr', hv⟩ := hv
  obtain ⟨m, hm, rfl⟩ := List.mem_iff_getElem.mp hr'
  have hm' : m < t.rows.length := by simpa [putCell] using hm
  have hr := List.getElem_mem hm'
  simp only [putCell, List.getElem_modify] at hv
  split at hv
  · simp only [List.getElem?_set] at hv
    split at hv
    next hl =>
      split at hv
      · exact .inr ⟨hl ▸ hd, (Option.some.inj hv).symm⟩
      · simp at hv
    next => exact .inl ⟨l, _, hd, hr, hv⟩
  · exact .inl ⟨l, _, hd, hr, hv⟩

theorem WellFormed.putCell (hw : t.WellFormed) {j k : Nat} (hc : t.columns[j]? = some c)
    (hv : v.Suits c) : (t.putCell j k v).WellFormed := by
  refine hw.of_cells (List.length_modify ..) ?_ fun d w hd => ?_
  · intro r' hr'
    obtain ⟨m, hm, rfl⟩ := List.mem_iff_getElem.mp hr'
    have hm' : m < t.rows.length := by simpa using hm
    have hwidth := hw.width _ (List.getElem_mem hm')
    rw [List.getElem_modify]
    split <;> simpa using hwidth
  · rcases putCell_holds (t := t) hd with hold | ⟨hcolumn, rfl⟩
    · exact hw.cells d w hold
    · exact Option.some.inj (hc.symm.trans hcolumn) ▸ hv

theorem set_eq_ok_iff {j k : Nat} : t.set j k v = .ok t' ↔ ∃ c r, t.columns[j]? = some c ∧
    t.rows[k]? = some r ∧ c.takes v = true ∧ t' = t.putCell j k v := by
  simp only [set, bind_eq_ok, column_eq_ok, row_eq_ok, Column.takes_iff]
  constructor
  · rintro ⟨c, hc, r, hr, h⟩
    split at h
    · exact nomatch h
    next hnull =>
      split at h
      · exact nomatch h
      next hfits => exact ⟨c, r, hc, hr, ⟨hnull, hfits⟩, (pure_eq_ok.mp h).symm⟩
  · rintro ⟨c, r, hc, hr, ⟨hnull, hfits⟩, rfl⟩
    refine ⟨c, hc, r, hr, ?_⟩
    rw [if_neg hnull, if_neg hfits]
    rfl

theorem set_eq_ok {j k : Nat} (h : t.set j k v = .ok t') :
    ∃ c, t.columns[j]? = some c ∧ v.Suits c ∧ t' = t.putCell j k v := by
  obtain ⟨c, _, hc, -, hv, rfl⟩ := set_eq_ok_iff.mp h
  exact ⟨c, hc, Column.suits_of_takes hv, rfl⟩

/-- What is read as a list of links is the cell itself. -/
theorem linkList_there {j k : Nat} {rows : List Nat} (h : t.linkList j k = .ok rows) :
    ∃ c, t.columns[j]? = some c ∧ t.cell? j k = some (.linkList rows) := by
  simp only [linkList, get, bind_eq_ok, pure_eq_ok, column_eq_ok, row_eq_ok] at h
  obtain ⟨cell, ⟨c, hc, r, hr, hcell⟩, h⟩ := h
  split at h
  next rows' =>
    obtain rfl := pure_eq_ok.mp h
    refine ⟨c, hc, cell?_eq_some.mpr ⟨r, hr, ?_⟩⟩
    cases hj : r[j]? with
    | none => simp [hj] at hcell
    | some v => simpa [hj] using hcell
  next => simp at h

/-- A list of links that was checked has not changed when it is to be written to. -/
theorem linksToWrite_eq (t : Table) (j k : Nat) : t.linksToWrite j k = t.linkList j k := by
  unfold linksToWrite
  cases h : t.linkList j k with
  | error e => rfl
  | ok rows =>
      obtain ⟨c, -, hcell⟩ := linkList_there h
      simp only [hcell]
      rfl

/-- A list of links that can be read is in a column of such lists. -/
theorem linkList_eq_ok {j k : Nat} {rows : List Nat} (hw : t.WellFormed)
    (h : t.linkList j k = .ok rows) : ∃ c, t.columns[j]? = some c ∧ c.type = .linkList ∧
      t.Holds c (.linkList rows) := by
  obtain ⟨c, hc, hcell⟩ := linkList_there h
  have hholds : t.Holds c (.linkList rows) := .of_cell? hc hcell
  exact ⟨c, hc, Value.linkList_fits.mp (hw.cells c _ hholds).typed, hholds⟩

/-! Links into a table -/

theorem mapLinks_holds {target : TableKey} {f : Value → Value}
    (hv : (t.mapLinks target f).Holds c v) :
    ∃ w, t.Holds c w ∧ v = if c.target? = some target then f w else w := by
  obtain ⟨j, r', hc, hr', hv⟩ := hv
  obtain ⟨r, hr, rfl⟩ := List.mem_map.mp hr'
  simp only [List.getElem?_mapIdx, Option.map_eq_some_iff] at hv
  obtain ⟨w, hw, rfl⟩ := hv
  change t.columns[j]? = some c at hc
  refine ⟨w, ⟨j, r, hc, hr, hw⟩, ?_⟩
  simp only [hc, Option.any_some, decide_eq_true_eq]

theorem mapLinks_of_not_linksTo {target : TableKey} (f : Value → Value)
    (h : t.linksTo target = false) : t.mapLinks target f = t := by
  have hnone : ∀ j : Nat, (t.columns[j]?.any (·.target? = some target)) = false := by
    intro j
    cases hc : t.columns[j]? with
    | none => rfl
    | some c => simpa using List.any_eq_false.mp h c (List.mem_of_getElem? hc)
  have hcells : ∀ cells : List Value, cells.mapIdx (fun _ v => v) = cells := fun cells =>
    List.ext_getElem (by simp) (by simp)
  simp only [mapLinks, hnone, Bool.false_eq_true, if_false, hcells, List.map_id']

theorem WellFormed.mapLinks (hw : t.WellFormed) (target : TableKey) {f : Value → Value}
    (hf : ∀ c v, c.type.isLinkLike → v.Suits c → (f v).Suits c) :
    (t.mapLinks target f).WellFormed := by
  refine hw.of_cells (List.length_map _) ?_ fun c v hv => ?_
  · intro r' hr'
    obtain ⟨r, hr, rfl⟩ := List.mem_map.mp hr'
    simpa using hw.width r hr
  · obtain ⟨w, hold, rfl⟩ := mapLinks_holds hv
    have hsuits := hw.cells c w hold
    split
    next hc => exact hf c w (hw.linked c hold.column ▸ by simp [hc]) hsuits
    next => exact hsuits

end Table
end SnapshotStore
