import SnapshotStore.Proofs.Group.Columns

/-!
Edits that are accepted. A group takes an edit whose row and column are there, whose value is of
the column's kind and whose link leads to a row of the right table; and what that comes to for a
null is a matter of the column alone.
-/

namespace SnapshotStore

namespace Table
variable {t : Table} {c : Column} {column row : Nat} {v : Value}

/-- A value that its column takes. -/
def Takes (t : Table) (column : Nat) (v : Value) : Prop :=
  ∃ c, t.columns[column]? = some c ∧ v.fits c.type = true ∧ (v = .null → c.nullable = true)

theorem set_of_takes (hv : t.Takes column v) (hrow : row < t.size) :
    t.set column row v = .ok (t.putCell column row v) := by
  obtain ⟨c, hc, hfits, hnull⟩ := hv
  obtain ⟨r, hr⟩ := row_of_lt hrow
  have hnullable : (v.isNull && !c.nullable) = false := by
    cases v with
    | null => simp [hnull rfl]
    | _ => rfl
  simp [set, column_eq_ok.mpr hc, hr, hnullable, hfits, bind, Except.bind, pure, Except.pure]

/-- A value that its column does not take is refused. -/
theorem set_of_not_takes (hv : ¬t.Takes column v) (row : Nat) :
    ∃ e, t.set column row v = .error e := by
  cases hs : t.set column row v with
  | error e => exact ⟨e, rfl⟩
  | ok t' =>
      simp only [set, bind_eq_ok, column_eq_ok] at hs
      obtain ⟨c, hc, r, -, hs⟩ := hs
      split at hs
      · simp at hs
      next hnull =>
        split at hs
        · simp at hs
        next hfits =>
          refine absurd ⟨c, hc, by simpa using hfits, ?_⟩ hv
          rintro rfl
          simpa [Value.isNull] using hnull

theorem takes_of_type {type : ColumnType} (htype : t.columnType column = .ok type)
    (hfits : v.fits type = true) (hnull : v ≠ .null) : t.Takes column v := by
  obtain ⟨c, hc, rfl⟩ := columnType_eq_ok.mp htype
  exact ⟨c, hc, hfits, fun hv => absurd hv hnull⟩

theorem takes_null_of_link (hc : t.AllColumns Column.Conforms)
    (htype : t.columnType column = .ok .link) : t.Takes column .null := by
  obtain ⟨c, hcolumn, hlink⟩ := columnType_eq_ok.mp htype
  refine ⟨c, hcolumn, rfl, fun _ => ?_⟩
  rw [hc c (List.mem_of_getElem? hcolumn) (hlink ▸ rfl), hlink]
  rfl

/-- A conforming column takes null where the check for null lets it through. -/
theorem takes_null (hc : t.AllColumns Column.Conforms)
    (h : t.checkNullable column = .ok ()) : t.Takes column .null := by
  simp only [checkNullable, bind_eq_ok, column_eq_ok] at h
  obtain ⟨c, hcolumn, h⟩ := h
  split at h
  next hlink => exact takes_null_of_link hc (columnType_eq_ok.mpr ⟨c, hcolumn, hlink⟩)
  next =>
    split at h
    · simp at h
    · split at h
      · simp at h
      next hnullable => exact ⟨c, hcolumn, rfl, fun _ => by simpa using hnullable⟩

/-- A conforming column takes what passes the check for values. -/
theorem takes_of_checkValue (hc : t.AllColumns Column.Conforms)
    (h : t.checkValue column v = .ok ()) : t.Takes column v := by
  unfold checkValue at h
  split at h
  next hnull =>
    cases v with
    | null => exact takes_null hc h
    | _ => simp [Value.isNull] at hnull
  next hnull =>
    simp only [bind_eq_ok] at h
    obtain ⟨type, htype, h⟩ := h
    split at h
    · simp at h
    next hfits => exact takes_of_type htype (by simpa using hfits) fun hv => hnull (hv ▸ rfl)

/-- In a column of lists, every cell of a row that is there is a list. -/
theorem WellFormed.linkList_of_type (hw : t.WellFormed) (hc : t.AllColumns Column.Conforms)
    (htype : t.columnType column = .ok .linkList) (hrow : row < t.size) :
    ∃ rows, t.linkList column row = .ok rows := by
  obtain ⟨c, hcolumn, hlist⟩ := columnType_eq_ok.mp htype
  have hmem := List.mem_of_getElem? hcolumn
  have hlinked : c.type.isLinkLike = true := hlist ▸ rfl
  obtain ⟨v, hv⟩ := Option.isSome_iff_exists.mp
    (hw.cell?_isSome (List.getElem?_eq_some_iff.mp hcolumn).1 hrow)
  have hsuits := hw.cells c v (.of_cell? hcolumn hv)
  have hrefuses : c.nullable = false := by
    rw [hc c hmem hlinked, hlist]
    rfl
  rcases hsuits.linked hlinked with rfl | ⟨target, rfl, htype⟩ | ⟨rows, rfl, -⟩
  · rcases hsuits.absent rfl with hnull | htype | htype
    · exact absurd (hrefuses.symm.trans hnull) Bool.false_ne_true
    · exact nomatch hlist.symm.trans htype
    · exact nomatch hlist.symm.trans htype
  · exact nomatch hlist.symm.trans htype
  · exact ⟨rows, hw.linkList_eq_ok.mpr hv⟩

/-- Only a column of lists has lists of links to read. -/
theorem WellFormed.linkList_of_other (hw : t.WellFormed)
    (htype : t.columnType column ≠ .ok .linkList) (row : Nat) :
    ∃ e, t.linkList column row = .error e := by
  cases hl : t.linkList column row with
  | error e => exact ⟨e, rfl⟩
  | ok rows =>
      obtain ⟨c, hc, hlist, -⟩ := Table.linkList_eq_ok hw hl
      exact absurd (columnType_eq_ok.mpr ⟨c, hc, hlist⟩) htype

end Table

namespace Group
variable {g : Group} {t t' : Table} {key : TableKey} {column row target : Nat}

/-- The edit is not refused. -/
def Accepts (g : Group) (e : Edit) : Prop := ∃ made, (g.edit e).1 = .ok made

/-- The edit is refused. -/
def Refuses (g : Group) (e : Edit) : Prop := ∃ err, (g.edit e).1 = .error err

theorem edit_done_of_ok {r : Except Error Unit × Group} (h : r.1 = .ok ()) :
    ∃ made, (edit.done r).1 = .ok made := ⟨none, map_eq_ok.mpr ⟨(), h, rfl⟩⟩

theorem edit_done_of_error {r : Except Error Unit × Group} {e : Error} (h : r.1 = .error e) :
    ∃ err, (edit.done r).1 = .error err := ⟨e, map_eq_error.mpr h⟩

theorem overwrite_fst_of_ok {f : Table → Except Error Table} (ht : g.table? key = some t)
    (hf : f t = .ok t') : (g.overwrite key f).1 = .ok () := by rw [overwrite_of_ok ht hf]

theorem overwrite_fst_of_error {f : Table → Except Error Table} {e : Error}
    (ht : g.table? key = some t) (hf : f t = .error e) : (g.overwrite key f).1 = .error e := by
  rw [overwrite_of_error ht hf]

/-- A link that leads to a row of the table that its column links to is written. -/
theorem writeLink_of_ok {expected : ColumnType} {f : Table → Except Error Table}
    (ht : g.table? key = some t) (htype : t.columnType column = .ok expected)
    (hlinks : t.LinksWithin g column target) (hf : f t = .ok t') :
    (g.writeLink key column target expected f).1 = .ok () := by
  obtain ⟨c, into, u, hc, hinto, hu, hlt⟩ := hlinks
  obtain ⟨d, hd, rfl⟩ := Table.columnType_eq_ok.mp htype
  obtain rfl := Option.some.inj (hc.symm.trans hd)
  have htarget : g.linkTarget key column c.type = .ok into := by
    simp [linkTarget, requireTable_eq_ok.mpr ht, Table.column_eq_ok.mpr hc, hinto, bind,
      Except.bind, pure, Except.pure]
  have hrow : g.checkTargetRow into target = .ok () := by
    simp [checkTargetRow, requireTable_eq_ok.mpr hu, Nat.not_le_of_lt hlt, bind, Except.bind,
      pure, Except.pure]
  have hcheck : (g.linkTarget key column c.type >>= fun into => g.checkTargetRow into target) =
      .ok () := bind_eq_ok.mpr ⟨into, htarget, hrow⟩
  simp only [writeLink, hcheck]
  exact overwrite_fst_of_ok ht hf

/-- No link is written into a column of another type. -/
theorem writeLink_of_other {expected : ColumnType} (f : Table → Except Error Table)
    (ht : g.table? key = some t) (htype : t.columnType column ≠ .ok expected) (target : Nat) :
    ∃ e, (g.writeLink key column target expected f).1 = .error e := by
  unfold writeLink
  split
  next e _ => exact ⟨e, rfl⟩
  next hcheck =>
    simp only [linkTarget, bind_eq_ok, requireTable_eq_ok, Table.column_eq_ok] at hcheck
    obtain ⟨into, ⟨u, hu, c, hc, hinto⟩, -⟩ := hcheck
    obtain rfl := Option.some.inj (ht.symm.trans hu)
    split at hinto
    · simp at hinto
    next hsame =>
      exact absurd (Table.columnType_eq_ok.mpr ⟨c, hc, Decidable.not_not.mp hsame⟩) htype

section Accepts
variable (ht : g.table? key = some t)
include ht

theorem accepts_addRow : g.Accepts (.addRow key) :=
  ⟨_, by simp only [edit, edit.made, write, ht]; rfl⟩

theorem accepts_insertRow (hrow : row ≤ t.size) : g.Accepts (.insertRow key row) :=
  edit_done_of_ok (overwrite_fst_of_ok ht (if_pos hrow))

theorem accepts_removeRow (hrow : row < t.size) : g.Accepts (.removeRow key row) := by
  obtain ⟨r, hr⟩ := Table.row_of_lt hrow
  have hremoved : t.removeRow row = .ok _ := bind_eq_ok.mpr ⟨r, hr, rfl⟩
  refine edit_done_of_ok ?_
  rw [Group.removeRow, overwrite_of_ok ht hremoved]

theorem accepts_clear : g.Accepts (.clear key) := by
  refine edit_done_of_ok ?_
  rw [clearTable, overwrite_of_ok (f := fun t => .ok t.clear) ht rfl]

theorem accepts_removeColumn (hcolumn : column < t.columnCount) :
    g.Accepts (.removeColumn key column) := by
  obtain ⟨c, hc⟩ := Table.column_of_lt hcolumn
  exact edit_done_of_ok (overwrite_fst_of_ok ht (bind_eq_ok.mpr ⟨c, hc, rfl⟩))

theorem accepts_set {v : Value} (hv : t.Takes column v) (hrow : row < t.size) :
    g.Accepts (.set key column row v) :=
  edit_done_of_ok (overwrite_fst_of_ok ht (Table.set_of_takes hv hrow))

theorem refuses_set {v : Value} (hv : ¬t.Takes column v) (row : Nat) :
    g.Refuses (.set key column row v) := by
  obtain ⟨e, he⟩ := Table.set_of_not_takes hv row
  exact edit_done_of_error (overwrite_fst_of_error ht he)

theorem accepts_setLink (htype : t.columnType column = .ok .link) (hrow : row < t.size)
    (hlinks : t.LinksWithin g column target) : g.Accepts (.setLink key column row target) := by
  obtain ⟨c, hc, hlink⟩ := Table.columnType_eq_ok.mp htype
  have htakes : t.Takes column (.link target) :=
    ⟨c, hc, Value.link_fits.mpr hlink, fun h => nomatch h⟩
  exact edit_done_of_ok (writeLink_of_ok ht htype hlinks (Table.set_of_takes htakes hrow))

theorem accepts_pushLink {rows : List Nat} (htype : t.columnType column = .ok .linkList)
    (hrows : t.linkList column row = .ok rows) (hlinks : t.LinksWithin g column target) :
    g.Accepts (.pushLink key column row target) :=
  edit_done_of_ok (writeLink_of_ok ht htype hlinks (bind_eq_ok.mpr
    ⟨rows, (t.linksToWrite_eq column row).trans hrows, rfl⟩))

theorem refuses_pushLink (htype : t.columnType column ≠ .ok .linkList) (row target : Nat) :
    g.Refuses (.pushLink key column row target) := by
  obtain ⟨e, he⟩ := writeLink_of_other (·.pushLink column row target) ht htype target
  exact edit_done_of_error he

theorem accepts_eraseLink {rows : List Nat} {position : Nat}
    (hrows : t.linkList column row = .ok rows) (hposition : position < rows.length) :
    g.Accepts (.eraseLink key column row position) := by
  have herased : t.eraseLink column row position =
      .ok (t.putCell column row (.linkList (rows.eraseIdx position))) := by
    simp only [Table.eraseLink, Table.linksToWrite_eq, hrows, bind, Except.bind,
      if_neg (Nat.not_le_of_lt hposition)]
    rfl
  exact edit_done_of_ok (overwrite_fst_of_ok ht herased)

theorem accepts_clearLinks {rows : List Nat} (hrows : t.linkList column row = .ok rows) :
    g.Accepts (.clearLinks key column row) :=
  edit_done_of_ok (overwrite_fst_of_ok ht (bind_eq_ok.mpr
    ⟨rows, (t.linksToWrite_eq column row).trans hrows, rfl⟩))

theorem refuses_clearLinks {e : Error} (hrows : t.linkList column row = .error e) :
    g.Refuses (.clearLinks key column row) := by
  refine edit_done_of_error (overwrite_fst_of_error ht (e := e) ?_)
  simp only [Table.clearLinks, Table.linksToWrite_eq, hrows, bind, Except.bind]

end Accepts
end Group
end SnapshotStore
