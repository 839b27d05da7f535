import SnapshotStore.Proofs.Complaints
import SnapshotStore.Proofs.Group.WellFormed

/-!
Where the vectors of a well-formed group are read and written. Every look-up that succeeds
finds what it looks for, every edit that goes through has found its row, its column, its cell
and its place in a list of links, and an edit that is refused is refused with a complaint.
-/

namespace SnapshotStore

namespace Table
variable {t : Table} {column row : Nat} {v : Value}

namespace WellFormed

/-- The rows reach as far as the columns do. -/
theorem cell?_isSome (hw : t.WellFormed) (hcolumn : column < t.columnCount)
    (hrow : row < t.size) : (t.cell? column row).isSome := by
  have hr := List.getElem?_eq_getElem hrow
  have hwidth := hw.width _ (List.getElem_mem hrow)
  simp only [cell?, hr, Option.bind_some, List.getElem?_eq_getElem (hwidth ▸ hcolumn),
    Option.isSome_some]

theorem lt_of_cell? (hw : t.WellFormed) (h : t.cell? column row = some v) :
    column < t.columnCount ∧ row < t.size := by
  obtain ⟨r, hr, hv⟩ := cell?_eq_some.mp h
  have hwidth := hw.width r (List.mem_of_getElem? hr)
  exact ⟨hwidth ▸ (List.getElem?_eq_some_iff.mp hv).1, (List.getElem?_eq_some_iff.mp hr).1⟩

/-- What is read from a cell is what stands there, never what stands in for a missing cell. -/
theorem get_eq_ok (hw : t.WellFormed) :
    t.get column row = .ok v ↔ t.cell? column row = some v := by
  simp only [get, bind_eq_ok, pure_eq_ok, column_eq_ok, row_eq_ok]
  constructor
  · rintro ⟨c, hc, r, hr, rfl⟩
    have hcell := hw.cell?_isSome (List.getElem?_eq_some_iff.mp hc).1
      (List.getElem?_eq_some_iff.mp hr).1
    obtain ⟨v, hv⟩ := Option.isSome_iff_exists.mp hcell
    obtain ⟨r', hr', hv'⟩ := cell?_eq_some.mp hv
    obtain rfl := Option.some.inj (hr.symm.trans hr')
    rw [hv, hv', Option.getD_some]
  · intro h
    obtain ⟨hcolumn, -⟩ := hw.lt_of_cell? h
    obtain ⟨r, hr, hv⟩ := cell?_eq_some.mp h
    exact ⟨_, List.getElem?_eq_getElem hcolumn, r, hr, by rw [hv, Option.getD_some]⟩

theorem linkList_eq_ok (hw : t.WellFormed) {rows : List Nat} :
    t.linkList column row = .ok rows ↔ t.cell? column row = some (.linkList rows) := by
  rw [← hw.get_eq_ok]
  simp only [linkList, bind_eq_ok]
  constructor
  · rintro ⟨v, hv, h⟩
    split at h
    · exact pure_eq_ok.mp h ▸ hv
    · simp at h
  · exact fun h => ⟨_, h, rfl⟩

end WellFormed

/-! Refusals -/

theorem addColumn_complains (t : Table) (c : Column) : Complains (t.addColumn c) := by
  unfold addColumn
  split
  next e he =>
    refine .error ?_
    unfold columnRefusal? at he
    (repeat' split at he) <;> first | exact Option.some.inj he ▸ rfl | simp at he
  · exact .ok _

theorem removeColumn_complains (t : Table) (index : Nat) : Complains (t.removeColumn index) :=
  (t.column_complains index).bind fun _ _ => .ok _

theorem insertRow_complains (t : Table) (index : Nat) : Complains (t.insertRow index) :=
  .ite (.ok _) (.error rfl)

theorem removeRow_complains (t : Table) (index : Nat) : Complains (t.removeRow index) :=
  (t.row_complains index).bind fun _ _ => .ok _

theorem set_complains (t : Table) (column row : Nat) (v : Value) :
    Complains (t.set column row v) :=
  (t.column_complains column).bind fun _ _ => (t.row_complains row).bind fun _ _ =>
    .stop rfl <| .ite (.error rfl) (.ok _)

/-- A list of links does not change its type between the check and the write. -/
theorem linksToWrite_complains (t : Table) (column row : Nat) :
    Complains (t.linksToWrite column row) :=
  t.linksToWrite_eq column row ▸ t.linkList_complains column row

theorem pushLink_complains (t : Table) (column row target : Nat) :
    Complains (t.pushLink column row target) :=
  (t.linksToWrite_complains column row).bind fun _ _ => .ok _

theorem eraseLink_complains (t : Table) (column row position : Nat) :
    Complains (t.eraseLink column row position) :=
  (t.linksToWrite_complains column row).bind fun _ _ => .ite (.error rfl) (.ok _)

theorem clearLinks_complains (t : Table) (column row : Nat) :
    Complains (t.clearLinks column row) :=
  (t.linksToWrite_complains column row).bind fun _ _ => .ok _

end Table

/-! Edits that go through -/

/-- The target row of a link is in the table that the column links to. -/
def Table.LinksWithin (t : Table) (g : Group) (column target : Nat) : Prop :=
  ∃ (c : Column) (into : Nat) (u : Table), t.columns[column]? = some c ∧
    c.target? = some into ∧ g.table? into = some u ∧ target < u.size

/-- Everything that the edit names by its position is there. -/
def Edit.InBounds (g : Group) : Edit → Prop
  | addTable _ => True
  | removeTable key | addColumn key _ | addRow key | clear key | dropRows key =>
    ∃ t, g.table? key = some t
  | removeColumn key column => ∃ t, g.table? key = some t ∧ column < t.columnCount ∧
    ∀ r ∈ t.rows, column < r.length
  | insertRow key row => ∃ t, g.table? key = some t ∧ row ≤ t.size ∧ row ≤ t.rowIds.length
  | removeRow key row | dropRow key row =>
    ∃ t, g.table? key = some t ∧ row < t.size ∧ row < t.rowIds.length
  | set key column row _ | clearLinks key column row =>
    ∃ t, g.table? key = some t ∧ (t.cell? column row).isSome
  | setLink key column row target | pushLink key column row target =>
    ∃ t, g.table? key = some t ∧ (t.cell? column row).isSome ∧ t.LinksWithin g column target
  | eraseLink key column row position => ∃ t rows, g.table? key = some t ∧
    t.cell? column row = some (.linkList rows) ∧ position < rows.length

namespace Group
variable {g : Group} {key : TableKey} {made : Option Nat}

theorem write_ok {α : Type} {f : Table → Except Error (α × Table)} {x : α}
    (h : (g.write key f).1 = .ok x) : ∃ t t', g.table? key = some t ∧ f t = .ok (x, t') := by
  unfold write at h
  cases ht : g.table? key with
  | none => simp [ht] at h
  | some t =>
      cases hf : f t with
      | error e => simp [ht, hf] at h
      | ok r =>
          simp only [ht, hf, Except.ok.injEq] at h
          exact ⟨t, r.2, rfl, h ▸ hf⟩

theorem overwrite_ok {f : Table → Except Error Table} (h : (g.overwrite key f).1 = .ok ()) :
    ∃ t t', g.table? key = some t ∧ f t = .ok t' := by
  obtain ⟨t, _, ht, hf⟩ := write_ok h
  obtain ⟨t', ht', -⟩ := map_eq_ok.mp hf
  exact ⟨t, t', ht, ht'⟩

theorem writeLink_ok {column target : Nat} {expected : ColumnType}
    {f : Table → Except Error Table} (h : (g.writeLink key column target expected f).1 = .ok ()) :
    ∃ t t', g.table? key = some t ∧ f t = .ok t' ∧ t.LinksWithin g column target := by
  unfold writeLink at h
  split at h
  · simp at h
  next hcheck =>
    obtain ⟨t, t', ht, hf⟩ := overwrite_ok h
    exact ⟨t, t', ht, hf, linkTarget_eq_ok hcheck ht⟩

theorem edit_done {r : Except Error Unit × Group} (h : (edit.done r).1 = .ok made) :
    r.1 = .ok () := by
  obtain ⟨u, hu, -⟩ := map_eq_ok.mp h
  exact hu

theorem edit_made {r : Except Error Nat × Group} (h : (edit.made r).1 = .ok made) :
    ∃ n, r.1 = .ok n := by
  obtain ⟨n, hn, -⟩ := map_eq_ok.mp h
  exact ⟨n, hn⟩

theorem removeRow_ok {row : Nat} (h : (g.removeRow key row).1 = .ok ()) :
    (g.overwrite key (·.removeRow row)).1 = .ok () := by
  unfold removeRow at h
  split at h
  · simp at h
  next hr => rw [hr]

theorem clearTable_ok (h : (g.clearTable key).1 = .ok ()) :
    (g.overwrite key fun t => .ok t.clear).1 = .ok () := by
  unfold clearTable at h
  split at h
  · simp at h
  next hr => rw [hr]

theorem cell?_of_row {t : Table} (hw : t.WellFormed) {column row : Nat} {c : Column}
    {r : List Value} (hc : t.column column = .ok c) (hr : t.row row = .ok r) :
    (t.cell? column row).isSome :=
  hw.cell?_isSome (List.getElem?_eq_some_iff.mp (Table.column_eq_ok.mp hc)).1
    (List.getElem?_eq_some_iff.mp (Table.row_eq_ok.mp hr)).1

theorem cell?_of_set {t t' : Table} (hw : t.WellFormed) {column row : Nat} {v : Value}
    (h : t.set column row v = .ok t') : (t.cell? column row).isSome := by
  simp only [Table.set, bind_eq_ok] at h
  obtain ⟨c, hc, r, hr, -⟩ := h
  exact cell?_of_row hw hc hr

namespace WellFormed

/-- An edit that goes through has found everything that it names. -/
theorem edit_inBounds (hg : g.WellFormed) {e : Edit} (h : (g.edit e).1 = .ok made) :
    e.InBounds g := by
  cases e with
  | addTable name => trivial
  | removeTable key =>
      simp only [Group.edit] at h
      split at h
      next hr =>
        simp only [Group.removeTable, bind_eq_ok, requireTable_eq_ok] at hr
        obtain ⟨t, ht, -⟩ := hr
        exact ⟨t, ht⟩
      next => simp at h
  | addColumn key c =>
      obtain ⟨n, hn⟩ := edit_made h
      obtain ⟨t, -, ht, -⟩ := write_ok hn
      exact ⟨t, ht⟩
  | addRow key =>
      obtain ⟨n, hn⟩ := edit_made h
      obtain ⟨t, -, ht, -⟩ := write_ok (f := fun t => .ok t.addRow) hn
      exact ⟨t, ht⟩
  | removeColumn key column =>
      obtain ⟨t, t', ht, hr⟩ := overwrite_ok (f := (·.removeColumn column)) (edit_done h)
      simp only [Table.removeColumn, bind_eq_ok, Table.column_eq_ok] at hr
      obtain ⟨c, hc, -⟩ := hr
      have hlt := (List.getElem?_eq_some_iff.mp hc).1
      exact ⟨t, ht, hlt, fun r hr => ((hg.tables key t ht).width r hr).symm ▸ hlt⟩
  | insertRow key row =>
      obtain ⟨t, t', ht, hr⟩ := overwrite_ok (f := (·.insertRow row)) (edit_done h)
      have hi := (Table.insertRow_eq_ok hr).1
      exact ⟨t, ht, hi, (hg.tables key t ht).identified ▸ hi⟩
  | removeRow key row =>
      obtain ⟨t, t', ht, hr⟩ := overwrite_ok (f := (·.removeRow row)) (removeRow_ok (edit_done h))
      have hi := (Table.removeRow_eq_ok hr).1
      exact ⟨t, ht, hi, (hg.tables key t ht).identified ▸ hi⟩
  | dropRow key row =>
      obtain ⟨t, t', ht, hr⟩ := overwrite_ok (f := (·.removeRow row)) (edit_done h)
      have hi := (Table.removeRow_eq_ok hr).1
      exact ⟨t, ht, hi, (hg.tables key t ht).identified ▸ hi⟩
  | clear key =>
      obtain ⟨t, t', ht, -⟩ :=
        overwrite_ok (f := fun t => .ok t.clear) (clearTable_ok (edit_done h))
      exact ⟨t, ht⟩
  | dropRows key =>
      obtain ⟨t, t', ht, -⟩ := overwrite_ok (f := fun t => .ok t.clear) (edit_done h)
      exact ⟨t, ht⟩
  | set key column row v =>
      obtain ⟨t, t', ht, hs⟩ := overwrite_ok (f := (·.set column row v)) (edit_done h)
      exact ⟨t, ht, cell?_of_set (hg.tables key t ht) hs⟩
  | setLink key column row target =>
      obtain ⟨t, t', ht, hs, hlink⟩ := writeLink_ok (f := (·.set column row (.link target)))
        (edit_done h)
      exact ⟨t, ht, cell?_of_set (hg.tables key t ht) hs, hlink⟩
  | pushLink key column row target =>
      obtain ⟨t, t', ht, hs, hlink⟩ := writeLink_ok (f := (·.pushLink column row target))
        (edit_done h)
      simp only [Table.pushLink, bind_eq_ok, Table.linksToWrite_eq,
        (hg.tables key t ht).linkList_eq_ok] at hs
      obtain ⟨rows, hrows, -⟩ := hs
      exact ⟨t, ht, Option.isSome_of_eq_some hrows, hlink⟩
  | eraseLink key column row position =>
      obtain ⟨t, t', ht, hs⟩ := overwrite_ok (f := (·.eraseLink column row position)) (edit_done h)
      simp only [Table.eraseLink, bind_eq_ok, Table.linksToWrite_eq,
        (hg.tables key t ht).linkList_eq_ok] at hs
      obtain ⟨rows, hrows, hs⟩ := hs
      split at hs
      · simp at hs
      next hlt => exact ⟨t, rows, ht, hrows, Nat.lt_of_not_le hlt⟩
  | clearLinks key column row =>
      obtain ⟨t, t', ht, hs⟩ := overwrite_ok (f := (·.clearLinks column row)) (edit_done h)
      simp only [Table.clearLinks, bind_eq_ok, Table.linksToWrite_eq,
        (hg.tables key t ht).linkList_eq_ok] at hs
      obtain ⟨rows, hrows, -⟩ := hs
      exact ⟨t, ht, Option.isSome_of_eq_some hrows⟩

end WellFormed

/-! Edits that are refused -/

theorem write_complains {α : Type} {f : Table → Except Error (α × Table)}
    (hf : ∀ t, Complains (f t)) : Complains (g.write key f).1 := by
  unfold write
  split
  · exact .error rfl
  next t _ =>
    split
    next e he => exact .error (hf t e he)
    · exact .ok _

theorem overwrite_complains {f : Table → Except Error Table} (hf : ∀ t, Complains (f t)) :
    Complains (g.overwrite key f).1 :=
  write_complains fun t => (hf t).map _

theorem requireTable_complains (g : Group) (key : TableKey) : Complains (g.requireTable key) := by
  unfold requireTable
  split
  · exact .ok _
  · exact .error rfl

theorem addTable_complains (g : Group) (name : String) : Complains (g.addTable name) := by
  unfold addTable
  exact .ite (.error rfl) (.ite (.error rfl) (.ok _))

theorem removeTable_complains (g : Group) (key : TableKey) : Complains (g.removeTable key) := by
  refine (g.requireTable_complains key).bind fun t _ => ?_
  split
  · exact .error rfl
  · exact .ok _

theorem checkTargetRow_complains (g : Group) (target : TableKey) (row : Nat) :
    Complains (g.checkTargetRow target row) :=
  (g.requireTable_complains target).bind fun _ _ => .ite (.error rfl) (.ok _)

namespace WellFormed

/-- A column of links has a target, and the target is there. -/
theorem target_of_linkLike (hg : g.WellFormed) {t : Table} (ht : g.table? key = some t)
    {column : Nat} {c : Column} (hc : t.columns[column]? = some c)
    (hlink : c.type.isLinkLike = true) :
    ∃ (into : Nat) (u : Table), c.target? = some into ∧ g.table? into = some u := by
  have hmem := List.mem_of_getElem? hc
  have hsome := ((hg.tables key t ht).linked c hmem).trans hlink
  obtain ⟨into, hinto⟩ := Option.isSome_iff_exists.mp hsome
  obtain ⟨u, hu⟩ := hg.targets key t ht c hmem into hinto
  exact ⟨into, u, hinto, hu⟩

theorem linkTarget_complains (hg : g.WellFormed) (column : Nat) {expected : ColumnType}
    (hlink : expected.isLinkLike = true) : Complains (g.linkTarget key column expected) := by
  refine (g.requireTable_complains key).bind fun t ht =>
    (t.column_complains column).bind fun c hc => ?_
  by_cases htype : c.type = expected
  · obtain ⟨into, -, hinto, -⟩ := hg.target_of_linkLike (requireTable_eq_ok.mp ht)
      (Table.column_eq_ok.mp hc) (htype ▸ hlink)
    simp only [htype, hinto, ne_eq, not_true_eq_false, if_false]
    exact .ok _
  · simp only [htype, ne_eq, not_false_eq_true, if_true]
    exact .error rfl

theorem writeLink_complains (hg : g.WellFormed) {column target : Nat} {expected : ColumnType}
    (hlink : expected.isLinkLike = true) {f : Table → Except Error Table}
    (hf : ∀ t, Complains (f t)) : Complains (g.writeLink key column target expected f).1 := by
  unfold Group.writeLink
  split
  next e he =>
    exact .error (((hg.linkTarget_complains column hlink).bind fun into _ =>
      g.checkTargetRow_complains into target) e he)
  · exact overwrite_complains hf

/-- An edit is never refused for what the group should have taken care of itself. -/
theorem edit_complains (hg : g.WellFormed) (e : Edit) : Complains (g.edit e).1 := by
  cases e with
  | addTable name =>
      simp only [Group.edit]
      split
      · exact .ok _
      next e he => exact .error (g.addTable_complains name e he)
  | removeTable key =>
      simp only [Group.edit]
      split
      · exact .ok _
      next e he => exact .error (g.removeTable_complains key e he)
  | addColumn key c => exact (write_complains fun t => t.addColumn_complains c).map _
  | addRow key => exact (write_complains (f := fun t => .ok t.addRow) fun _ => .ok _).map _
  | removeColumn key column =>
      exact (overwrite_complains fun t => t.removeColumn_complains column).map _
  | insertRow key row => exact (overwrite_complains fun t => t.insertRow_complains row).map _
  | dropRow key row => exact (overwrite_complains fun t => t.removeRow_complains row).map _
  | dropRows key => exact (overwrite_complains (f := fun t => .ok t.clear) fun _ => .ok _).map _
  | removeRow key row =>
      refine FailsBy.map (x := (g.removeRow key row).1) ?_ _
      unfold Group.removeRow
      split
      next e _ he =>
        have hrefused : (g.overwrite key (·.removeRow row)).1 = .error e := by rw [he]
        exact .error (overwrite_complains (fun t => t.removeRow_complains row) e hrefused)
      · exact .ok _
  | clear key =>
      refine FailsBy.map (x := (g.clearTable key).1) ?_ _
      unfold Group.clearTable
      split
      next e _ he =>
        have hrefused : (g.overwrite key fun t => .ok t.clear).1 = .error e := by rw [he]
        exact .error (overwrite_complains (fun _ => .ok _) e hrefused)
      · exact .ok _
  | set key column row v => exact (overwrite_complains fun t => t.set_complains column row v).map _
  | setLink key column row target =>
      exact (hg.writeLink_complains rfl fun t => t.set_complains column row _).map _
  | pushLink key column row target =>
      exact (hg.writeLink_complains rfl fun t => t.pushLink_complains column row target).map _
  | eraseLink key column row position =>
      exact (overwrite_complains fun t => t.eraseLink_complains column row position).map _
  | clearLinks key column row =>
      exact (overwrite_complains fun t => t.clearLinks_complains column row).map _

end WellFormed
end Group
end SnapshotStore
