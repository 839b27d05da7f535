import Mathlib.Data.List.InsertIdx
import SnapshotStore.Group.Edit
import SnapshotStore.Proofs.NatMap
import SnapshotStore.Proofs.Outcome

/-!
Lineage. What a table or a group can become by being edited: names and keys stay, columns
stay for as long as the schema epoch does, and whatever is new gets an identity that was
not handed out before. No write that is given up can be seen here, only runs of edits.
-/

namespace SnapshotStore

/-! Tables -/

/-- What a table can become by edits. -/
structure Table.Leads (t t' : Table) : Prop where
  key : t'.key = t.key
  name : t'.name = t.name
  epoch : t.schemaEpoch ≤ t'.schemaEpoch
  columns : t'.schemaEpoch = t.schemaEpoch → t'.columns = t.columns
  next : t.nextRowId ≤ t'.nextRowId
  ids : ∀ id ∈ t'.rowIds, id ∈ t.rowIds ∨ t.nextRowId ≤ id ∧ id < t'.nextRowId
  counted : t.rowIds.length = t.rows.length → t'.rowIds.length = t'.rows.length

namespace Table
variable {t t' t'' : Table} {columns : List Column} {rows : List (List Value)}
  {rowIds : List RowId}

namespace Leads

theorem refl (t : Table) : t.Leads t :=
  ⟨rfl, rfl, Nat.le_refl _, fun _ => rfl, Nat.le_refl _, fun _ => .inl, id⟩

theorem trans (h : t.Leads t') (h' : t'.Leads t'') : t.Leads t'' where
  key := h'.key.trans h.key
  name := h'.name.trans h.name
  epoch := Nat.le_trans h.epoch h'.epoch
  columns he := by
    have hle := h.epoch
    have hle' := h'.epoch
    exact (h'.columns (by omega)).trans (h.columns (by omega))
  next := Nat.le_trans h.next h'.next
  ids id hid := by
    rcases h'.ids id hid with hid | hnew
    · exact (h.ids id hid).imp_right (And.imp_right fun hlt => Nat.lt_of_lt_of_le hlt h'.next)
    · exact .inr ⟨Nat.le_trans h.next hnew.1, hnew.2⟩
  counted hsize := h'.counted (h.counted hsize)

/-- A table whose rows change and whose columns do not. -/
theorem of_rows (h : rowIds ⊆ t.rowIds)
    (counted : t.rowIds.length = t.rows.length → rowIds.length = rows.length) :
    t.Leads { t with rows, rowIds } :=
  ⟨rfl, rfl, Nat.le_refl _, fun _ => rfl, Nat.le_refl _, fun _ hid => .inl (h hid), counted⟩

/-- A table whose rows hold other cells. -/
theorem of_cells (size : rows.length = t.rows.length) : t.Leads { t with rows } :=
  of_rows (List.Subset.refl _) fun hsize => hsize.trans size.symm

/-- A table whose columns change and whose rows keep their identities. -/
theorem of_columns (size : rows.length = t.rows.length) :
    t.Leads { t with columns, rows, schemaEpoch := t.schemaEpoch + 1 } :=
  ⟨rfl, rfl, Nat.le_succ _, fun he => absurd he (Nat.succ_ne_self _), Nat.le_refl _, fun _ => .inl,
    fun hsize => hsize.trans size.symm⟩

end Leads

theorem addColumn_leads {c : Column} {index : Nat} (h : t.addColumn c = .ok (index, t')) :
    t.Leads t' := by
  unfold addColumn at h
  split at h
  · simp at h
  · simp only [Except.ok.injEq, Prod.mk.injEq] at h
    obtain ⟨-, rfl⟩ := h
    exact .of_columns (List.length_map _)

theorem removeColumn_leads {index : Nat} (h : t.removeColumn index = .ok t') :
    t.Leads t' := by
  simp only [removeColumn, bind_eq_ok, pure_eq_ok] at h
  obtain ⟨c, -, rfl⟩ := h
  exact .of_columns (List.length_map _)

/-- The new row has the next identity, so no row had it before. -/
theorem leads_of_fresh (h : ∀ id ∈ rowIds, id = t.nextRowId ∨ id ∈ t.rowIds)
    (counted : t.rowIds.length = t.rows.length → rowIds.length = rows.length) :
    t.Leads { t with rows, rowIds, nextRowId := t.nextRowId + 1 } := by
  refine ⟨rfl, rfl, Nat.le_refl _, fun _ => rfl, Nat.le_succ _, fun id hid => ?_, counted⟩
  rcases h id hid with rfl | hid
  · exact .inr ⟨Nat.le_refl _, Nat.lt_succ_self _⟩
  · exact .inl hid

theorem insertRow_leads {index : Nat} (h : t.insertRow index = .ok t') : t.Leads t' := by
  unfold insertRow at h
  split at h
  next hi =>
    obtain rfl := Except.ok.inj h
    refine leads_of_fresh (fun _ => List.eq_or_mem_of_mem_insertIdx) fun hsize => ?_
    rw [List.length_insertIdx, List.length_insertIdx, hsize]
  next => simp at h

theorem addRow_leads (t : Table) : t.Leads t.addRow.2 :=
  leads_of_fresh
    (fun id hid => by
      rcases List.mem_append.mp hid with hid | hid
      · exact .inr hid
      · exact .inl (List.mem_singleton.mp hid))
    (fun hsize => by simp [hsize])

theorem removeRow_leads {index : Nat} (h : t.removeRow index = .ok t') : t.Leads t' := by
  simp only [removeRow, bind_eq_ok, pure_eq_ok] at h
  obtain ⟨r, -, rfl⟩ := h
  exact .of_rows List.eraseIdx_subset fun hsize => by
    rw [List.length_eraseIdx, List.length_eraseIdx, hsize]

theorem clear_leads (t : Table) : t.Leads t.clear :=
  .of_rows (List.nil_subset _) fun _ => rfl

theorem mapLinks_leads (t : Table) (target : TableKey) (f : Value → Value) :
    t.Leads (t.mapLinks target f) :=
  .of_cells (List.length_map _)

theorem putCell_leads (t : Table) (column row : Nat) (v : Value) :
    t.Leads (t.putCell column row v) :=
  .of_cells (List.length_modify ..)

theorem set_leads {column row : Nat} {v : Value} (h : t.set column row v = .ok t') :
    t.Leads t' := by
  simp only [set, bind_eq_ok] at h
  obtain ⟨c, -, r, -, h⟩ := h
  split at h
  · simp at h
  · split at h
    · simp at h
    · exact pure_eq_ok.mp h ▸ t.putCell_leads column row v

theorem pushLink_leads {column row target : Nat} (h : t.pushLink column row target = .ok t') :
    t.Leads t' := by
  simp only [pushLink, bind_eq_ok, pure_eq_ok] at h
  obtain ⟨rows, -, rfl⟩ := h
  exact t.putCell_leads ..

theorem eraseLink_leads {column row position : Nat}
    (h : t.eraseLink column row position = .ok t') : t.Leads t' := by
  simp only [eraseLink, bind_eq_ok] at h
  obtain ⟨rows, -, h⟩ := h
  split at h
  · simp at h
  · exact pure_eq_ok.mp h ▸ t.putCell_leads ..

theorem clearLinks_leads {column row : Nat} (h : t.clearLinks column row = .ok t') :
    t.Leads t' := by
  simp only [clearLinks, bind_eq_ok, pure_eq_ok] at h
  obtain ⟨rows, -, rfl⟩ := h
  exact t.putCell_leads ..

/-- A table that stands under its key, counts its rows and their identities alike and has used
no identity ahead of time. -/
structure Under (t : Table) (key : Nat) : Prop where
  key : t.key = key
  next : ∀ id ∈ t.rowIds, id < t.nextRowId
  counted : t.rowIds.length = t.rows.length

theorem Under.leads {key : Nat} (h : t.Under key) (hl : t.Leads t') : t'.Under key where
  key := hl.key.trans h.key
  next id hid := by
    rcases hl.ids id hid with hid | hnew
    · exact Nat.lt_of_lt_of_le (h.next id hid) hl.next
    · exact hnew.2
  counted := hl.counted h.counted

end Table

/-! Groups -/

namespace Group

/-- The names in the index are those of tables. -/
def Indexed (g : Group) : Prop := ∀ name (k : Nat), g.tableKey? name = some k →
  ∃ t, g.table? k = some t ∧ t.name = name

/-- Every table stands under its own key, every key in use was handed out, and names lead to
tables. -/
structure Numbered (g : Group) : Prop where
  tables : ∀ (k : Nat) t, g.table? k = some t → t.Under k ∧ k ≤ g.lastKey
  indexed : g.Indexed

/-- What a group can become by edits. -/
structure Leads (g g' : Group) : Prop where
  lastKey : (g.lastKey : Nat) ≤ g'.lastKey
  tables : ∀ (k : Nat) t', g'.table? k = some t' →
    (∃ t, g.table? k = some t ∧ t.Leads t') ∨ g.lastKey < k ∧ k ≤ g'.lastKey ∧ t'.Under k
  indexed : g.Numbered → g'.Indexed

theorem requireTable_eq_ok {g : Group} {key : TableKey} {t : Table} :
    g.requireTable key = .ok t ↔ g.table? key = some t := by
  unfold requireTable
  cases g.table? key <;> simp

theorem table?_put (g : Group) (key : Nat) (t : Table) (k : Nat) :
    (g.put key t).table? k = if k = key then some t else g.table? k := by
  simp only [table?, put, NatMap.get?_insert]
  split <;> rfl

namespace Leads
variable {g g' g'' : Group}

theorem refl (g : Group) : g.Leads g :=
  ⟨Nat.le_refl _, fun _ t ht => .inl ⟨t, ht, .refl t⟩, fun hg => hg.indexed⟩

theorem numbered (h : g.Leads g') (hg : g.Numbered) : g'.Numbered := by
  refine ⟨fun k t' ht' => ?_, h.indexed hg⟩
  rcases h.tables k t' ht' with ⟨t, ht, hl⟩ | ⟨-, hle, hu⟩
  · exact ⟨(hg.tables k t ht).1.leads hl, Nat.le_trans (hg.tables k t ht).2 h.lastKey⟩
  · exact ⟨hu, hle⟩

theorem trans (h : g.Leads g') (h' : g'.Leads g'') : g.Leads g'' where
  lastKey := Nat.le_trans h.lastKey h'.lastKey
  tables k t'' ht'' := by
    rcases h'.tables k t'' ht'' with ⟨t', ht', hl'⟩ | ⟨hlt, hle, hu⟩
    · rcases h.tables k t' ht' with ⟨t, ht, hl⟩ | ⟨hlt, hle, hu⟩
      · exact .inl ⟨t, ht, hl.trans hl'⟩
      · exact .inr ⟨hlt, Nat.le_trans hle h'.lastKey, hu.leads hl'⟩
    · exact .inr ⟨Nat.lt_of_le_of_lt h.lastKey hlt, hle, hu⟩
  indexed hg := h'.indexed (h.numbered hg)

end Leads

theorem revision_leads (g : Group) (revision : Version) : g.Leads { g with revision } :=
  ⟨Nat.le_refl _, fun _ t ht => .inl ⟨t, ht, .refl t⟩, fun hg => hg.indexed⟩

/-- Names stay good where tables stay under their keys and keep their names. -/
theorem Indexed.carry {g g' : Group} (h : g.Indexed) (hnames : g'.names = g.names)
    (htables : ∀ (k : Nat) t, g.table? k = some t →
      ∃ t', g'.table? k = some t' ∧ t'.name = t.name) :
    g'.Indexed := by
  intro name k hk
  rw [tableKey?, hnames] at hk
  obtain ⟨t, ht, rfl⟩ := h name k hk
  exact htables k t ht

theorem put_leads {g : Group} {key : Nat} {t t' : Table} (ht : g.table? key = some t)
    (hl : t.Leads t') : g.Leads (g.put key t') := by
  refine ⟨Nat.le_refl _, ?_, fun hg => hg.indexed.carry rfl ?_⟩
  · intro k u hu
    rw [table?_put] at hu
    by_cases hk : k = key
    · rw [if_pos hk, Option.some.injEq] at hu
      subst hk hu
      exact .inl ⟨t, ht, hl⟩
    · rw [if_neg hk] at hu
      exact .inl ⟨u, hu, .refl u⟩
  · intro k u hu
    rw [table?_put]
    by_cases hk : k = key
    · subst hk
      obtain rfl := Option.some.inj (ht.symm.trans hu)
      exact ⟨t', if_pos rfl, hl.name⟩
    · exact ⟨u, (if_neg hk).trans hu, rfl⟩

theorem write_leads {α : Type} {g : Group} {key : TableKey}
    {f : Table → Except Error (α × Table)}
    (hf : ∀ t made t', f t = .ok (made, t') → t.Leads t') : g.Leads (g.write key f).2 := by
  unfold write
  cases ht : g.table? key with
  | none => exact .refl g
  | some t =>
      dsimp only
      cases hr : f t with
      | error e => exact put_leads ht (.refl t)
      | ok r => exact put_leads ht (hf t r.1 r.2 hr)

theorem overwrite_leads {g : Group} {key : TableKey} {f : Table → Except Error Table}
    (hf : ∀ t t', f t = .ok t' → t.Leads t') : g.Leads (g.overwrite key f).2 := by
  refine write_leads fun t made t' h => ?_
  obtain ⟨u, hu, he⟩ := map_eq_ok.mp h
  obtain ⟨-, rfl⟩ := Prod.mk.inj he
  exact hf t u hu

theorem mapLinks_leads (g : Group) (target : TableKey) (f : Value → Value) :
    g.Leads (g.mapLinks target f) := by
  refine ⟨Nat.le_refl _, ?_, fun hg => hg.indexed.carry rfl ?_⟩
  · intro k t' ht'
    simp only [table?, mapLinks, NatMap.get?_mapValues, Option.map_map,
      Option.map_eq_some_iff] at ht'
    obtain ⟨e, he, rfl⟩ := ht'
    refine .inl ⟨e.table, by simp [table?, he], ?_⟩
    simp only [Function.comp]
    split
    · exact e.table.mapLinks_leads target f
    · exact .refl _
  · intro k t ht
    obtain ⟨e, he, rfl⟩ := Option.map_eq_some_iff.mp ht
    simp only [table?, mapLinks, NatMap.get?_mapValues, he, Option.map_some, Option.some.injEq,
      exists_eq_left']
    split <;> rfl

theorem addTable_leads {g g' : Group} {name : String} {key : TableKey}
    (h : g.addTable name = .ok (key, g')) : g.Leads g' := by
  unfold addTable at h
  split at h
  · simp at h
  · split at h
    · simp at h
    · simp only [Except.ok.injEq, Prod.mk.injEq] at h
      obtain ⟨-, rfl⟩ := h
      refine ⟨Nat.le_succ _, ?_, ?_⟩
      · intro k t' ht'
        rw [table?_put] at ht'
        by_cases hk : k = g.lastKey + 1
        · rw [if_pos hk, Option.some.injEq] at ht'
          subst hk ht'
          exact .inr ⟨Nat.lt_succ_self _, Nat.le_refl _, rfl,
            fun id hid => by simp [Table.empty] at hid, rfl⟩
        · rw [if_neg hk] at ht'
          exact .inl ⟨t', ht', .refl t'⟩
      · intro hg name' k hk
        simp only [tableKey?, put, NameIndex.find?_insert] at hk
        rw [table?_put]
        split at hk
        next hname =>
          obtain rfl := Option.some.inj hk
          exact ⟨_, if_pos rfl, hname.symm⟩
        next =>
          obtain ⟨t, ht, rfl⟩ := hg.indexed name' k hk
          have hle := (hg.tables k t ht).2
          exact ⟨t, (if_neg (Nat.ne_of_lt (Nat.lt_succ_of_le hle))).trans ht, rfl⟩

theorem removeTable_leads {g g' : Group} {key : TableKey} (h : g.removeTable key = .ok g') :
    g.Leads g' := by
  simp only [removeTable, bind_eq_ok] at h
  obtain ⟨t, ht, h⟩ := h
  split at h
  · simp at h
  · simp only [pure_eq_ok] at h
    subst h
    refine ⟨Nat.le_refl _, ?_, ?_⟩
    · intro k t' ht'
      simp only [table?, NatMap.get?_erase, Option.map_eq_some_iff] at ht'
      obtain ⟨e, he, rfl⟩ := ht'
      split at he
      · simp at he
      · exact .inl ⟨e.table, by simp [table?, he], .refl _⟩
    · intro hg name k hk
      simp only [tableKey?, NameIndex.find?_erase] at hk
      split at hk
      · simp at hk
      next hname =>
        obtain ⟨u, hu, rfl⟩ := hg.indexed name k hk
        refine ⟨u, ?_, rfl⟩
        have hne : k ≠ key := by
          rintro rfl
          exact hname (congrArg Table.name
            (Option.some.inj (hu.symm.trans (requireTable_eq_ok.mp ht))))
        simp only [table?, NatMap.get?_erase, if_neg hne]
        exact hu

theorem removeRow_leads (g : Group) (key : TableKey) (row : Nat) :
    g.Leads (g.removeRow key row).2 := by
  have h : g.Leads (g.overwrite key (·.removeRow row)).2 :=
    overwrite_leads fun _ _ => Table.removeRow_leads
  unfold removeRow
  split
  next hr => rwa [hr] at h
  next hr =>
    rw [hr] at h
    exact h.trans (mapLinks_leads ..)

theorem clearTable_leads (g : Group) (key : TableKey) : g.Leads (g.clearTable key).2 := by
  have h : g.Leads (g.overwrite key fun t => .ok t.clear).2 :=
    overwrite_leads fun t _ ht => Except.ok.inj ht ▸ t.clear_leads
  unfold clearTable
  split
  next hr => rwa [hr] at h
  next hr =>
    rw [hr] at h
    exact h.trans (mapLinks_leads ..)

theorem writeLink_leads {g : Group} {key : TableKey} {column target : Nat}
    {expected : ColumnType} {f : Table → Except Error Table}
    (hf : ∀ t t', f t = .ok t' → t.Leads t') :
    g.Leads (g.writeLink key column target expected f).2 := by
  unfold writeLink
  split
  · exact .refl g
  · exact overwrite_leads hf

/-- Every edit, refused or not, leads on from the group. -/
theorem edit_leads (g : Group) (e : Edit) : g.Leads (g.edit e).2 := by
  cases e with
  | addTable name =>
      simp only [edit]
      split
      next h => exact addTable_leads h
      next => exact .refl g
  | removeTable key =>
      simp only [edit]
      split
      next h => exact removeTable_leads h
      next => exact .refl g
  | addColumn key column => exact write_leads fun _ _ _ => Table.addColumn_leads
  | addRow key =>
      have h : g.Leads (g.write key fun t => .ok t.addRow).2 :=
        write_leads fun t _ _ h => (Prod.mk.inj (Except.ok.inj h)).2 ▸ t.addRow_leads
      exact h
  | removeColumn key column => exact overwrite_leads fun _ _ => Table.removeColumn_leads
  | insertRow key row => exact overwrite_leads fun _ _ => Table.insertRow_leads
  | removeRow key row => exact removeRow_leads g key row
  | dropRow key row => exact overwrite_leads fun _ _ => Table.removeRow_leads
  | clear key => exact clearTable_leads g key
  | dropRows key => exact overwrite_leads fun t _ h => Except.ok.inj h ▸ t.clear_leads
  | set key column row value => exact overwrite_leads fun _ _ => Table.set_leads
  | setLink key column row target => exact writeLink_leads fun _ _ => Table.set_leads
  | pushLink key column row target => exact writeLink_leads fun _ _ => Table.pushLink_leads
  | eraseLink key column row position => exact overwrite_leads fun _ _ => Table.eraseLink_leads
  | clearLinks key column row => exact overwrite_leads fun _ _ => Table.clearLinks_leads

end Group
end SnapshotStore
