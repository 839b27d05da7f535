import Mathlib.Data.List.Forall2
import SnapshotStore.Proofs.Group.Links

/-!
Groups after rows of a table went. The cells that link to the table are rewritten, in whatever table
they are, so that each link that is left designates the row that it designated. All other cells stay
as they are, and so does everything else in the group but the rows that went.
-/

namespace SnapshotStore

namespace Value
variable {v : Value} {removed : Nat} {same : Nat → Nat → Prop}

/-- What becomes of a cell of links as one row that they can lead to goes. Links to that row go with
it, and the others lead to the same rows as before, in the order that they had. -/
inductive Keeps (removed : Nat) (same : Nat → Nat → Prop) : Value → Value → Prop
  | null : Keeps removed same null null
  | gone : Keeps removed same (link removed) null
  | link {p p' : Nat} (stays : p ≠ removed) (leads : same p p') :
      Keeps removed same (link p) (link p')
  | linkList {ps ps' : List Nat} (lead : List.Forall₂ same (ps.filter (· ≠ removed)) ps') :
      Keeps removed same (linkList ps) (linkList ps')

/-- What becomes of a cell of links as all rows that they can lead to go. -/
inductive Empties : Value → Value → Prop
  | null : Empties null null
  | link (p : Nat) : Empties (link p) null
  | linkList (ps : List Nat) : Empties (linkList ps) (linkList [])

/-- The cell holds links, if it holds anything. -/
def Linking (v : Value) : Prop := v = null ∨ (∃ p, v = link p) ∨ ∃ ps, v = linkList ps

theorem Linking.keeps (hv : v.Linking)
    (h : ∀ p ∈ v.targets, p ≠ removed → same p (if removed < p then p - 1 else p)) :
    Keeps removed same v (v.afterRowRemoved removed) := by
  rcases hv with rfl | ⟨p, rfl⟩ | ⟨ps, rfl⟩
  · exact .null
  · rw [afterRowRemoved]
    split
    next hp => exact hp ▸ .gone
    next hp =>
      have hleads := h p List.mem_cons_self hp
      split
      next hlt => exact .link hp (by rwa [if_pos hlt] at hleads)
      next hlt => exact .link hp (by rwa [if_neg hlt] at hleads)
  · refine .linkList (List.forall₂_map_right_iff.mpr (List.forall₂_same.mpr fun p hp => ?_))
    obtain ⟨hmem, hne⟩ := List.mem_filter.mp hp
    exact h p hmem (of_decide_eq_true hne)

theorem Linking.empties (hv : v.Linking) : Empties v v.afterRowsCleared := by
  rcases hv with rfl | ⟨p, rfl⟩ | ⟨ps, rfl⟩
  · exact .null
  · exact .link p
  · exact .linkList ps

end Value

/-- A row keeps its cells, but for those in columns that link to the table, of which the relation
says what becomes. -/
structure Table.RowRewrites (columns : List Column) (key : TableKey)
    (becomes : Value → Value → Prop) (r r' : List Value) : Prop where
  width : r'.length = r.length
  cells : ∀ (j : Nat) v v', r[j]? = some v → r'[j]? = some v' →
    ∃ c, columns[j]? = some c ∧ if c.target? = some key then becomes v v' else v' = v

/-- The rows of the table are rewritten, and all else of it is as it was, identities included. -/
structure Table.Rewrites (key : TableKey) (becomes : Value → Value → Prop) (t t' : Table) :
    Prop where
  frame : t' = { t with rows := t'.rows }
  rows : List.Forall₂ (RowRewrites t.columns key becomes) t.rows t'.rows

/-- What is given is left of one table, and all of the others. They are rewritten where they link
to that table, and all else in the group is as it was. -/
structure Group.Rewrites (key : TableKey) (becomes : Value → Value → Prop) (left : Table)
    (g g' : Group) : Prop where
  frame : g' = { g with tables := g'.tables }
  tables : ∀ k : Nat, Option.Rel (Table.Rewrites key becomes)
    (if k = key then some left else g.table? k) (g'.table? k)

theorem Table.WellFormed.rewrites {t : Table} (hw : t.WellFormed) {key : TableKey}
    {becomes : Value → Value → Prop} {f : Value → Value}
    (hf : ∀ c v, t.Holds c v → c.target? = some key → becomes v (f v)) :
    Rewrites key becomes t (t.mapLinks key f) where
  frame := rfl
  rows := by
    refine List.forall₂_map_right_iff.mpr (List.forall₂_same.mpr fun r hr => ⟨by simp, ?_⟩)
    intro j v v' hv hv'
    have hj : j < t.columns.length := by
      have hlt := (List.getElem?_eq_some_iff.mp hv).1
      rwa [hw.width r hr] at hlt
    have hc : t.columns[j]? = some t.columns[j] := List.getElem?_eq_getElem hj
    refine ⟨t.columns[j], hc, ?_⟩
    simp only [List.getElem?_mapIdx, hv, hc, Option.map_some, Option.any_some, Option.some.injEq,
      decide_eq_true_eq] at hv'
    subst hv'
    split
    next hkey => exact hf _ v ⟨j, r, hc, hr, hv⟩ hkey
    next => rfl

namespace Group
variable {g : Group} {key : TableKey} {t : Table} {i : Nat}

theorem WellFormed.rewrites (h : g.WellFormed) (ht : g.table? key = some t) {left : Table}
    (hleft : left.WellFormed) (hsub : ∀ c v, left.Holds c v → t.Holds c v)
    {becomes : Value → Value → Prop} {f : Value → Value}
    (hf : ∀ (k : Nat) u c v, g.table? k = some u → u.Holds c v → c.target? = some key →
      becomes v (f v)) :
    Rewrites key becomes left g ((g.put key left).mapLinks key f) where
  frame := rfl
  tables k := by
    rw [table?_mapLinks, table?_put]
    by_cases hk : k = key
    · subst hk
      simp only [if_true]
      exact .some (hleft.rewrites fun c v hv => hf k t c v ht (hsub c v hv))
    · simp only [if_neg hk]
      cases hu : g.table? k with
      | none => exact .none
      | some u => exact .some ((h.tables k u hu).rewrites fun c v => hf k u c v hu)

/-- Columns that say where links go hold links only. -/
theorem WellFormed.linking (h : g.WellFormed) {k : Nat} {u : Table} {c : Column} {v : Value}
    (hu : g.table? k = some u) (hv : u.Holds c v) (hc : c.target? = some key) : v.Linking := by
  have hw := h.tables k u hu
  have hlink : c.type.isLinkLike = true := by rw [← hw.linked c hv.column, hc]; rfl
  rcases (hw.cells c v hv).linked hlink with rfl | ⟨p, rfl, -⟩ | ⟨ps, rfl, -⟩
  · exact .inl rfl
  · exact .inr (.inl ⟨p, rfl⟩)
  · exact .inr (.inr ⟨ps, rfl⟩)

/-- After a row is removed, what linked to it is gone and all other links lead where they led. -/
theorem WellFormed.removeRow_rewrites (h : g.WellFormed) (ht : g.table? key = some t)
    (hi : i < t.size) : ∃ g', g.removeRow key i = (.ok (), g') ∧
      Rewrites key (Value.Keeps i fun p p' => ∃ id, g.rowId? key p = some id ∧
        g'.rowId? key p' = some id) (t.withoutRow i) g g' := by
  have hw := h.tables key t ht
  have hremove : t.removeRow i = .ok (t.withoutRow i) :=
    bind_eq_ok.mpr ⟨t.rows[i], Table.row_eq_ok.mpr (List.getElem?_eq_getElem hi), rfl⟩
  have hgroup : g.removeRow key i = (.ok (),
      (g.put key (t.withoutRow i)).mapLinks key (.afterRowRemoved i)) := by
    rw [Group.removeRow, overwrite_of_ok (f := (·.removeRow i)) ht hremove]
  refine ⟨_, hgroup, h.rewrites ht (hw.removeRow hremove)
    (fun _ _ hv => hv.of_rows List.eraseIdx_subset) fun k u c v hu hv hc => ?_⟩
  refine (h.linking hu hv hc).keeps fun p hp hne => ?_
  obtain ⟨into, w, hinto, hw', hlt⟩ := h.links k u c v hu hv p hp
  obtain rfl := Option.some.inj (hc.symm.trans hinto)
  obtain rfl := Option.some.inj (ht.symm.trans hw')
  obtain ⟨id, hid⟩ := hw.rowId?_of_lt hlt
  refine ⟨id, (rowId?_of_table? ht p).trans hid, ?_⟩
  rw [rowId?, table?_mapLinks, table?_put, if_pos rfl, Option.map_some, Option.bind_some,
    Table.rowId?_mapLinks, Table.rowId?_withoutRow, Table.back_of_removed hne, hid]

/-- After a table is cleared, no link leads to it. -/
theorem WellFormed.clearTable_rewrites (h : g.WellFormed) (ht : g.table? key = some t) :
    ∃ g', g.clearTable key = (.ok (), g') ∧ Rewrites key Value.Empties t.clear g g' := by
  have hgroup : g.clearTable key =
      (.ok (), (g.put key t.clear).mapLinks key .afterRowsCleared) := by
    rw [Group.clearTable, overwrite_of_ok (f := fun t => .ok t.clear) ht rfl]
  exact ⟨_, hgroup, h.rewrites ht (h.tables key t ht).clear
    (fun _ _ hv => hv.of_rows (List.nil_subset _)) fun k u c v hu hv hc =>
      (h.linking hu hv hc).empties⟩

end Group
end SnapshotStore
