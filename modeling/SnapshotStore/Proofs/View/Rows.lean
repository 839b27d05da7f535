import SnapshotStore.Proofs.Connection.Handover
import SnapshotStore.Proofs.View

/-!
The rows that views list. A query finds only rows that its table has, and a view that is sorted,
thinned out or synced lists no others than it listed before or has found anew. So a view that a run
hands back lists only rows that its table has in the version that the run was evaluated at.
-/

namespace SnapshotStore

namespace View
variable {v v' : View} {t : Table}

theorem sort_perm (v : View) (t : Table) (keys : List SortKey) (d : Disorder) :
    (v.sort t keys d).2.rows.Perm v.rows := by
  obtain ⟨_, _, hperm, hv⟩ := v.sort_reorders t keys d
  rw [hv]
  exact hperm

theorem distinct_eq_ok {column : Nat} (h : v.distinct t column = .ok v') :
    t.checkDistinct column = .ok () ∧ ∃ cells,
      (v.rows.mapM fun row => return (row, ← t.get column row)) = .ok cells ∧
      v' = { v with rows := firstOfEach [] cells, distinctColumn? := some column } := by
  simp only [distinct, bind_eq_ok, pure_eq_ok] at h
  obtain ⟨_, -, _, hcheck, cells, hcells, rfl⟩ := h
  exact ⟨hcheck, cells, hcells, rfl⟩

theorem firstOfEach_subset (seen : List Value) (cells : List (Nat × Value)) :
    firstOfEach seen cells ⊆ cells.map (·.1) := by
  induction cells generalizing seen with
  | nil => exact List.Subset.refl _
  | cons cell rest ih =>
      obtain ⟨row, x⟩ := cell
      unfold firstOfEach
      split
      · exact List.subset_cons_of_subset row (ih seen)
      · exact List.cons_subset_cons row (ih _)

theorem distinct_rows {column : Nat} (h : v.distinct t column = .ok v') : v'.rows ⊆ v.rows := by
  obtain ⟨-, cells, hcells, rfl⟩ := distinct_eq_ok h
  refine List.Subset.trans (firstOfEach_subset [] cells) fun row hrow => ?_
  obtain ⟨cell, hcell, rfl⟩ := List.mem_map.mp hrow
  obtain ⟨row', hrow', hget⟩ := mapM_eq_ok hcells cell hcell
  simp only [bind_eq_ok, pure_eq_ok] at hget
  obtain ⟨_, -, rfl⟩ := hget
  exact hrow'

/-- After a sync that found rows, whole or torn, a view lists rows among them. -/
theorem sync_rows {rows : List Nat} (ha : v.isAttached t = true)
    (hfound : v.query.findAll t v.window = .ok rows) : (v.sync t).2.rows ⊆ rows := by
  have harranged := (v.arrange_perm t rows).subset
  rw [sync_of_found ha hfound]
  split
  next => exact harranged
  next v' hthin =>
    unfold thinAgain at hthin
    split at hthin
    · exact List.Subset.trans (distinct_rows hthin) harranged
    · exact Except.ok.inj hthin ▸ harranged

theorem get_of_row {column position row : Nat} (ha : v.isAttached t = true)
    (hrow : v.rows[position]? = some row) : v.get t column position = t.get column row := by
  rw [get, checkAttached_of_attached ha, rowIndex, hrow]
  rfl

end View

/-- The size of a table that the open transaction sees, zero if it sees no such table. -/
def Context.tableSize (c : Context) (key : TableKey) : Nat :=
  match c.group with
  | .ok g => (g.table? key).elim 0 Table.size
  | .error _ => 0

theorem Context.tableSize_of_seen {c : Context} {g : Group} {key : TableKey} {t : Table}
    (hg : c.group = .ok g) (ht : g.table? key = some t) : c.tableSize key = t.size := by
  simp only [tableSize, hg, ht, Option.elim_some]

/-- The view lists only rows that its table has in the open transaction. -/
def View.Current (v : View) (c : Context) : Prop := v.Within (c.tableSize v.table)

theorem Request.evaluateOn_within {r : Request} {q : Query} {t : Table} {v : View}
    (h : r.evaluateOn q t = .ok (.view v)) : v.Within t.size := by
  cases r with
  | find | count | aggregate => simp [evaluateOn] at h
  | findAll start stop limit =>
      simp only [evaluateOn, bind_eq_ok, pure_eq_ok] at h
      obtain ⟨_, -, window, -, v', hv, he⟩ := h
      exact Found.view.inj he ▸ View.ofQuery_within hv
  | findAllSorted start stop limit keys =>
      obtain ⟨_, ks, u, hu, he⟩ := evaluateOn_sorted h
      obtain rfl := Found.view.inj he
      exact (View.ofQuery_within hu).mono (SortKey.sort_perm t ks u.rows).subset
  | distinct column =>
      simp only [evaluateOn, bind_eq_ok, pure_eq_ok] at h
      obtain ⟨_, -, c, -, _, -, u, hu, v', hdistinct, he⟩ := h
      exact Found.view.inj he ▸ (View.ofQuery_within hu).mono (View.distinct_rows hdistinct)

namespace Connection
variable {c c' : Connection} {e : Envelope} {v : View}

/-- A view that a run hands back lists rows that its table has where the run is left. -/
theorem evaluate_current {q : Query} {r : Request} {x : Response} (h : c.evaluate q r = .ok x)
    (he : e ∈ x.envelope?) (hv : e.payload = .view v) : v.Current c.context := by
  simp only [evaluate, bind_eq_ok] at h
  obtain ⟨g, hg, t, ht, found, hfound, hx⟩ := h
  cases found with
  | row index? =>
      cases index? with
      | none =>
          obtain rfl := Except.ok.inj hx
          exact nomatch he
      | some index =>
          obtain ⟨e', he', rfl⟩ := map_eq_ok.mp hx
          obtain rfl := Option.some.inj he
          exact nomatch (enclose_eq_ok he').1.symm.trans hv
  | view u =>
      obtain ⟨e', he', rfl⟩ := map_eq_ok.mp hx
      obtain rfl := Option.some.inj he
      obtain rfl := Payload.view.inj ((enclose_eq_ok he').1.symm.trans hv)
      obtain ⟨htable, -⟩ := Request.evaluateOn_in hfound
      obtain ⟨hkey, -⟩ := Query.check_eq_ok (Request.evaluateOn_check hfound)
      have hseen := Group.requireTable_eq_ok.mp ht
      rw [View.Current, htable, hkey, Context.tableSize_of_seen hg hseen]
      exact Request.evaluateOn_within hfound
  | count n | value x' =>
      obtain rfl := Except.ok.inj hx
      exact nomatch he

theorem runQuery_current {request : Request} {version : Version} {x : Response}
    (h : runQuery e request c = .ok (version, x) c') :
    ∀ e' ∈ x.envelope?, ∀ v, e'.payload = .view v → v.Current c'.context := by
  obtain ⟨q, -, hx⟩ := runQuery_evaluates h
  exact fun e' he v hv => evaluate_current hx he hv

theorem runBatch_current {items : List BatchItem} {version : Version} {xs : List Response}
    (h : runBatch items c = .ok (version, xs) c') :
    ∀ x ∈ xs, ∀ e' ∈ x.envelope?, ∀ v, e'.payload = .view v → v.Current c'.context := by
  intro x hx
  obtain ⟨q, request, hx⟩ := evaluates_of_mem_runBatch h x hx
  exact fun e' he v hv => evaluate_current hx he hv

end Connection
end SnapshotStore
