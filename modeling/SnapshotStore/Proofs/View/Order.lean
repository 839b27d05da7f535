import SnapshotStore.Proofs.Value.Order
import SnapshotStore.Proofs.View

/-!
The order that views are sorted in. Rows that are sorted by keys that order them come out in this
order, and the keys of a request have columns of the table.
-/

namespace SnapshotStore

namespace SortKey
variable {t : Table} {key : SortKey} {keys : List SortKey} {P : Nat → Prop} {rows sorted : List Nat}
  {less : Nat → Nat → Bool} {row : Nat}

theorem column_lt_of_check (h : check t keys = .ok ()) (hkey : key ∈ keys) :
    key.column < t.columnCount := by
  unfold check at h
  split at h
  · simp at h
  · have hone := forM_eq_ok.mp h key hkey
    simp only [checkOne, bind_eq_ok, Table.columnType_eq_ok] at hone
    obtain ⟨_, ⟨c, hc, -⟩, -⟩ := hone
    exact (List.getElem?_eq_some_iff.mp hc).1

/-- Keys that pass their check can compare all rows that are there. -/
theorem cells_of_checkKeys {requested : List (Int × Bool)}
    (h : Request.checkKeys t requested = .ok keys) :
    ∀ key ∈ keys, ∀ row, row < t.size → ∃ x, t.get key.column row = .ok x := by
  obtain ⟨_, -, h⟩ := bind_eq_ok.mp h
  obtain ⟨_, hcheck, h⟩ := bind_eq_ok.mp h
  obtain rfl := pure_eq_ok.mp h
  exact fun _ hkey _ hrow => Table.get_of_lt (column_lt_of_check hcheck hkey) hrow

/-! Insertion -/

/-- No row is below one that comes after it. -/
def Falling (less : Nat → Nat → Bool) (rows : List Nat) : Prop :=
  rows.Pairwise fun a b => less a b = false

/-- One way at most, and if it is below neither of two in a row, not below the last. -/
structure Ranks (less : Nat → Nat → Bool) (rows : List Nat) : Prop where
  asymm : ∀ a ∈ rows, ∀ b ∈ rows, less a b = true → less b a = false
  trans : ∀ a ∈ rows, ∀ b ∈ rows, ∀ c ∈ rows,
    less a b = false → less b c = false → less a c = false

theorem Ranks.mono (h : Ranks less rows) (sub : sorted ⊆ rows) : Ranks less sorted where
  asymm a ha b hb := h.asymm a (sub ha) b (sub hb)
  trans a ha b hb c hc := h.trans a (sub ha) b (sub hb) c (sub hc)

theorem insertRow_falling (h : Ranks less (row :: sorted)) (hs : Falling less sorted) :
    Falling less (insertRow less row sorted) := by
  induction sorted with
  | nil => exact List.pairwise_singleton _ row
  | cons r rest ih =>
      obtain ⟨hr, hrest⟩ := List.pairwise_cons.mp hs
      unfold insertRow
      split
      next hless =>
        refine List.pairwise_cons.mpr ⟨fun x hx => ?_, ih (h.mono ?_) hrest⟩
        · rcases List.mem_cons.mp ((insertRow_perm less row rest).mem_iff.mp hx) with rfl | hx
          · exact h.asymm _ List.mem_cons_self r (by simp) hless
          · exact hr x hx
        · exact List.cons_subset_cons row (List.subset_cons_self r rest)
      next hless =>
        rw [Bool.not_eq_true] at hless
        refine List.pairwise_cons.mpr ⟨fun x hx => ?_, hs⟩
        rcases List.mem_cons.mp hx with rfl | hx
        · exact hless
        · exact h.trans row List.mem_cons_self r (by simp) x (by simp [hx]) hless (hr x hx)

theorem foldl_insertRow_falling (h : Ranks less (rows ++ sorted)) (hs : Falling less sorted) :
    Falling less (rows.foldl (fun sorted row => insertRow less row sorted) sorted) := by
  induction rows generalizing sorted with
  | nil => exact hs
  | cons r rest ih =>
      rw [List.foldl_cons]
      refine ih (h.mono fun x hx => ?_) (insertRow_falling (h.mono fun x hx => ?_) hs)
      · rw [List.mem_append, (insertRow_perm less r sorted).mem_iff, List.mem_cons] at hx
        rw [List.cons_append, List.mem_cons, List.mem_append]
        exact or_left_comm.mp hx
      · rcases List.mem_cons.mp hx with rfl | hx <;> simp [*]

theorem Orders.ranks (h : Orders t keys rows) :
    Ranks (fun a b => compareAll t keys a b = .lt) rows where
  asymm a _ b _ hab := by
    have hswap : compareAll t keys b a = (compareAll t keys a b).swap := compareAll_swap
    simp only [decide_eq_true_eq] at hab
    simp [hswap, hab]
  trans a ha b hb c hc hab hbc := by
    simp only [decide_eq_false_iff_not, ← Ordering.isGE_iff_ne_lt] at hab hbc ⊢
    exact @Std.TransCmp.isGE_trans _ _ (orders_iff.mp h) ⟨a, ha⟩ ⟨b, hb⟩ ⟨c, hc⟩ hab hbc

/-- After sorting no row is above one that comes after it. -/
theorem sort_sorted (h : Orders t keys rows) :
    (sort t keys rows).Pairwise fun a b => (compareAll t keys a b).isLE := by
  have hranks := h.ranks
  have hfalling : Falling (fun a b => compareAll t keys a b = .lt) (rows.foldl _ []) :=
    foldl_insertRow_falling (by rwa [List.append_nil]) .nil
  refine List.pairwise_reverse.mpr (hfalling.imp fun {a b} hab => ?_)
  rw [compareAll_swap, Ordering.isLE_swap]
  simpa [Ordering.isGE_iff_ne_lt] using hab

end SortKey
end SnapshotStore
