import SnapshotStore.Proofs.Table.WellFormed
import SnapshotStore.Proofs.Value.Order
import SnapshotStore.View

/-!
Which rows can be sorted. Values are in a total order, and so the rows that a table has are in a
total preorder under any sort keys. A row that is gone is equal to every row, which may put an end
to that; the rows of the view then come out in some order, and the sort may panic. The rows that a
query finds are there, so nothing of this happens to a sync or to a sorted search.
-/

namespace SnapshotStore

/-! Rows that a query finds -/

theorem Window.rows_ascending (w : Window) (size : Nat) : (w.rows size).Pairwise (· < ·) :=
  List.pairwise_lt_range'

theorem Query.matching_lt {q : Query} {t : Table} {w : Window} {i : Nat}
    (h : i ∈ q.matching t w) : i < t.size := by
  have hrows : i ∈ w.rows t.size := by
    unfold matching Window.cut at h
    split at h
    · exact (List.mem_filter.mp (List.mem_of_mem_take h)).1
    · exact (List.mem_filter.mp h).1
  have hrange := List.mem_range'_1.mp hrows
  omega

theorem Query.findAll_lt {q : Query} {t : Table} {w : Window} {rows : List Nat}
    (h : q.findAll t w = .ok rows) : ∀ row ∈ rows, row < t.size := by
  simp only [findAll, bind_eq_ok, pure_eq_ok] at h
  obtain ⟨_, -, rfl⟩ := h
  exact fun row => matching_lt

namespace SortKey
variable {t : Table} {key : SortKey} {keys : List SortKey} {P : Nat → Prop} {rows sorted : List Nat}
  {a b : Nat}

/-! Comparisons -/

theorem compareRows_swap : key.compareRows t b a = (key.compareRows t a b).swap := by
  have hswap {x y : Value} : y.order x = (x.order y).swap := Std.OrientedCmp.eq_swap
  unfold compareRows
  cases t.get key.column a <;> cases t.get key.column b <;> try rfl
  cases key.ascending <;> exact hswap

theorem compareAll_swap : compareAll t keys b a = (compareAll t keys a b).swap := by
  induction keys with
  | nil => rfl
  | cons key rest ih => rw [compareAll, compareAll, compareRows_swap, ih, Ordering.swap_then]

/-- Without two cells to compare rows are equal. -/
theorem compareRows_of_gone (h : t.columnCount ≤ key.column ∨ t.size ≤ a ∨ t.size ≤ b) :
    key.compareRows t a b = .eq := by
  unfold compareRows
  split
  next ha hb =>
    obtain ⟨hcolumn, ha⟩ := Table.lt_of_get ha
    obtain ⟨-, hb⟩ := Table.lt_of_get hb
    omega
  next => rfl

/-- A row that is gone is equal to all rows. -/
theorem compareAll_of_gone (h : t.size ≤ a ∨ t.size ≤ b) : compareAll t keys a b = .eq := by
  induction keys with
  | nil => rfl
  | cons key rest ih =>
      rw [compareAll, compareRows_of_gone (.inr h), ih]
      rfl

/-- Rows that are there are in a total preorder under one key. -/
theorem compareRows_trans (there : ∀ row, P row → row < t.size) :
    Std.TransCmp fun a b : Subtype P => key.compareRows t a b := by
  by_cases hcolumn : key.column < t.columnCount
  · obtain ⟨value, hvalue⟩ := Classical.axiomOfChoice fun row : Subtype P =>
      Table.get_of_lt hcolumn (there row row.2)
    have hcompare : (fun a b : Subtype P => key.compareRows t a b) = fun a b =>
        if key.ascending then (value a).order (value b) else (value b).order (value a) := by
      funext a b
      simp only [compareRows, hvalue]
    rw [hcompare]
    have htrans : Std.TransCmp Value.order := inferInstance
    cases key.ascending with
    | true => exact { eq_swap := htrans.eq_swap, isLE_trans := htrans.isLE_trans }
    | false =>
        exact { eq_swap := htrans.eq_swap, isLE_trans := fun hab hbc => htrans.isLE_trans hbc hab }
  · have hcompare : (fun a b : Subtype P => key.compareRows t a b) = fun _ _ => .eq := by
      funext a b
      exact compareRows_of_gone (.inl (Nat.le_of_not_lt hcolumn))
    rw [hcompare]
    exact { eq_swap := rfl, isLE_trans := fun _ _ => rfl }

/-- So they are under all keys. -/
theorem compareAll_trans (there : ∀ row, P row → row < t.size) :
    Std.TransCmp fun a b : Subtype P => compareAll t keys a b := by
  induction keys with
  | nil => exact { eq_swap := rfl, isLE_trans := fun _ _ => rfl }
  | cons key rest ih =>
      have hfirst : Std.TransCmp fun a b : Subtype P => key.compareRows t a b :=
        compareRows_trans there
      exact inferInstanceAs (Std.TransCmp (compareLex
        (fun a b : Subtype P => key.compareRows t a b) fun a b => compareAll t rest a b))

theorem orders_of_there (there : ∀ row ∈ rows, row < t.size) : Orders t keys rows := .inl there

theorem gone_of_disordered (h : ¬Orders t keys rows) : ∃ row ∈ rows, t.size ≤ row := by
  by_contra hnone
  simp only [not_exists, not_and, Nat.not_le] at hnone
  exact h (orders_of_there hnone)

/-- Keys order rows exactly if the rows are in a total preorder under them. -/
theorem orders_iff :
    Orders t keys rows ↔ Std.TransCmp fun a b : {row // row ∈ rows} => compareAll t keys a b := by
  constructor
  · rintro (there | same)
    · exact compareAll_trans there
    · exact {
        eq_swap := compareAll_swap
        isLE_trans := fun {a _ c} _ _ => by rw [same a a.2 c c.2]; rfl }
  · intro h
    by_contra hdisordered
    obtain ⟨gone, hmem, hgone⟩ := gone_of_disordered hdisordered
    -- By way of the row that is gone each row is at most each other row.
    have hle (a b : {row // row ∈ rows}) : (compareAll t keys a b).isLE := by
      have hfirst : (compareAll t keys a gone).isLE := by rw [compareAll_of_gone (.inr hgone)]; rfl
      have hsecond : (compareAll t keys gone b).isLE := by rw [compareAll_of_gone (.inl hgone)]; rfl
      exact h.isLE_trans (b := ⟨gone, hmem⟩) hfirst hsecond
    refine hdisordered (.inr fun a ha b hb => ?_)
    exact h.isLE_antisymm (hle ⟨a, ha⟩ ⟨b, hb⟩) (hle ⟨b, hb⟩ ⟨a, ha⟩)

/-! No row is lost -/

theorem insertRow_perm (less : Nat → Nat → Bool) (row : Nat) (rows : List Nat) :
    (insertRow less row rows).Perm (row :: rows) := by
  induction rows with
  | nil => exact .refl _
  | cons r rest ih =>
      unfold insertRow
      split
      · exact (ih.cons r).trans (.swap row r rest)
      · exact .refl _

theorem foldl_insertRow_perm (less : Nat → Nat → Bool) (rows sorted : List Nat) :
    (rows.foldl (fun sorted row => insertRow less row sorted) sorted).Perm (rows ++ sorted) := by
  induction rows generalizing sorted with
  | nil => exact .refl _
  | cons r rest ih =>
      rw [List.foldl_cons]
      refine (ih (insertRow less r sorted)).trans ?_
      exact ((insertRow_perm less r sorted).append_left rest).trans List.perm_middle

/-- Sorting neither loses rows nor brings new ones. -/
theorem sort_perm (t : Table) (keys : List SortKey) (rows : List Nat) :
    (sort t keys rows).Perm rows := by
  unfold sort sortRows
  refine (List.reverse_perm _).trans ((foldl_insertRow_perm _ rows []).trans ?_)
  rw [List.append_nil]

end SortKey

theorem Disorder.arrange_perm (d : Disorder) (rows : List Nat) : (d.arrange rows).Perm rows := by
  unfold arrange
  split
  next h => exact List.isPerm_iff.mp h
  next => exact .refl rows

namespace View
variable {v v' : View} {t : Table} {keys : List SortKey} {d : Disorder} {e : Error}

/-- The view lists only rows below the number. -/
def Within (v : View) (size : Nat) : Prop := ∀ row ∈ v.rows, row < size

theorem Within.mono {size : Nat} (h : v.Within size) (sub : v'.rows ⊆ v.rows) : v'.Within size :=
  fun row hrow => h row (sub hrow)

theorem ofQuery_within {q : Query} {w : Window} (h : View.ofQuery t q w = .ok v) :
    v.Within t.size := by
  simp only [View.ofQuery, bind_eq_ok, pure_eq_ok] at h
  obtain ⟨rows, hrows, rfl⟩ := h
  exact Query.findAll_lt hrows

theorem checkAttached_of_attached (ha : v.isAttached t = true) : v.checkAttached t = .ok () :=
  if_pos ha

/-- Where the keys order the rows, there is one outcome of a sort. -/
theorem sort_of_orders (ha : v.isAttached t = true) (h : SortKey.Orders t keys v.rows)
    (d : Disorder) : v.sort t keys d =
      (.ok (), { v with rows := SortKey.sort t keys v.rows, sortKeys? := some keys }) := by
  simp only [sort, checkAttached_of_attached ha, if_pos h]

theorem sort_of_within (ha : v.isAttached t = true) (hrows : v.Within t.size)
    (keys : List SortKey) (d : Disorder) : v.sort t keys d =
      (.ok (), { v with rows := SortKey.sort t keys v.rows, sortKeys? := some keys }) :=
  sort_of_orders ha (SortKey.orders_of_there hrows) d

/-- However a sort ends, the rows are still there, and only their order and the keys that the view
remembers are others. -/
theorem sort_reorders (v : View) (t : Table) (keys : List SortKey) (d : Disorder) :
    ∃ rows keys?, rows.Perm v.rows ∧
      (v.sort t keys d).2 = { v with rows, sortKeys? := keys? } := by
  unfold sort
  split
  · exact ⟨v.rows, v.sortKeys?, .refl _, rfl⟩
  · split
    · exact ⟨_, some keys, SortKey.sort_perm t keys v.rows, rfl⟩
    · dsimp only
      split
      · exact ⟨_, v.sortKeys?, d.arrange_perm v.rows, rfl⟩
      · exact ⟨_, some keys, d.arrange_perm v.rows, rfl⟩

/-- Some rows of the view are gone, so that the keys do not order them, and to sort them panics. -/
structure Panics (v : View) (t : Table) (keys : List SortKey) (d : Disorder) (reason : String) :
    Prop where
  gone : ∃ row ∈ v.rows, t.size ≤ row
  disordered : ¬SortKey.Orders t keys v.rows
  panic : d.panic? = some reason

theorem orders_of_sort (h : (v.sort t keys .panic).1 = .ok ()) : SortKey.Orders t keys v.rows := by
  by_contra horders
  cases hcheck : v.checkAttached t with
  | error e => simp [sort, hcheck] at h
  | ok => simp [sort, hcheck, if_neg horders, Disorder.panic] at h

/-- A sort fails before it has begun, or it panics on the way. -/
theorem sort_eq_error (h : (v.sort t keys d).1 = .error e) :
    v.checkAttached t = .error e ∧ (v.sort t keys d).2 = v ∨
      ∃ reason, e = .panicked reason ∧ v.Panics t keys d reason ∧
        (v.sort t keys d).2 = { v with rows := d.arrange v.rows } := by
  cases hcheck : v.checkAttached t with
  | error e' =>
      rw [sort, hcheck] at h ⊢
      obtain rfl := Except.error.inj h
      exact .inl ⟨rfl, rfl⟩
  | ok =>
      by_cases horders : SortKey.Orders t keys v.rows
      · simp only [sort, hcheck, if_pos horders] at h
        exact nomatch h
      · cases hpanic : d.panic? with
        | none =>
            simp only [sort, hcheck, if_neg horders, hpanic] at h
            exact nomatch h
        | some reason =>
            simp only [sort, hcheck, if_neg horders, hpanic] at h ⊢
            have hgone := SortKey.gone_of_disordered horders
            exact .inr ⟨reason, (Except.error.inj h).symm, ⟨hgone, horders, hpanic⟩, trivial⟩

end View
end SnapshotStore
