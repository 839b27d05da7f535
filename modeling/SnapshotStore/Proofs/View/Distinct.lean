import SnapshotStore.Proofs.View.Sorting

/-!
Thinning out rows that stand in any order and may be listed twice. The rows that stay are told by
the places they stood at: a place stays if no place before it has an equal value. So every row has a
row with its value that stays, at its place or before, and to thin out again drops nothing.
-/

namespace SnapshotStore
namespace View
variable {t : Table} {v : View} {c i row : Nat} {column : Column} {rows kept : List Nat}
  {cells : List (Nat × Value)}

/-- The two rows have equal values in the column. -/
def Agree (t : Table) (c a b : Nat) : Prop :=
  ∃ x y, t.get c a = .ok x ∧ t.get c b = .ok y ∧ x.equal y = true

/-- No row before the place has the value of the row there. -/
def ComesFirst (t : Table) (c : Nat) (rows : List Nat) (place : Nat) : Prop :=
  ∃ row, rows[place]? = some row ∧
    ∀ (i r : Nat), i < place → rows[i]? = some r → ¬Agree t c r row

/-- Of the rows with one value the first is kept, and it only. -/
structure KeepsFirst (t : Table) (c : Nat) (rows kept : List Nat) : Prop where
  sublist : kept.Sublist rows
  /-- The rows that are kept are those at the places that come first with their value, and each row
  has such a place at its own or before. -/
  places : ∃ places : List Nat, places.Pairwise (· < ·) ∧ kept.map some = places.map (rows[·]?) ∧
    (∀ p, p ∈ places ↔ ComesFirst t c rows p) ∧
    ∀ i row, rows[i]? = some row → ∃ p r, p ∈ places ∧ p ≤ i ∧ rows[p]? = some r ∧ Agree t c r row
  apart : kept.Pairwise fun a b => ¬Agree t c a b

/-! The rows that are kept, by their places -/

/-- What is kept depends on the values alone, not on what the rows are called. -/
theorem firstOfEach_relabel (f : Nat → Nat) (seen : List Value) (cells : List (Nat × Value)) :
    firstOfEach seen (cells.map fun cell => (f cell.1, cell.2)) =
      (firstOfEach seen cells).map f := by
  induction cells generalizing seen with
  | nil => rfl
  | cons cell rest ih =>
      rw [List.map_cons, firstOfEach, firstOfEach, ih, ih]
      split
      · rfl
      · rw [List.map_cons]

theorem firstOfEach_of_apart {seen : List Value} (hcells : cells.Pairwise fun a b => a.2 ≠ b.2)
    (hnew : ∀ cell ∈ cells, cell.2 ∉ seen)
    (hequal : ∀ cell ∈ cells, ∀ x : Value, x.equal cell.2 = decide (x = cell.2)) :
    firstOfEach seen cells = cells.map (·.1) := by
  induction cells generalizing seen with
  | nil => rfl
  | cons cell rest ih =>
      obtain ⟨hcell, hrest⟩ := List.pairwise_cons.mp hcells
      have hseen : ¬seen.any (·.equal cell.2) = true := by
        simp only [hequal cell (.head _), List.any_eq_true, decide_eq_true_eq, exists_eq_right]
        exact hnew cell (.head _)
      rw [firstOfEach, if_neg hseen, List.map_cons]
      congr 1
      apply ih hrest
      case hnew =>
        intro other hother hmem
        cases List.mem_append.mp hmem with
        | inl hold => exact hnew other (.tail _ hother) hold
        | inr hlast => exact hcell other hother (List.mem_singleton.mp hlast).symm
      case hequal => exact fun other hother => hequal other (.tail _ hother)

theorem row_at : (cells.map (·.1))[i]? = some row ↔ ∃ x, cells[i]? = some (row, x) := by
  simp [Prod.exists]

/-- The cells with the places they stand at in the stead of their rows. -/
def placed (cells : List (Nat × Value)) : List (Nat × Value) :=
  cells.zipIdx.map fun cell => (cell.2, cell.1.2)

theorem mem_placed {x : Value} : (i, x) ∈ placed cells ↔ ∃ row, cells[i]? = some (row, x) := by
  simp only [placed, List.mem_map, Prod.exists, List.mem_zipIdx_iff_getElem?, Prod.mk.injEq]
  constructor
  · intro h
    obtain ⟨row, y, j, hj, rfl, rfl⟩ := h
    exact ⟨row, hj⟩
  · intro h
    obtain ⟨row, hrow⟩ := h
    exact ⟨row, x, i, hrow, rfl, rfl⟩

theorem placed_ascending (cells : List (Nat × Value)) :
    (placed cells).Pairwise fun a b => a.1 < b.1 := by
  have hplaces : (placed cells).map (·.1) = List.range cells.length := by
    rw [placed, List.map_map, List.range_eq_range', ← List.zipIdx_map_snd 0 cells]
    rfl
  apply List.pairwise_map.mp
  rw [hplaces]
  exact List.pairwise_lt_range

/-- The rows that are kept are those at the places that are kept. -/
theorem firstOfEach_placed (cells : List (Nat × Value)) :
    (firstOfEach [] cells).map some =
      (firstOfEach [] (placed cells)).map ((cells.map (·.1))[·]?) := by
  have hrows :
      (placed cells).map (fun cell => ((cells.map (·.1)).getD cell.1 0, cell.2)) = cells := by
    apply List.ext_getElem?
    intro i
    simp only [placed, List.map_map, List.getElem?_map, List.getElem?_zipIdx]
    cases h : cells[i]? with
    | none => rfl
    | some cell => simp [h]
  have hkept := firstOfEach_relabel ((cells.map (·.1)).getD · 0) [] (placed cells)
  rw [hrows] at hkept
  rw [hkept, List.map_map]
  apply List.map_congr_left
  intro p hp
  obtain ⟨cell, hcell, rfl⟩ := List.mem_map.mp (firstOfEach_subset [] (placed cells) hp)
  obtain ⟨row, hrow⟩ := mem_placed.mp hcell
  simp [hrow]

/-! Thinning out -/

section
variable (hw : t.WellFormed) (hcheck : t.checkDistinct c = .ok ())
include hw hcheck

theorem agree_iff {a b : Nat} {x y : Value} (hx : t.get c a = .ok x) (hy : t.get c b = .ok y) :
    Agree t c a b ↔ x = y := by
  simp only [Agree, hx, hy, Except.ok.injEq, exists_and_left, exists_eq_left',
    equal_of_checkDistinct hw hcheck hy, decide_eq_true_eq]

theorem Agree.trans {a b d : Nat} (hab : Agree t c a b) (hbd : Agree t c b d) :
    Agree t c a d := by
  obtain ⟨x, y, hx, hy, hxy⟩ := hab
  obtain ⟨y', z, hy', hz, hyz⟩ := hbd
  obtain rfl := Except.ok.inj (hy.symm.trans hy')
  obtain rfl : y = z := by simpa [equal_of_checkDistinct hw hcheck hz] using hyz
  exact ⟨x, y, hx, hz, hxy⟩

variable (hget : ∀ cell ∈ cells, t.get c cell.1 = .ok cell.2)
include hget

/-- A place is kept if it comes first with its value. -/
theorem mem_firstOfEach_placed :
    i ∈ firstOfEach [] (placed cells) ↔ ComesFirst t c (cells.map (·.1)) i := by
  have hcell : ∀ {j r x}, cells[j]? = some (r, x) → t.get c r = .ok x := fun h =>
    hget _ (List.mem_of_getElem? h)
  have hplaced : ∀ place ∈ placed cells, ∀ x : Value, x.equal place.2 = decide (x = place.2) := by
    intro place hplace x
    obtain ⟨row, hrow⟩ := mem_placed.mp hplace
    exact equal_of_checkDistinct hw hcheck (hcell hrow)
  rw [mem_firstOfEach (R := (· < ·)) (fun _ _ => Nat.lt_asymm) (placed_ascending cells) hplaced]
  constructor
  · intro h
    obtain ⟨x, hx, -, hfirst⟩ := h
    obtain ⟨row, hrow⟩ := mem_placed.mp hx
    refine ⟨row, row_at.mpr ⟨x, hrow⟩, fun j r hj hr hagree => ?_⟩
    obtain ⟨y, hother⟩ := row_at.mp hr
    have hne : y ≠ x := hfirst (j, y) (mem_placed.mpr ⟨r, hother⟩) hj
    exact hne ((agree_iff hw hcheck (hcell hother) (hcell hrow)).mp hagree)
  · intro h
    obtain ⟨row, hrow, hfirst⟩ := h
    obtain ⟨x, hx⟩ := row_at.mp hrow
    refine ⟨x, mem_placed.mpr ⟨row, hx⟩, List.not_mem_nil, fun place hplace hbefore heq => ?_⟩
    obtain ⟨r, hr⟩ := mem_placed.mp hplace
    have hagree := (agree_iff hw hcheck (hcell hr) (hcell hx)).mpr heq
    exact hfirst place.1 r hbefore (row_at.mpr ⟨place.2, hr⟩) hagree

omit hget

/-- Each row has a place that comes first with its value, at its own or before. -/
theorem exists_comesFirst (hthere : ∀ row ∈ rows, row < t.size) (hrow : rows[i]? = some row) :
    ∃ p r, ComesFirst t c rows p ∧ p ≤ i ∧ rows[p]? = some r ∧ Agree t c r row := by
  induction i using Nat.strongRecOn generalizing row with
  | ind i ih =>
      by_cases hbefore : ∃ j r, j < i ∧ rows[j]? = some r ∧ Agree t c r row
      · obtain ⟨j, r, hj, hr, hagree⟩ := hbefore
        obtain ⟨p, first, hp, hle, hfirst, hsame⟩ := ih j hj hr
        exact ⟨p, first, hp, Nat.le_of_lt (Nat.lt_of_le_of_lt hle hj), hfirst,
          hsame.trans hw hcheck hagree⟩
      · obtain ⟨column, hcolumn, -⟩ := checkDistinct_eq_ok.mp hcheck
        obtain ⟨x, hx⟩ := Table.get_of_lt (List.getElem?_eq_some_iff.mp hcolumn).1
          (hthere row (List.mem_of_getElem? hrow))
        refine ⟨i, row, ⟨row, hrow, fun j r hj hr hagree => ?_⟩, Nat.le_refl i, hrow,
          (agree_iff hw hcheck hx hx).mpr rfl⟩
        exact hbefore ⟨j, r, hj, hr, hagree⟩

/-- What is kept of the cells of some rows. -/
theorem keepsFirst_firstOfEach (hthere : ∀ row ∈ cells.map (·.1), row < t.size)
    (hget : ∀ cell ∈ cells, t.get c cell.1 = .ok cell.2) :
    KeepsFirst t c (cells.map (·.1)) (firstOfEach [] cells) := by
  have hplaces := firstOfEach_placed cells
  have hascending : (firstOfEach [] (placed cells)).Pairwise (· < ·) :=
    (List.pairwise_map.mpr (placed_ascending cells)).sublist (firstOfEach_sublist [] _)
  have hfirsts : ∀ p,
      p ∈ firstOfEach [] (placed cells) ↔ ComesFirst t c (cells.map (·.1)) p := fun p =>
    mem_firstOfEach_placed hw hcheck hget
  constructor
  case sublist => exact firstOfEach_sublist [] cells
  case places =>
    refine ⟨firstOfEach [] (placed cells), hascending, hplaces, hfirsts, fun i row hrow => ?_⟩
    obtain ⟨p, r, hp, hle, hr, hagree⟩ := exists_comesFirst hw hcheck hthere hrow
    exact ⟨p, r, (hfirsts p).mpr hp, hle, hr, hagree⟩
  case apart =>
    have hapart : ((firstOfEach [] cells).map some).Pairwise fun a b =>
        ∀ x ∈ a, ∀ y ∈ b, ¬Agree t c x y := by
      rw [hplaces]
      apply List.pairwise_map.mpr
      apply hascending.imp_of_mem
      intro p q _ hq hlt a ha b hb
      obtain ⟨row, hrow, hfirst⟩ := (hfirsts q).mp hq
      obtain rfl := Option.some.inj (hrow.symm.trans hb)
      exact hfirst p a hlt ha
    exact (List.pairwise_map.mp hapart).imp fun h => h _ rfl _ rfl

end

/-- A view whose rows are in its table can be thinned out in every column that may be distinct. Of
each value the first row is kept, null being one value. To do so again changes nothing. -/
theorem distinct_keepsFirst (hw : t.WellFormed) (ha : v.isAttached t = true)
    (hrows : v.Within t.size) (hcolumn : t.columns[c]? = some column)
    (htype : column.type.supportsDistinct = true) : ∃ v', v.distinct t c = .ok v' ∧
      v' = { v with rows := v'.rows, distinctColumn? := some c } ∧
      KeepsFirst t c v.rows v'.rows ∧ v'.distinct t c = .ok v' := by
  have hcheck := checkDistinct_eq_ok.mpr ⟨column, hcolumn, htype⟩
  obtain ⟨v', hv'⟩ := distinct_of_check ha hcheck hrows
  obtain ⟨-, cells, hcells, hshape⟩ := distinct_eq_ok hv'
  obtain ⟨hcells, hget⟩ := cells_of_mapM hcells
  have hkeeps : KeepsFirst t c v.rows v'.rows := by
    rw [hshape, ← hcells]
    exact keepsFirst_firstOfEach hw hcheck (hcells ▸ hrows) hget
  refine ⟨v', hv', by rw [hshape], hkeeps, ?_⟩
  have hattached : v'.isAttached t = true := by
    rw [hshape]
    exact ha
  obtain ⟨v'', hv''⟩ := distinct_of_check hattached hcheck (hrows.mono hkeeps.sublist.subset)
  obtain ⟨-, again, hagain, hsame⟩ := distinct_eq_ok hv''
  obtain ⟨hagain, hget'⟩ := cells_of_mapM hagain
  have hapart : again.Pairwise fun a b => a.2 ≠ b.2 := by
    have hrows := List.pairwise_map.mp (hagain ▸ hkeeps.apart)
    apply hrows.imp_of_mem
    intro a b ha hb hne heq
    exact hne ((agree_iff hw hcheck (hget' a ha) (hget' b hb)).mpr heq)
  have hequal : ∀ cell ∈ again, ∀ x : Value, x.equal cell.2 = decide (x = cell.2) :=
    fun cell hcell x => equal_of_checkDistinct hw hcheck (hget' cell hcell)
  rw [firstOfEach_of_apart hapart (fun _ _ => List.not_mem_nil) hequal, hagain, hshape] at hsame
  rw [hv'', hsame, hshape]

theorem scores_wellFormed : scores.WellFormed where
  named := by decide
  distinct := by decide
  linked := by decide
  width := by decide
  cells := by
    intro c x h
    obtain ⟨j, r, hc, hr, hx⟩ := h
    have htakes : ∀ r ∈ scores.rows, ∀ j < 2, ∀ c ∈ scores.columns[j]?, ∀ x ∈ r[j]?,
        c.takes x = true := by decide
    exact Column.suits_of_takes (htakes r hr j (List.getElem?_eq_some_iff.mp hc).1 c hc x hx)
  identified := rfl
  ids := by decide
  next := by decide

/-- Of the two players without a score the first stays, and so it does of the two with the same. -/
theorem distinct_keepsFirst_scores :
    let v : View := ⟨1, 2, [3, 2, 4, 1, 0, 3], .ofTable scores, .all, none, none⟩
    let points := Column.plain "points" .int true
    scores.WellFormed ∧ v.isAttached scores = true ∧ v.Within scores.size ∧
      scores.columns[0]? = some points ∧ points.type.supportsDistinct = true ∧
      ∃ v', v.distinct scores 0 = .ok v' ∧ v'.rows = [3, 2, 4] ∧
        KeepsFirst scores 0 v.rows v'.rows ∧ v'.distinct scores 0 = .ok v' := by
  intro v points
  have ha : v.isAttached scores = true := rfl
  have hrows : ∀ row ∈ [3, 2, 4, 1, 0, 3], row < 5 := by decide
  have hcolumn : scores.columns[0]? = some points := rfl
  have htype : points.type.supportsDistinct = true := rfl
  obtain ⟨v', hdistinct, -, hkeeps, hagain⟩ :=
    distinct_keepsFirst scores_wellFormed ha hrows hcolumn htype
  obtain rfl := Except.ok.inj hdistinct
  exact ⟨scores_wellFormed, ha, hrows, hcolumn, htype, _, hdistinct, rfl, hkeeps, hagain⟩

end View
end SnapshotStore
