import SnapshotStore.Proofs.Group.Bounds
import SnapshotStore.Proofs.View.Order
import SnapshotStore.Proofs.View.Rows

/-!
What sorting and thinning out keep of the order that rows had. A sort leaves rows that are equal
under its keys as they stood, so rows that are sorted several times are in the order of all the keys
together. To thin rows out keeps of the rows with one value the first in the order they stand in.
-/

namespace SnapshotStore

namespace SortKey
variable {t : Table} {key : SortKey} {keys others : List SortKey} {rows sorted : List Nat}
  {less : Nat → Nat → Bool} {S : Nat → Nat → Prop} {row a b : Nat}

/-! Stability -/

/-- The row comes behind those that are inserted already, and it overtakes only rows above it. -/
theorem insertRow_stable (hrow : ∀ r ∈ sorted, S r row)
    (hs : sorted.Pairwise fun a b => less b a = true ∨ S b a) :
    (insertRow less row sorted).Pairwise fun a b => less b a = true ∨ S b a := by
  induction sorted with
  | nil => exact List.pairwise_singleton _ row
  | cons r rest ih =>
      obtain ⟨hr, hrest⟩ := List.pairwise_cons.mp hs
      unfold insertRow
      split
      next hless =>
        refine List.pairwise_cons.mpr ⟨fun x hx => ?_, ih (fun x hx => hrow x (.tail r hx)) hrest⟩
        rcases List.mem_cons.mp ((insertRow_perm less row rest).mem_iff.mp hx) with rfl | hx
        · exact .inl hless
        · exact hr x hx
      next => exact List.pairwise_cons.mpr ⟨fun x hx => .inr (hrow x hx), hs⟩

theorem foldl_insertRow_stable (hrows : rows.Pairwise S)
    (hbehind : ∀ r ∈ sorted, ∀ row ∈ rows, S r row)
    (hs : sorted.Pairwise fun a b => less b a = true ∨ S b a) :
    (rows.foldl (fun sorted row => insertRow less row sorted) sorted).Pairwise
      fun a b => less b a = true ∨ S b a := by
  induction rows generalizing sorted with
  | nil => exact hs
  | cons row rest ih =>
      obtain ⟨hrow, hrest⟩ := List.pairwise_cons.mp hrows
      rw [List.foldl_cons]
      have hinsert := insertRow_stable (fun r hr => hbehind r hr row (.head rest)) hs
      refine ih hrest (fun r hr x hx => ?_) hinsert
      rcases List.mem_cons.mp ((insertRow_perm less row sorted).mem_iff.mp hr) with rfl | hr
      · exact hrow x hx
      · exact hbehind r hr x (.tail row hx)

/-- Of two rows of which the sort does not put the first below the other, that one stood first
before. -/
theorem sort_stable (h : rows.Pairwise S) :
    (sort t keys rows).Pairwise fun a b => compareAll t keys a b = .lt ∨ S a b := by
  have hfold : (rows.foldl _ []).Pairwise fun a b =>
      decide (compareAll t keys b a = .lt) = true ∨ S b a :=
    foldl_insertRow_stable h (fun _ hr => nomatch hr) .nil
  exact List.pairwise_reverse.mpr (hfold.imp fun hab => by simpa using hab)

/-! Comparisons -/

theorem compareAll_append :
    compareAll t (keys ++ others) a b = (compareAll t keys a b).then (compareAll t others a b) := by
  induction keys with
  | nil => rfl
  | cons key rest ih => rw [List.cons_append, compareAll, compareAll, ih, Ordering.then_assoc]

/-- Keys tie on two rows that are there only if they have the same cells. -/
theorem compareRows_eq_eq (hkey : key.column < t.columnCount) (ha : a < t.size) (hb : b < t.size) :
    key.compareRows t a b = .eq ↔ t.get key.column a = t.get key.column b := by
  obtain ⟨x, hx⟩ := Table.get_of_lt hkey ha
  obtain ⟨y, hy⟩ := Table.get_of_lt hkey hb
  simp only [compareRows, hx, hy, Except.ok.injEq]
  cases key.ascending
  · exact Value.order_eq_eq.trans eq_comm
  · exact Value.order_eq_eq

theorem compareAll_eq_eq (hkeys : ∀ key ∈ keys, key.column < t.columnCount) (ha : a < t.size)
    (hb : b < t.size) :
    compareAll t keys a b = .eq ↔ ∀ key ∈ keys, t.get key.column a = t.get key.column b := by
  induction keys with
  | nil => simp [compareAll]
  | cons key rest ih =>
      rw [compareAll, Ordering.then_eq_eq, compareRows_eq_eq (hkeys key (by simp)) ha hb,
        ih fun k hk => hkeys k (.tail key hk), List.forall_mem_cons]

/-- The keys that can tell two rows apart that have the same cells in the columns given. Of several
keys for a column it is the first. -/
def deciding (same : List Nat) : List SortKey → List SortKey
  | [] => []
  | key :: rest =>
    if key.column ∈ same then deciding same rest else key :: deciding (key.column :: same) rest

theorem compareAll_deciding {same : List Nat} (hkeys : ∀ key ∈ keys, key.column < t.columnCount)
    (ha : a < t.size) (hb : b < t.size) (hsame : ∀ c ∈ same, t.get c a = t.get c b) :
    compareAll t (deciding same keys) a b = compareAll t keys a b := by
  induction keys generalizing same with
  | nil => rfl
  | cons key rest ih =>
      have hkey := compareRows_eq_eq (hkeys key (by simp)) ha hb
      have hrest : ∀ k ∈ rest, k.column < t.columnCount := fun k hk => hkeys k (.tail key hk)
      unfold deciding
      split
      next hmem =>
        rw [ih hrest hsame, compareAll, hkey.mpr (hsame _ hmem)]
        rfl
      next hmem =>
        rw [compareAll, compareAll]
        by_cases heq : key.compareRows t a b = .eq
        · rw [ih hrest fun c hc => ?_]
          rcases List.mem_cons.mp hc with rfl | hc
          · exact hkey.mp heq
          · exact hsame c hc
        · cases h : key.compareRows t a b <;> first | rfl | exact absurd h heq

/-! Rows in the order of keys and, under equal keys, in the order of the table -/

def Precedes (t : Table) (keys : List SortKey) (a b : Nat) : Prop :=
  compareAll t keys a b = .lt ∨ compareAll t keys a b = .eq ∧ a < b

theorem Precedes.asymm (h : Precedes t keys a b) : ¬ Precedes t keys b a := by
  intro h'
  rw [Precedes, compareAll_swap] at h'
  rcases h with h | ⟨h, hlt⟩ <;> rw [h] at h' <;> rcases h' with h' | ⟨h', hlt'⟩
  · cases h'
  · cases h'
  · cases h'
  · omega

theorem Precedes.ne (h : Precedes t keys a b) : a ≠ b := by
  rintro rfl
  exact h.asymm h

theorem precedes_congr (h : compareAll t keys a b = compareAll t others a b) :
    Precedes t keys a b ↔ Precedes t others a b := by
  rw [Precedes, Precedes, h]

/-- Sorting rows that are in the order of some keys puts them in the order of the new keys first. -/
theorem sort_precedes (hrows : ∀ row ∈ rows, row < t.size)
    (h : rows.Pairwise (Precedes t others)) :
    (sort t keys rows).Pairwise (Precedes t (keys ++ others)) := by
  have horders : Orders t keys rows := orders_of_there hrows
  have hsorted := sort_sorted horders
  refine (hsorted.and (sort_stable h)).imp fun {a b} ⟨hle, hstable⟩ => ?_
  unfold Precedes
  rw [compareAll_append]
  cases hab : compareAll t keys a b with
  | lt => exact .inl rfl
  | eq => exact hstable.resolve_left (by simp [hab])
  | gt => simp [hab] at hle

/-- Rows in one order are determined by which rows they are. -/
theorem eq_of_precedes (hrows : rows.Pairwise (Precedes t keys))
    (hsorted : sorted.Pairwise (Precedes t keys)) (h : ∀ row, row ∈ rows ↔ row ∈ sorted) :
    rows = sorted := by
  have hperm := (List.perm_ext_iff_of_nodup (hrows.imp Precedes.ne) (hsorted.imp Precedes.ne)).mpr h
  exact hperm.eq_of_pairwise (fun a b _ _ hab hba => absurd hba hab.asymm) hrows hsorted

end SortKey

namespace View
variable {v v' : View} {t : Table} {c : Nat} {R : Nat → Nat → Prop} {row : Nat}

/-! Thinning out -/

theorem firstOfEach_sublist (seen : List Value) (cells : List (Nat × Value)) :
    (firstOfEach seen cells).Sublist (cells.map (·.1)) := by
  induction cells generalizing seen with
  | nil => exact .slnil
  | cons cell rest ih =>
      obtain ⟨row, x⟩ := cell
      unfold firstOfEach
      split
      · exact (ih seen).cons row
      · exact (ih _).cons_cons row

/-- In rows that stand in some order, the rows kept are the first in this order of those with their
value, and their value was not seen before. -/
theorem mem_firstOfEach {seen : List Value} {cells : List (Nat × Value)}
    (hasymm : ∀ a b, R a b → ¬ R b a) (hcells : cells.Pairwise fun a b => R a.1 b.1)
    (hequal : ∀ cell ∈ cells, ∀ x : Value, x.equal cell.2 = decide (x = cell.2)) :
    row ∈ firstOfEach seen cells ↔
      ∃ x, (row, x) ∈ cells ∧ x ∉ seen ∧ ∀ cell ∈ cells, R cell.1 row → cell.2 ≠ x := by
  induction cells generalizing seen with
  | nil => simp [firstOfEach]
  | cons cell rest ih =>
      obtain ⟨r, y⟩ := cell
      obtain ⟨hr, hrest⟩ := List.pairwise_cons.mp hcells
      have hseen : seen.any (·.equal y) = true ↔ y ∈ seen := by
        simp only [hequal (r, y) (.head _), List.any_eq_true, decide_eq_true_eq, exists_eq_right]
      have ih := fun seen => @ih seen hrest fun cell hcell => hequal cell (.tail _ hcell)
      unfold firstOfEach
      split
      next hy =>
        rw [hseen] at hy
        rw [ih]
        constructor
        · rintro ⟨x, hx, hnew, hfirst⟩
          refine ⟨x, .tail _ hx, hnew, List.forall_mem_cons.mpr ⟨fun _ => ?_, hfirst⟩⟩
          rintro rfl
          exact hnew hy
        · rintro ⟨x, hx, hnew, hfirst⟩
          rcases List.mem_cons.mp hx with heq | hx
          · cases heq
            exact absurd hy hnew
          · exact ⟨x, hx, hnew, (List.forall_mem_cons.mp hfirst).2⟩
      next hy =>
        rw [hseen] at hy
        rw [List.mem_cons, ih]
        constructor
        · rintro (rfl | ⟨x, hx, hnew, hfirst⟩)
          · refine ⟨y, .head rest, hy, List.forall_mem_cons.mpr ⟨fun h => ?_, ?_⟩⟩
            · exact absurd h (hasymm _ _ h)
            · exact fun cell hcell h => absurd h (hasymm _ _ (hr cell hcell))
          · simp only [List.mem_append, List.mem_singleton, not_or] at hnew
            exact ⟨x, .tail _ hx, hnew.1, List.forall_mem_cons.mpr
              ⟨fun _ => Ne.symm hnew.2, hfirst⟩⟩
        · rintro ⟨x, hx, hnew, hfirst⟩
          obtain ⟨hhead, hfirst⟩ := List.forall_mem_cons.mp hfirst
          rcases List.mem_cons.mp hx with heq | hx
          · cases heq
            exact .inl rfl
          · refine .inr ⟨x, hx, ?_, hfirst⟩
            simp only [List.mem_append, List.mem_singleton, not_or]
            exact ⟨hnew, (hhead (hr _ hx)).symm⟩

/-- Equality of values is identity in the columns that may be distinct. -/
theorem equal_of_supportsDistinct {x y : Value} {type : ColumnType} (htype : type.supportsDistinct)
    (hfits : y.fits type = true) : x.equal y = decide (x = y) := by
  have hplain : y.type? ≠ some .float ∧ y.type? ≠ some .double := by
    constructor <;> intro hy <;> simp [Value.fits, hy] at hfits <;>
      rcases hfits with rfl | ⟨rfl, -⟩ <;> cases htype
  cases y with
  | float _ => exact absurd rfl hplain.1
  | double _ => exact absurd rfl hplain.2
  | _ => cases x <;> rfl

theorem checkDistinct_eq_ok : t.checkDistinct c = .ok () ↔
    ∃ column, t.columns[c]? = some column ∧ column.type.supportsDistinct = true := by
  simp only [Table.checkDistinct, bind_eq_ok, Table.columnType_eq_ok]
  constructor
  · rintro ⟨_, ⟨column, hcolumn, rfl⟩, h⟩
    refine ⟨column, hcolumn, ?_⟩
    cases htype : column.type.supportsDistinct with
    | true => rfl
    | false => simp [htype] at h
  · rintro ⟨column, hcolumn, htype⟩
    exact ⟨_, ⟨column, hcolumn, rfl⟩, by simp [htype]⟩

theorem equal_of_checkDistinct {x y : Value} (hw : t.WellFormed)
    (hcheck : t.checkDistinct c = .ok ()) (hy : t.get c row = .ok y) :
    x.equal y = decide (x = y) := by
  obtain ⟨column, hcolumn, htype⟩ := checkDistinct_eq_ok.mp hcheck
  obtain ⟨r, hr, hv⟩ := Table.cell?_eq_some.mp (hw.get_eq_ok.mp hy)
  have hsuits := hw.cells column y ⟨c, r, hcolumn, List.mem_of_getElem? hr, hv⟩
  exact equal_of_supportsDistinct htype hsuits.typed

theorem cells_of_mapM {rows : List Nat} {cells : List (Nat × Value)}
    (h : (rows.mapM fun row => return (row, ← t.get c row) : Except Error _) = .ok cells) :
    cells.map (·.1) = rows ∧ ∀ cell ∈ cells, t.get c cell.1 = .ok cell.2 := by
  induction rows generalizing cells with
  | nil =>
      obtain rfl := pure_eq_ok.mp (List.mapM_nil (m := Except Error) ▸ h)
      exact ⟨rfl, fun _ hcell => nomatch hcell⟩
  | cons row rest ih =>
      simp only [List.mapM_cons, bind_eq_ok, pure_eq_ok] at h
      obtain ⟨_, ⟨x, hx, rfl⟩, others, hothers, rfl⟩ := h
      obtain ⟨hrows, hget⟩ := ih hothers
      exact ⟨by rw [List.map_cons, hrows], List.forall_mem_cons.mpr ⟨hx, hget⟩⟩

/-- To thin out rows that stand in the order of some keys keeps of each value the first row in this
order. -/
theorem distinct_precedes {keys : List SortKey} (hw : t.WellFormed)
    (horder : v.rows.Pairwise (SortKey.Precedes t keys)) (h : v.distinct t c = .ok v') :
    v' = { v with rows := v'.rows, distinctColumn? := some c } ∧ v'.rows.Sublist v.rows ∧
      ∀ row, row ∈ v'.rows ↔ row ∈ v.rows ∧
        ∀ r ∈ v.rows, SortKey.Precedes t keys r row → t.get c r ≠ t.get c row := by
  obtain ⟨hcheck, cells, hcells, rfl⟩ := distinct_eq_ok h
  obtain ⟨hrows, hget⟩ := cells_of_mapM (by simpa only [bind_eq_ok, pure_eq_ok] using hcells)
  have hequal : ∀ cell ∈ cells, ∀ x : Value, x.equal cell.2 = decide (x = cell.2) :=
    fun cell hcell x => equal_of_checkDistinct hw hcheck (hget cell hcell)
  have hmem : ∀ row x, (row, x) ∈ cells ↔ row ∈ v.rows ∧ t.get c row = .ok x := by
    intro row x
    rw [← hrows]
    constructor
    · exact fun hx => ⟨List.mem_map_of_mem hx, hget _ hx⟩
    · rintro ⟨hrow, hx⟩
      obtain ⟨cell, hcell, rfl⟩ := List.mem_map.mp hrow
      obtain rfl := Except.ok.inj ((hget cell hcell).symm.trans hx)
      exact hcell
  have horder : cells.Pairwise fun a b => SortKey.Precedes t keys a.1 b.1 :=
    List.pairwise_map.mp (hrows ▸ horder)
  refine ⟨rfl, hrows ▸ firstOfEach_sublist [] cells, fun row => ?_⟩
  have hasymm : ∀ a b, SortKey.Precedes t keys a b → ¬SortKey.Precedes t keys b a :=
    fun _ _ => SortKey.Precedes.asymm
  rw [mem_firstOfEach hasymm horder hequal]
  constructor
  · rintro ⟨x, hx, -, hfirst⟩
    obtain ⟨hrow, hx⟩ := (hmem row x).mp hx
    refine ⟨hrow, fun r hr hbefore heq => ?_⟩
    exact hfirst (r, x) ((hmem r x).mpr ⟨hr, heq.trans hx⟩) hbefore rfl
  · rintro ⟨hrow, hfirst⟩
    obtain ⟨cell, hcell, rfl⟩ := List.mem_map.mp (hrows ▸ hrow)
    refine ⟨cell.2, hcell, List.not_mem_nil, fun other hother hbefore heq => ?_⟩
    refine hfirst other.1 ((hmem _ _).mp hother).1 hbefore ?_
    rw [hget other hother, hget cell hcell, heq]

end View
end SnapshotStore
