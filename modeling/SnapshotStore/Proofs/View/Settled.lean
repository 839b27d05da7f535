import SnapshotStore.Proofs.View.Shaping

/-!
Which shapes survive a sync against a table that has not changed. A sync does over again the last
sort and the last thinning out. That this leaves every view of every table as it was can be read off
the shape: it was made distinct in one column at most, the last sort alone chooses the same rows,
and it alone puts them in the same order. Any other shape is changed on some table of two rows.
-/

namespace SnapshotStore
namespace Shaping
variable {ss : List Shaping} {key : SortKey} {keys : List SortKey} {c : Nat}

theorem sorts_once (keys? : Option (List SortKey)) (column? : Option Nat) :
    sorts (once keys? column?) = keys?.toList := by
  cases keys? <;> cases column? <;> rfl

theorem columns_once (keys? : Option (List SortKey)) (column? : Option Nat) :
    columns (once keys? column?) = column?.toList := by
  cases keys? <;> cases column? <;> rfl

theorem keysBefore_once (keys? : Option (List SortKey)) (column? : Option Nat) :
    keysBefore (once keys? column?) = keys?.getD [] := by
  cases keys? with
  | none => cases column? <;> rfl
  | some keys => cases column? <;> exact List.append_nil keys

theorem allKeys_latest : allKeys (latest ss) = lastKeys ss := by
  rw [allKeys, latest, sorts_once, lastKeys]
  cases (sorts ss).getLast? <;> simp

theorem keysBefore_latest : keysBefore (latest ss) = lastKeys ss := keysBefore_once _ _

theorem columns_latest : columns (latest ss) = (columns ss).getLast?.toList := columns_once _ _

theorem lastSort_latest : (sorts (latest ss)).getLast? = (sorts ss).getLast? := by
  rw [latest, sorts_once]
  cases (sorts ss).getLast? <;> rfl

theorem lastColumn_latest : (columns (latest ss)).getLast? = (columns ss).getLast? := by
  rw [columns_latest]
  cases (columns ss).getLast? <;> rfl

theorem latest_latest : latest (latest ss) = latest ss := by
  rw [latest, lastSort_latest, lastColumn_latest, latest]

/-- The keys of the last sort come first. -/
theorem allKeys_eq (ss : List Shaping) : ∃ rest, allKeys ss = lastKeys ss ++ rest := by
  rw [allKeys, lastKeys]
  rcases List.eq_nil_or_concat (sorts ss) with h | ⟨before, last, h⟩
  · exact ⟨[], by simp [h]⟩
  · exact ⟨before.reverse.flatten, by simp [h]⟩

theorem mem_columns_latest (hone : ∀ c ∈ columns ss, ∀ d ∈ columns ss, c = d) :
    c ∈ columns (latest ss) ↔ c ∈ columns ss := by
  rw [columns_latest, Option.mem_toList]
  refine ⟨List.mem_of_getLast?, fun hc => ?_⟩
  rw [List.getLast?_eq_some_getLast (List.ne_nil_of_mem hc)]
  exact congrArg some (hone _ (List.getLast_mem _) c hc)

theorem mem_allKeys : key ∈ allKeys ss ↔ ∃ keys, .sort keys ∈ ss ∧ key ∈ keys := by
  simp [allKeys, ← mem_sorts]

theorem keysBefore_subset : keysBefore ss ⊆ allKeys ss := by
  intro key hkey
  obtain ⟨keys, hkeys, hkey⟩ := mem_allKeys.mp hkey
  exact mem_allKeys.mpr ⟨keys, (List.takeWhile_sublist _).subset hkeys, hkey⟩

/-- A sync cannot change such a shape. -/
structure Settled (ss : List Shaping) : Prop where
  /-- The view is made distinct in one column at most. -/
  one : ∀ c ∈ columns ss, ∀ d ∈ columns ss, c = d
  /-- When the view is first thinned out, the keys so far decide as the last sort will which of the
  rows with one value comes first. -/
  first : ∀ c ∈ columns ss,
    SortKey.deciding [c] (keysBefore ss) = SortKey.deciding [c] (lastKeys ss)
  /-- The last sort leaves no tie to the sorts before it: no two rows are left with one value in one
  of its columns, or it has all the columns that they have. -/
  order : (∃ key ∈ lastKeys ss, key.column ∈ columns ss) ∨
    ∀ key ∈ allKeys ss, ∃ last ∈ lastKeys ss, last.column = key.column

open View SortKey
variable {t : Table} {v₀ v v' : View} {a b : Nat}

theorem Settled.compareAll_eq (h : Settled ss) (hs' : Shaped t v₀ (latest ss) v')
    (hkeys : ∀ key ∈ allKeys ss, key.column < t.columnCount) (hrows : v₀.Within t.size)
    (ha : a ∈ v'.rows) (hb : b ∈ v'.rows) (hne : a ≠ b) :
    compareAll t (lastKeys ss) a b = compareAll t (allKeys ss) a b := by
  have hlt {r : Nat} (hr : r ∈ v'.rows) : r < t.size := hrows r (hs'.subset hr)
  obtain ⟨rest, hall⟩ := allKeys_eq ss
  rw [hall, List.forall_mem_append] at hkeys
  rw [hall, compareAll_append]
  by_cases htie : compareAll t (lastKeys ss) a b = .eq
  · have hsame := (compareAll_eq_eq hkeys.1 (hlt ha) (hlt hb)).mp htie
    rcases h.order with ⟨key, hkey, hcolumn⟩ | hcovered
    · have hapart := hs'.apart_of_mem ((mem_columns_latest h.one).mpr hcolumn) ha hb hne
      exact absurd (hsame key hkey) hapart
    · have hrest : compareAll t rest a b = .eq := by
        refine (compareAll_eq_eq hkeys.2 (hlt ha) (hlt hb)).mpr fun key hkey => ?_
        obtain ⟨last, hlast, hcolumn⟩ := hcovered key (hall ▸ List.mem_append_right _ hkey)
        exact hcolumn ▸ hsame last hlast
      rw [htie, hrest]
      rfl
  · cases hcompare : compareAll t (lastKeys ss) a b <;> first | rfl | exact absurd hcompare htie

/-- A settled shape gives the rows that the last sort and the last thinning out give alone. -/
theorem Settled.rows_eq (h : Settled ss) (hs : Shaped t v₀ ss v) (hs' : Shaped t v₀ (latest ss) v')
    (hkeys : ∀ key ∈ allKeys ss, key.column < t.columnCount) (hrows : v₀.Within t.size) :
    v.rows = v'.rows := by
  have horder : v'.rows.Pairwise (Precedes t (allKeys ss)) := by
    refine hs'.order.imp_of_mem fun ha hb hab => ?_
    rw [allKeys_latest] at hab
    exact (precedes_congr (h.compareAll_eq hs' hkeys hrows ha hb hab.ne)).mp hab
  refine eq_of_precedes hs.order horder fun row => ?_
  have hone : ∀ c ∈ columns (latest ss), ∀ d ∈ columns (latest ss), c = d := fun c hc d hd =>
    h.one c ((mem_columns_latest h.one).mp hc) d ((mem_columns_latest h.one).mp hd)
  have hlast : ∀ key ∈ lastKeys ss, key.column < t.columnCount := by
    obtain ⟨rest, hall⟩ := allKeys_eq ss
    exact fun key hkey => hkeys key (hall ▸ List.mem_append_left _ hkey)
  rw [hs.kept h.one, hs'.kept hone, keysBefore_latest]
  refine and_congr_right fun hrow => forall_congr' fun c => ?_
  rw [mem_columns_latest h.one]
  refine forall_congr' fun hc => forall₂_congr fun r hr => ?_
  have hdecide (hsame : t.get c r = t.get c row) :
      Precedes t (keysBefore ss) r row ↔ Precedes t (lastKeys ss) r row := by
    have hsame : ∀ d ∈ [c], t.get d r = t.get d row := List.forall_mem_singleton.mpr hsame
    refine precedes_congr ?_
    have hbefore := compareAll_deciding (fun key hkey => hkeys key (keysBefore_subset hkey))
      (hrows r hr) (hrows row hrow) hsame
    rw [← hbefore, h.first c hc, compareAll_deciding hlast (hrows r hr) (hrows row hrow) hsame]
  exact ⟨fun hfirst hbefore hsame => hfirst ((hdecide hsame).mpr hbefore) hsame,
    fun hfirst hbefore hsame => hfirst ((hdecide hsame).mp hbefore) hsame⟩

end Shaping

/-! Tables of two rows -/

namespace Table
variable {width c : Nat} {x : Nat → Ordering} {key : SortKey} {keys : List SortKey}

/-- A cell to which zero stands in the order given. -/
def against : Ordering → Value
  | .lt => .int 1
  | .eq => .int 0
  | .gt => .int (-1)

/-- A table of two rows, the first of zeros, that compare column by column as given. -/
def pair (width : Nat) (x : Nat → Ordering) : Table where
  key := 1
  name := "t"
  columns := (List.range width).map fun c => .plain (.ofList (.replicate (c + 1) 'c')) .int false
  rows := [(List.range width).map fun _ => .int 0, (List.range width).map fun c => against (x c)]
  rowIds := [0, 1]
  nextRowId := 2
  schemaEpoch := width

theorem pair_row {r : List Value} (h : r ∈ (pair width x).rows) :
    ∃ f : Nat → Ordering, r = (List.range width).map fun c => against (f c) := by
  simp only [pair, List.mem_cons, List.not_mem_nil, or_false] at h
  rcases h with rfl | rfl
  · exact ⟨fun _ => .eq, rfl⟩
  · exact ⟨x, rfl⟩

theorem against_suits (o : Ordering) (name : String) :
    (against o).Suits (.plain name .int false) := by
  cases o <;> exact ⟨rfl, nofun⟩

theorem pair_wellFormed (width : Nat) (x : Nat → Ordering) : (pair width x).WellFormed where
  named column hcolumn := by
    obtain ⟨c, -, rfl⟩ := List.mem_map.mp hcolumn
    simp [Column.plain, ← String.toList_inj]
  distinct := by
    rw [pair, List.map_map]
    refine List.pairwise_map.mpr (List.nodup_range.imp fun hne heq => hne ?_)
    simpa [Column.plain] using congrArg (·.toList.length) heq
  linked column hcolumn := by
    obtain ⟨c, -, rfl⟩ := List.mem_map.mp hcolumn
    rfl
  width r hr := by
    obtain ⟨f, hf⟩ := pair_row hr
    simp [hf, pair, columnCount]
  cells column v h := by
    obtain ⟨j, r, hcolumn, hr, hv⟩ := h
    obtain ⟨f, hf⟩ := pair_row hr
    obtain ⟨c, -, rfl⟩ := List.mem_map.mp (List.mem_of_getElem? hcolumn)
    obtain ⟨d, -, rfl⟩ := List.mem_map.mp (hf ▸ List.mem_of_getElem? hv)
    exact against_suits (f d) _
  identified := rfl
  ids := (by decide : [0, 1].Nodup)
  next := (by decide : ∀ id ∈ [0, 1], id < 2)

theorem pair_columnType (h : c < width) : (pair width x).columnType c = .ok .int := by
  simp [columnType_eq_ok, pair, h, Column.plain]

theorem pair_get_zero (h : c < width) : (pair width x).get c 0 = .ok (.int 0) :=
  (pair_wellFormed width x).get_eq_ok.mpr (by simp [cell?, pair, h])

theorem pair_get_one (h : c < width) : (pair width x).get c 1 = .ok (against (x c)) :=
  (pair_wellFormed width x).get_eq_ok.mpr (by simp [cell?, pair, h])

/-- The rows are alike in the columns where they are to compare equal. -/
theorem pair_get_eq (h : c < width) :
    (pair width x).get c 0 = (pair width x).get c 1 ↔ x c = .eq := by
  rw [pair_get_zero h, pair_get_one h]
  cases x c <;> simp [against]

end Table

namespace SortKey
variable {width : Nat} {x : Nat → Ordering} {key : SortKey} {keys keys' : List SortKey}
  {same : List Nat}

/-- How a key turns the order of the cells. -/
def turn (key : SortKey) (o : Ordering) : Ordering := if key.ascending then o else o.swap

@[simp] theorem turn_turn (key : SortKey) (o : Ordering) : key.turn (key.turn o) = o := by
  unfold turn
  split
  · rfl
  · exact Ordering.swap_swap

/-- Two keys for a column differ in the direction. -/
theorem turn_turn_of_ne {key key' : SortKey} (hcolumn : key'.column = key.column) (h : key ≠ key')
    (o : Ordering) : key'.turn (key.turn o) = o.swap := by
  obtain ⟨c, ascending⟩ := key
  obtain ⟨c', ascending'⟩ := key'
  cases ascending <;> cases ascending' <;> simp_all [turn]

@[simp] theorem turn_eq (key : SortKey) : key.turn .eq = .eq := by
  unfold turn
  split <;> rfl

/-- How two rows compare by keys if this is how they compare column by column. -/
def lead (x : Nat → Ordering) : List SortKey → Ordering
  | [] => .eq
  | key :: rest => (key.turn (x key.column)).then (lead x rest)

theorem lead_of_eq (h : ∀ key ∈ keys, x key.column = .eq) : lead x keys = .eq := by
  induction keys with
  | nil => rfl
  | cons key rest ih =>
      obtain ⟨hkey, hrest⟩ := List.forall_mem_cons.mp h
      rw [lead, hkey, turn_eq, ih hrest]
      rfl

theorem compareAll_pair (h : ∀ key ∈ keys, key.column < width) :
    compareAll (Table.pair width x) keys 0 1 = lead x keys := by
  induction keys with
  | nil => rfl
  | cons key rest ih =>
      obtain ⟨hkey, hrest⟩ := List.forall_mem_cons.mp h
      have hcompare : key.compareRows (Table.pair width x) 0 1 = key.turn (x key.column) := by
        unfold compareRows
        rw [Table.pair_get_zero hkey, Table.pair_get_one hkey]
        unfold turn
        cases x key.column <;> rfl
      rw [compareAll, lead, hcompare, ih hrest]

theorem precedes_pair (h : ∀ key ∈ keys, key.column < width) :
    (Precedes (Table.pair width x) keys 0 1 ↔ lead x keys ≠ .gt) ∧
    (Precedes (Table.pair width x) keys 1 0 ↔ lead x keys = .gt) := by
  rw [Precedes, Precedes, compareAll_swap (a := 0) (b := 1), compareAll_pair h]
  cases lead x keys <;> simp

theorem deciding_subset (same : List Nat) (keys : List SortKey) : deciding same keys ⊆ keys := by
  induction keys generalizing same with
  | nil => exact List.Subset.refl _
  | cons key rest ih =>
      unfold deciding
      split
      · exact List.subset_cons_of_subset key (ih same)
      · exact List.cons_subset_cons key (ih _)

theorem lead_deciding (h : ∀ key ∈ keys, key.column < width) (hwidth : ∀ c ∈ same, c < width)
    (hsame : ∀ c ∈ same, x c = .eq) : lead x (deciding same keys) = lead x keys := by
  have hcells : ∀ c ∈ same, (Table.pair width x).get c 0 = (Table.pair width x).get c 1 :=
    fun c hc => (Table.pair_get_eq (hwidth c hc)).mpr (hsame c hc)
  rw [← compareAll_pair h, ← compareAll_pair fun key hkey => h key (deciding_subset same keys hkey)]
  refine compareAll_deciding (fun key hkey => ?_) Nat.zero_lt_two Nat.one_lt_two hcells
  simpa [Table.pair, Table.columnCount] using h key hkey

/-- Keys without repetition, and none for the columns given. -/
def Fresh (same : List Nat) : List SortKey → Prop
  | [] => True
  | key :: rest => key.column ∉ same ∧ Fresh (key.column :: same) rest

theorem deciding_fresh (same : List Nat) (keys : List SortKey) :
    Fresh same (deciding same keys) := by
  induction keys generalizing same with
  | nil => trivial
  | cons key rest ih =>
      unfold deciding
      split
      · exact ih same
      next h => exact ⟨h, ih _⟩

/-- Two rows can be alike in the columns given and be put in different orders by different keys. -/
theorem exists_lead_ne (hkeys : Fresh same keys) (hkeys' : Fresh same keys') (hne : keys ≠ keys') :
    ∃ x, (∀ c ∈ same, x c = .eq) ∧ ¬(lead x keys = .gt ↔ lead x keys' = .gt) := by
  induction keys generalizing same keys' with
  | nil =>
      cases keys' with
      | nil => exact absurd rfl hne
      | cons key' rest' =>
          refine ⟨fun c => if c = key'.column then key'.turn .gt else .eq, fun c hc => ?_, ?_⟩
          · exact if_neg (by rintro rfl; exact hkeys'.1 hc)
          · simp [lead]
  | cons key rest ih =>
      cases keys' with
      | nil =>
          refine ⟨fun c => if c = key.column then key.turn .gt else .eq, fun c hc => ?_, ?_⟩
          · exact if_neg (by rintro rfl; exact hkeys.1 hc)
          · simp [lead]
      | cons key' rest' =>
          by_cases heq : key = key'
          · subst heq
            obtain ⟨x, hx, hlead⟩ := ih hkeys.2 hkeys'.2 fun hrest => hne (hrest ▸ rfl)
            obtain ⟨hcolumn, hx⟩ := List.forall_mem_cons.mp hx
            exact ⟨x, hx, by simpa [lead, hcolumn] using hlead⟩
          · -- the first keys differ: one puts the rows in falling order, the other in rising order
            refine ⟨fun c => if c = key.column then key.turn .gt else
              if c = key'.column then key'.turn .lt else .eq, fun c hc => ?_, ?_⟩
            · have hc₁ : c ≠ key.column := by rintro rfl; exact hkeys.1 hc
              have hc₂ : c ≠ key'.column := by rintro rfl; exact hkeys'.1 hc
              simp [hc₁, hc₂]
            · by_cases hcolumn : key'.column = key.column
              · simp [lead, hcolumn, turn_turn_of_ne hcolumn heq]
              · simp [lead, hcolumn]

/-- Two rows can be alike in the columns given and nowhere else, and be put in falling order by the
first key for another column. -/
theorem exists_lead_gt (h : ∃ key ∈ keys, key.column ∉ same) :
    ∃ x, (∀ c, x c = .eq ↔ c ∈ same) ∧ lead x keys = .gt := by
  induction keys with
  | nil => exact nomatch h
  | cons key rest ih =>
      by_cases hkey : key.column ∈ same
      · obtain ⟨k, hk, hcolumn⟩ := h
        have hk : k ∈ rest := (List.mem_cons.mp hk).resolve_left (by rintro rfl; exact hcolumn hkey)
        obtain ⟨x, hx, hlead⟩ := ih ⟨k, hk, hcolumn⟩
        exact ⟨x, hx, by simp [lead, (hx _).mpr hkey, hlead]⟩
      · refine ⟨fun c => if c ∈ same then .eq else key.turn .gt, fun c => ?_, ?_⟩
        · by_cases hc : c ∈ same
          · simp [hc]
          · simp only [hc, if_false, iff_false]
            unfold turn
            split <;> exact nofun
        · simp [lead, hkey]

end SortKey

namespace Shaping
open View SortKey
variable {ss : List Shaping}

/-- The columns that shape the view are among the first ones. -/
structure Below (ss : List Shaping) (width : Nat) : Prop where
  keys : ∀ key ∈ allKeys ss, key.column < width
  columns : ∀ c ∈ columns ss, c < width

theorem exists_below (ss : List Shaping) : ∃ width, Below ss width := by
  have hbound (l : List Nat) : ∃ width, ∀ c ∈ l, c < width := by
    induction l with
    | nil => exact ⟨0, nofun⟩
    | cons c rest ih =>
        obtain ⟨width, hwidth⟩ := ih
        refine ⟨max (c + 1) width, List.forall_mem_cons.mpr ⟨by omega, fun d hd => ?_⟩⟩
        have hlt := hwidth d hd
        omega
  obtain ⟨width, h⟩ := hbound ((allKeys ss).map (·.column) ++ columns ss)
  rw [List.forall_mem_append, List.forall_mem_map] at h
  exact ⟨width, h.1, h.2⟩

theorem allowed_pair {width : Nat} {x : Nat → Ordering} {s : Shaping} (hs : s ∈ ss)
    (hkeys : s ≠ .sort []) (h : Below ss width) : s.Allowed (Table.pair width x) := by
  cases s with
  | sort keys =>
      have hcheck : ∀ key ∈ keys, checkOne (Table.pair width x) key = .ok () := by
        intro key hkey
        rw [checkOne, Table.pair_columnType (h.keys key (mem_allKeys.mpr ⟨keys, hs, hkey⟩))]
        rfl
      have hsome : keys.isEmpty = false := by
        cases keys with
        | nil => exact absurd rfl hkeys
        | cons => rfl
      simpa [Allowed, SortKey.check, hsome] using forM_eq_ok.mpr hcheck
  | distinct c =>
      rw [Allowed, Table.checkDistinct, Table.pair_columnType (h.columns c (mem_columns.mpr hs))]
      rfl

theorem ofQuery_pair (width : Nat) (x : Nat → Ordering) :
    ∃ v₀, View.ofQuery (Table.pair width x) (.ofTable (Table.pair width x)) .all = .ok v₀ ∧
      v₀.rows = [0, 1] := by
  refine ⟨_, bind_eq_ok.mpr ⟨[0, 1], bind_eq_ok.mpr ⟨(), ?_, rfl⟩, rfl⟩, rfl⟩
  simp [Query.check, Query.ofTable, Predicate.check]

theorem Below.latest {width : Nat} (h : Below ss width) : Below (latest ss) width where
  keys key hkey := by
    obtain ⟨rest, hall⟩ := allKeys_eq ss
    exact h.keys key (hall ▸ List.mem_append_left rest (allKeys_latest ▸ hkey))
  columns c hc := by
    rw [columns_latest, Option.mem_toList] at hc
    exact h.columns c (List.mem_of_getLast? hc)

/-! What shapes do to two rows -/

section
variable {width c : Nat} {x : Nat → Ordering} {v₀ v : View}

/-- Both rows stay if no column that the view is distinct in has one value for them. -/
theorem both_mem (hs : Shaped (Table.pair width x) v₀ ss v) (hrows : v₀.rows = [0, 1])
    (hwidth : Below ss width) (hone : ∀ c ∈ columns ss, ∀ d ∈ columns ss, c = d)
    (hx : ∀ c ∈ columns ss, x c ≠ .eq) : 0 ∈ v.rows ∧ 1 ∈ v.rows := by
  have hapart : ∀ c ∈ columns ss,
      (Table.pair width x).get c 0 ≠ (Table.pair width x).get c 1 := fun c hc =>
    (Table.pair_get_eq (hwidth.columns c hc)).not.mpr (hx c hc)
  constructor
  all_goals
    refine (hs.kept hone _).mpr ⟨by simp [hrows], fun c hc r hr hbefore => ?_⟩
    simp only [hrows, List.mem_cons, List.not_mem_nil, or_false] at hr
    rcases hr with rfl | rfl
  · exact absurd rfl hbefore.ne
  · exact (hapart c hc).symm
  · exact hapart c hc
  · exact absurd rfl hbefore.ne

/-- Of two rows with one value the first stays unless the keys before put the second above it. -/
theorem zero_mem_iff (hs : Shaped (Table.pair width x) v₀ ss v) (hrows : v₀.rows = [0, 1])
    (hwidth : Below ss width) (hone : ∀ c ∈ columns ss, ∀ d ∈ columns ss, c = d)
    (hc : c ∈ columns ss) (hx : x c = .eq) : 0 ∈ v.rows ↔ lead x (keysBefore ss) ≠ .gt := by
  have hsame := (Table.pair_get_eq (hwidth.columns c hc)).mpr hx
  have hprecedes := precedes_pair (x := x) fun key hkey => hwidth.keys key (keysBefore_subset hkey)
  rw [hs.kept hone]
  constructor
  · rintro ⟨-, hfirst⟩ hlead
    exact hfirst c hc 1 (by simp [hrows]) (hprecedes.2.mpr hlead) hsame.symm
  · refine fun hlead => ⟨by simp [hrows], fun d hd r hr hbefore => ?_⟩
    simp only [hrows, List.mem_cons, List.not_mem_nil, or_false] at hr
    rcases hr with rfl | rfl
    · exact absurd rfl hbefore.ne
    · exact absurd (hprecedes.2.mp hbefore) hlead

end

/-- On two rows, compare as they may, the shape gives the same view as the last sort and the last
thinning out. -/
def Replays (ss : List Shaping) (width : Nat) : Prop :=
  ∀ x, ∃ v₀ v, v₀.rows = [0, 1] ∧ Shaped (Table.pair width x) v₀ ss v ∧
    Shaped (Table.pair width x) v₀ (latest ss) v

namespace Replays
variable {width : Nat}

theorem one (h : Replays ss width) (hwidth : Below ss width) :
    ∀ c ∈ columns ss, ∀ d ∈ columns ss, c = d := by
  suffices hlast : ∀ c ∈ columns ss, (columns ss).getLast? = some c from
    fun c hc d hd => Option.some.inj ((hlast c hc).symm.trans (hlast d hd))
  intro c hc
  obtain ⟨e, he⟩ := List.getLast?_isSome.mpr (List.ne_nil_of_mem hc) |> Option.isSome_iff_exists.mp
  have hcolumns : columns (latest ss) = [e] := by rw [columns_latest, he, Option.toList_some]
  by_cases hce : c = e
  · exact hce ▸ he
  · obtain ⟨v₀, v, hrows, hs, hs'⟩ := h fun d => if d = c then .eq else .gt
    obtain ⟨hzero, hone⟩ := both_mem hs' hrows hwidth.latest (by simp [hcolumns])
      (by simp [hcolumns, Ne.symm hce])
    have hapart := hs.apart_of_mem hc hzero hone Nat.zero_ne_one
    exact absurd ((Table.pair_get_eq (hwidth.columns c hc)).mpr (if_pos rfl)) hapart

theorem first (h : Replays ss width) (hwidth : Below ss width) :
    ∀ c ∈ columns ss, deciding [c] (keysBefore ss) = deciding [c] (lastKeys ss) := by
  intro c hc
  have hone := h.one hwidth
  have hone' : ∀ d ∈ columns (latest ss), ∀ e ∈ columns (latest ss), d = e := fun d hd e he =>
    hone d ((mem_columns_latest hone).mp hd) e ((mem_columns_latest hone).mp he)
  by_contra hne
  obtain ⟨x, hx, hlead⟩ := exists_lead_ne (deciding_fresh [c] _) (deciding_fresh [c] _) hne
  have hlt : ∀ d ∈ [c], d < width := List.forall_mem_singleton.mpr (hwidth.columns c hc)
  have hlast : ∀ key ∈ lastKeys ss, key.column < width := allKeys_latest ▸ hwidth.latest.keys
  rw [lead_deciding (fun key hkey => hwidth.keys key (keysBefore_subset hkey)) hlt hx,
    lead_deciding hlast hlt hx] at hlead
  obtain ⟨v₀, v, hrows, hs, hs'⟩ := h x
  have hzero := zero_mem_iff hs hrows hwidth hone hc (hx c (by simp))
  have hzero' := zero_mem_iff hs' hrows hwidth.latest hone' ((mem_columns_latest hone).mpr hc)
    (hx c (by simp))
  rw [keysBefore_latest] at hzero'
  exact hlead (not_iff_not.mp (hzero.symm.trans hzero'))

theorem order (h : Replays ss width) (hwidth : Below ss width) :
    (∃ key ∈ lastKeys ss, key.column ∈ columns ss) ∨
      ∀ key ∈ allKeys ss, ∃ last ∈ lastKeys ss, last.column = key.column := by
  by_cases hapart : ∃ key ∈ lastKeys ss, key.column ∈ columns ss
  · exact .inl hapart
  refine .inr ?_
  by_contra huncovered
  have hother : ∃ key ∈ allKeys ss, key.column ∉ (lastKeys ss).map (·.column) := by
    simpa using huncovered
  obtain ⟨x, hx, hlead⟩ := exists_lead_gt hother
  obtain ⟨v₀, v, hrows, hs, hs'⟩ := h x
  obtain ⟨hzero, hone⟩ := both_mem hs hrows hwidth (h.one hwidth) fun c hc hxc => by
    obtain ⟨key, hkey, rfl⟩ := List.mem_map.mp ((hx c).mp hxc)
    exact hapart ⟨key, hkey, hc⟩
  -- all keys together put the second row first, and the last sort leaves it where it is
  have hlast : lead x (lastKeys ss) = .eq :=
    lead_of_eq fun key hkey => (hx _).mpr (List.mem_map_of_mem hkey)
  have hall := precedes_pair (x := x) hwidth.keys
  have hlatest := precedes_pair (x := x) hwidth.latest.keys
  rw [hlead] at hall
  rw [allKeys_latest, hlast] at hlatest
  let both a b := Precedes (Table.pair width x) (allKeys ss) a b ∧
    Precedes (Table.pair width x) (lastKeys ss) a b
  have hsymm : Std.Symm fun a b => both a b ∨ both b a := ⟨fun _ _ => Or.symm⟩
  have hboth : v.rows.Pairwise fun a b => both a b ∨ both b a :=
    (hs.order.and (allKeys_latest ▸ hs'.order)).imp Or.inl
  rcases hboth.forall hzero hone Nat.zero_ne_one with ⟨hfirst, -⟩ | ⟨-, hsecond⟩
  · exact hall.1.mp hfirst rfl
  · exact nomatch hlatest.2.mp hsecond

end Replays

/-- A shape that no sync changes is settled. -/
theorem settled_of_unchanged (hkeys : ∀ s ∈ ss, s ≠ .sort [])
    (h : ∀ t, t.WellFormed → ∀ q w v₀ v, View.ofQuery t q w = .ok v₀ →
      ss.foldlM (View.shape t) v₀ = .ok v → v.sync t = (.ok (), v)) : Settled ss := by
  obtain ⟨width, hwidth⟩ := exists_below ss
  have hreplays : Replays ss width := by
    intro x
    have hw := Table.pair_wellFormed width x
    obtain ⟨v₀, hv₀, hrows⟩ := ofQuery_pair width x
    have hf := found_of_ofQuery hv₀
    obtain ⟨v, hv⟩ := foldlM_shape_total hf.attached (Query.findAll_lt hf.rows) fun s hs =>
      allowed_pair hs (hkeys s hs) hwidth
    obtain ⟨v', hv', hsync⟩ := sync_eq_latest hf hv
    obtain rfl : v' = v := congrArg Prod.snd (hsync.symm.trans (h _ hw _ _ _ _ hv₀ hv))
    exact ⟨v₀, v', hrows, hf.shaped_of_foldlM hw hv, hf.shaped_of_foldlM hw hv'⟩
  exact ⟨hreplays.one hwidth, hreplays.first hwidth, hreplays.order hwidth⟩

instance : Decidable (Settled ss) :=
  decidable_of_iff
    ((∀ c ∈ columns ss, ∀ d ∈ columns ss, c = d) ∧
      (∀ c ∈ columns ss, deciding [c] (keysBefore ss) = deciding [c] (lastKeys ss)) ∧
      ((∃ key ∈ lastKeys ss, key.column ∈ columns ss) ∨
        ∀ key ∈ allKeys ss, ∃ last ∈ lastKeys ss, last.column = key.column))
    ⟨fun ⟨one, first, order⟩ => ⟨one, first, order⟩, fun ⟨one, first, order⟩ => ⟨one, first, order⟩⟩

/-- However a view was sorted and thinned out, a sync against the table as it is succeeds and makes
it what the last sort and then the last thinning out alone make of it, and a second sync changes
nothing more. For exactly the settled shapes the first one changes nothing either, on any table. -/
theorem sync_of_unchanged (ss : List Shaping) :
    (∀ t q w v₀ v, View.ofQuery t q w = .ok v₀ → ss.foldlM (View.shape t) v₀ = .ok v →
      ∃ v', (latest ss).foldlM (View.shape t) v₀ = .ok v' ∧ v.sync t = (.ok (), v') ∧
        v'.sync t = (.ok (), v')) ∧
    ((∀ s ∈ ss, s ≠ .sort []) → (Settled ss ↔ ∀ t, t.WellFormed → ∀ q w v₀ v,
      View.ofQuery t q w = .ok v₀ → ss.foldlM (View.shape t) v₀ = .ok v →
        v.sync t = (.ok (), v))) := by
  constructor
  · intro t q w v₀ v hv₀ hv
    obtain ⟨v', hv', hsync⟩ := sync_eq_latest (found_of_ofQuery hv₀) hv
    obtain ⟨v'', hv'', hagain⟩ := sync_eq_latest (found_of_ofQuery hv₀) hv'
    rw [latest_latest] at hv''
    obtain rfl := Except.ok.inj (hv'.symm.trans hv'')
    exact ⟨v', hv', hsync, hagain⟩
  · refine fun hkeys => ⟨fun hsettled t hw q w v₀ v hv₀ hv => ?_, settled_of_unchanged hkeys⟩
    have hf := found_of_ofQuery hv₀
    obtain ⟨v', hv', hsync⟩ := sync_eq_latest hf hv
    have hcolumns : ∀ key ∈ allKeys ss, key.column < t.columnCount := fun key hkey => by
      obtain ⟨keys, hkeys, hkey⟩ := mem_allKeys.mp hkey
      exact column_lt_of_check ((hf.allowed hv).2 _ hkeys) hkey
    have hrows := hsettled.rows_eq (hf.shaped_of_foldlM hw hv) (hf.shaped_of_foldlM hw hv')
      hcolumns (Query.findAll_lt hf.rows)
    have hview : v = v' := by
      obtain ⟨_, rfl⟩ := (hf.allowed hv).1
      obtain ⟨_, rfl⟩ := (hf.allowed hv').1
      obtain rfl := hrows
      rw [lastSort_latest, lastColumn_latest]
    rw [hsync, ← hview]

example : Settled [.sort [⟨0, true⟩], .sort [⟨1, true⟩, ⟨0, false⟩]] := by decide

example : ¬Settled [.distinct 1, .sort [⟨0, true⟩]] := by decide

/-- A view that is sorted, and then thinned out twice. -/
theorem sync_of_sorted_and_distinct :
    let t := Table.pair 2 fun _ => .gt
    ∃ v₀ v, View.ofQuery t (.ofTable t) .all = .ok v₀ ∧
      [.sort [⟨0, true⟩], .distinct 1, .distinct 1].foldlM (View.shape t) v₀ = .ok v ∧
      v.rows = [1, 0] ∧ v.sync t = (.ok (), v) := by
  intro t
  obtain ⟨v₀, v, hv₀, hv, hrows⟩ : ∃ v₀ v, View.ofQuery t (.ofTable t) .all = .ok v₀ ∧
      [.sort [⟨0, true⟩], .distinct 1, .distinct 1].foldlM (View.shape t) v₀ = .ok v ∧
      v.rows = [1, 0] := ⟨_, _, rfl, rfl, rfl⟩
  obtain ⟨-, hsettled⟩ := sync_of_unchanged [.sort [⟨0, true⟩], .distinct 1, .distinct 1]
  exact ⟨v₀, v, hv₀, hv, hrows,
    (hsettled (by decide)).mp (by decide) t (Table.pair_wellFormed 2 _) _ _ v₀ v hv₀ hv⟩

/-- A view that is sorted twice goes back to the order of the table where the second sort has
ties. -/
theorem first_sort_forgotten :
    let t := Table.pair 2 fun c => if c = 0 then .gt else .eq
    ∃ v₀ v v', View.ofQuery t (.ofTable t) .all = .ok v₀ ∧
      [.sort [⟨0, true⟩], .sort [⟨1, true⟩]].foldlM (View.shape t) v₀ = .ok v ∧
      v.rows = [1, 0] ∧ v.sync t = (.ok (), v') ∧ v'.rows = [0, 1] := by
  exact ⟨_, _, _, rfl, rfl, rfl, rfl, rfl⟩

end Shaping
end SnapshotStore
