import SnapshotStore.Proofs.View.Shaping

/-!
Sorting by several keys. Rows come out in the lexicographic order of the keys, and rows that no key
tells apart stand as they stood before, also where a view lists a row twice. This determines the
rows, so sorting by all keys at once is sorting by one key after the other, the least important
first.
-/

namespace SnapshotStore

namespace SortKey
variable {t : Table} {key : SortKey} {keys others : List SortKey} {rows sorted : List Nat}
  {less : Nat → Nat → Bool} {p : Nat → Bool} {row a b c : Nat}

/-- The cells of the two rows tie in the order of values. -/
def Ties (t : Table) (key : SortKey) (a b : Nat) : Prop :=
  ∃ x y, t.get key.column a = .ok x ∧ t.get key.column b = .ok y ∧ x.order y = .eq

/-- The key puts the first row before the second: by the lower cell if it is ascending, by the
higher one if it is descending. -/
def Puts (t : Table) (key : SortKey) (a b : Nat) : Prop :=
  ∃ x y, t.get key.column a = .ok x ∧ t.get key.column b = .ok y ∧
    x.order y = if key.ascending then .lt else .gt

/-- The first key that tells the rows apart puts the first row before the second. -/
def Leads (t : Table) (keys : List SortKey) (a b : Nat) : Prop :=
  ∃ front key back, keys = front ++ key :: back ∧ (∀ k ∈ front, k.Ties t a b) ∧ key.Puts t a b

/-- The second list has the rows of the first in the order of the keys, the most important one
first, and leaves rows that tie under all keys as they stood. -/
structure Sorts (t : Table) (keys : List SortKey) (rows sorted : List Nat) : Prop where
  perm : sorted.Perm rows
  ordered : sorted.Pairwise fun a b => Leads t keys a b ∨ ∀ key ∈ keys, key.Ties t a b
  stable : ∀ part : List Nat, part.Sublist rows →
    (∀ a ∈ part, ∀ b ∈ part, ∀ key ∈ keys, key.Ties t a b) → part.Sublist sorted
  /-- Of rows that tie under the keys before, an ascending key puts those without a value first and
  a descending one puts them last. -/
  nulls : ∀ front key back, keys = front ++ key :: back →
    sorted.Pairwise fun a b => (∀ k ∈ front, k.Ties t a b) →
      if key.ascending then t.get key.column b = .ok .null → t.get key.column a = .ok .null
      else t.get key.column a = .ok .null → t.get key.column b = .ok .null

/-! Rows that keep their order -/

/-- A row does not overtake rows that it is not below. -/
theorem insertRow_filter (h : ∀ a b, p a = true → p b = true → less a b = false) :
    (insertRow less row sorted).filter p = (row :: sorted).filter p := by
  induction sorted with
  | nil => rfl
  | cons r rest ih =>
      simp only [insertRow]
      split
      next hless =>
        rw [List.filter_cons, ih]
        cases hrow : p row with
        | false => simp [hrow, List.filter_cons]
        | true =>
            have hr : ¬p r = true := fun hr => by simp [h row r hrow hr] at hless
            simp [hrow, hr]
      next => rfl

theorem foldl_insertRow_filter (h : ∀ a b, p a = true → p b = true → less a b = false) :
    (rows.foldl (fun sorted row => insertRow less row sorted) sorted).filter p =
      (rows.reverse ++ sorted).filter p := by
  induction rows generalizing sorted with
  | nil => rfl
  | cons row rest ih =>
      rw [List.foldl_cons, ih, List.filter_append, insertRow_filter h, ← List.filter_append]
      simp

/-- Sorting leaves rows as they stood of which none is below another. -/
theorem sort_filter (h : ∀ a b, p a = true → p b = true → compareAll t keys a b = .eq) :
    (sort t keys rows).filter p = rows.filter p := by
  have hless : ∀ a b, p a = true → p b = true → decide (compareAll t keys a b = .lt) = false := by
    intro a b ha hb
    simp [h a b ha hb]
  rw [sort, sortRows, List.filter_reverse, foldl_insertRow_filter hless, ← List.filter_reverse]
  simp

theorem sort_nil (t : Table) (rows : List Nat) : sort t [] rows = rows := by
  have hsame : (sort t [] rows).filter (fun _ => true) = rows.filter fun _ => true :=
    sort_filter fun _ _ _ _ => rfl
  rwa [List.filter_eq_self.mpr fun _ _ => rfl, List.filter_eq_self.mpr fun _ _ => rfl] at hsame

/-! Rows that no key tells apart -/

/-- Whether the row is in the table and ties with the first one under all keys. -/
def tied (t : Table) (keys : List SortKey) (a b : Nat) : Bool :=
  decide (b < t.size) && decide (compareAll t keys a b = .eq)

theorem compareAll_self : compareAll t keys a a = .eq := by
  have hswap : compareAll t keys a a = (compareAll t keys a a).swap := compareAll_swap
  cases h : compareAll t keys a a <;> rw [h] at hswap <;> first | rfl | cases hswap

theorem compareAll_of_tied (hkeys : ∀ key ∈ keys, key.column < t.columnCount) (hc : c < t.size)
    (hothers : others ⊆ keys) (ha : tied t keys c a = true) (hb : tied t keys c b = true) :
    compareAll t others a b = .eq := by
  simp only [tied, Bool.and_eq_true, decide_eq_true_eq] at ha hb
  apply (compareAll_eq_eq (fun key hkey => hkeys key (hothers hkey)) ha.1 hb.1).mpr
  intro key hkey
  have hsame := (compareAll_eq_eq hkeys hc ha.1).mp ha.2 key (hothers hkey)
  exact hsame.symm.trans ((compareAll_eq_eq hkeys hc hb.1).mp hb.2 key (hothers hkey))

/-- Rows in the order of keys are determined by how the rows that tie follow each other. -/
theorem eq_of_tied (hrows : ∀ row ∈ rows, row < t.size) (hperm : rows.Perm sorted)
    (hr : rows.Pairwise fun a b => (compareAll t keys a b).isLE)
    (hs : sorted.Pairwise fun a b => (compareAll t keys a b).isLE)
    (hclass : ∀ c ∈ rows, rows.filter (tied t keys c) = sorted.filter (tied t keys c)) :
    rows = sorted := by
  induction rows generalizing sorted with
  | nil => exact hperm.nil_eq
  | cons x rest ih =>
      cases sorted with
      | nil => exact absurd hperm.symm.nil_eq (List.cons_ne_nil x rest).symm
      | cons y others =>
          obtain ⟨hx, hrest⟩ := List.pairwise_cons.mp hr
          obtain ⟨hy, hothers⟩ := List.pairwise_cons.mp hs
          -- The two rows in front are each not above the other.
          have htie : compareAll t keys x y = .eq := by
            rcases List.mem_cons.mp (hperm.mem_iff.mpr List.mem_cons_self) with rfl | hmem
            · exact compareAll_self
            · rcases List.mem_cons.mp (hperm.mem_iff.mp List.mem_cons_self) with rfl | hmem'
              · exact compareAll_self
              · have hle := hx y hmem
                have hge := hy x hmem'
                rw [compareAll_swap] at hge
                cases hxy : compareAll t keys x y <;> simp_all
          have hxs : tied t keys x x = true := by
            simp [tied, hrows x List.mem_cons_self, compareAll_self]
          have hys : tied t keys x y = true := by
            simp [tied, hrows y (hperm.mem_iff.mpr List.mem_cons_self), htie]
          have hfront := hclass x List.mem_cons_self
          rw [List.filter_cons_of_pos hxs, List.filter_cons_of_pos hys] at hfront
          obtain ⟨rfl, -⟩ := List.cons.inj hfront
          congr 1
          apply ih (fun row hrow => hrows row (.tail x hrow)) hperm.cons_inv hrest hothers
          intro c hc
          have hfilter := hclass c (.tail x hc)
          rw [List.filter_cons, List.filter_cons] at hfilter
          split at hfilter
          · exact (List.cons.inj hfilter).2
          · exact hfilter

theorem sort_sorted_of_lt (hrows : ∀ row ∈ rows, row < t.size) :
    (sort t keys rows).Pairwise fun a b => (compareAll t keys a b).isLE :=
  sort_sorted (orders_of_there hrows)

/-- To sort by several keys is to sort by all but the first and then by the first. -/
theorem sort_cons (hkeys : ∀ k ∈ key :: keys, k.column < t.columnCount)
    (hrows : ∀ row ∈ rows, row < t.size) :
    sort t (key :: keys) rows = sort t [key] (sort t keys rows) := by
  have hperm := sort_perm t (key :: keys) rows
  have hsame := sort_perm t keys rows
  have hthere : ∀ row ∈ sort t keys rows, row < t.size := fun row hrow =>
    hrows row (hsame.subset hrow)
  apply eq_of_tied
  case hrows => exact fun row hrow => hrows row (hperm.subset hrow)
  case hperm => exact hperm.trans ((sort_perm t [key] _).trans hsame).symm
  case hr => exact sort_sorted_of_lt hrows
  case hs =>
    have hfirst : (sort t [key] (sort t keys rows)).Pairwise fun a b =>
        (compareAll t [key] a b).isLE := sort_sorted_of_lt hthere
    refine (hfirst.and (sort_stable (sort_sorted_of_lt hrows))).imp ?_
    intro a b hab
    obtain ⟨hle, hstable⟩ := hab
    simp only [compareAll, Ordering.then_eq] at hle hstable ⊢
    cases h : key.compareRows t a b with
    | lt => rfl
    | eq => simpa [h] using hstable
    | gt => simp [h] at hle
  case hclass =>
    intro c hc
    have htied : ∀ {others}, others ⊆ key :: keys → ∀ a b, tied t (key :: keys) c a = true →
        tied t (key :: keys) c b = true → compareAll t others a b = .eq := fun hothers a b =>
      compareAll_of_tied hkeys (hrows c (hperm.subset hc)) hothers
    rw [sort_filter (htied (List.Subset.refl _)), sort_filter (htied (by simp)),
      sort_filter (htied (List.subset_cons_self key keys))]

/-! What the keys say of two rows of the table -/

theorem compareRows_of_get {x y : Value} (ha : t.get key.column a = .ok x)
    (hb : t.get key.column b = .ok y) :
    key.compareRows t a b = if key.ascending then x.order y else (x.order y).swap := by
  have hswap : y.order x = (x.order y).swap := Std.OrientedCmp.eq_swap
  simp only [compareRows, ha, hb, hswap]

theorem ties_iff (hkey : key.column < t.columnCount) (ha : a < t.size) (hb : b < t.size) :
    key.Ties t a b ↔ key.compareRows t a b = .eq := by
  obtain ⟨x, hx⟩ := Table.get_of_lt hkey ha
  obtain ⟨y, hy⟩ := Table.get_of_lt hkey hb
  rw [compareRows_of_get hx hy]
  simp only [Ties, hx, hy, Except.ok.injEq, exists_and_left, exists_eq_left']
  cases key.ascending <;> simp

theorem puts_iff (hkey : key.column < t.columnCount) (ha : a < t.size) (hb : b < t.size) :
    key.Puts t a b ↔ key.compareRows t a b = .lt := by
  obtain ⟨x, hx⟩ := Table.get_of_lt hkey ha
  obtain ⟨y, hy⟩ := Table.get_of_lt hkey hb
  rw [compareRows_of_get hx hy]
  simp only [Puts, hx, hy, Except.ok.injEq, exists_and_left, exists_eq_left']
  cases key.ascending <;> simp [Ordering.swap_eq_lt]

theorem compareAll_of_ties (hkeys : ∀ key ∈ keys, key.column < t.columnCount) (ha : a < t.size)
    (hb : b < t.size) (h : ∀ key ∈ keys, key.Ties t a b) : compareAll t keys a b = .eq := by
  induction keys with
  | nil => rfl
  | cons key rest ih =>
      have hfirst := (ties_iff (hkeys key List.mem_cons_self) ha hb).mp (h key List.mem_cons_self)
      have hrest := ih (fun k hk => hkeys k (.tail key hk)) fun k hk => h k (.tail key hk)
      rw [compareAll, hfirst, hrest]
      rfl

theorem leads_or_ties (hkeys : ∀ key ∈ keys, key.column < t.columnCount) (ha : a < t.size)
    (hb : b < t.size) (h : (compareAll t keys a b).isLE) :
    Leads t keys a b ∨ ∀ key ∈ keys, key.Ties t a b := by
  induction keys with
  | nil => exact .inr fun _ hkey => nomatch hkey
  | cons key rest ih =>
      have hkey := hkeys key List.mem_cons_self
      rw [compareAll] at h
      cases hfirst : key.compareRows t a b with
      | lt =>
          have hputs := (puts_iff hkey ha hb).mpr hfirst
          exact .inl ⟨[], key, rest, rfl, (fun _ hk => nomatch hk), hputs⟩
      | eq =>
          have hties := (ties_iff hkey ha hb).mpr hfirst
          rw [hfirst] at h
          cases ih (fun k hk => hkeys k (.tail key hk)) h with
          | inl hleads =>
              obtain ⟨front, k, back, rfl, hfront, hk⟩ := hleads
              exact .inl ⟨key :: front, k, back, rfl, List.forall_mem_cons.mpr ⟨hties, hfront⟩, hk⟩
          | inr hall => exact .inr (List.forall_mem_cons.mpr ⟨hties, hall⟩)
      | gt => simp [hfirst] at h

/-- Where the rows are in order and the keys before tie, a key has the row without a value first if
it is ascending and last if it is descending. -/
theorem nulls_of_isLE {front back : List SortKey}
    (hkeys : ∀ k ∈ front ++ key :: back, k.column < t.columnCount) (ha : a < t.size)
    (hb : b < t.size) (h : (compareAll t (front ++ key :: back) a b).isLE)
    (hfront : ∀ k ∈ front, k.Ties t a b) :
    if key.ascending then t.get key.column b = .ok .null → t.get key.column a = .ok .null
      else t.get key.column a = .ok .null → t.get key.column b = .ok .null := by
  have hkey : key.column < t.columnCount := hkeys key (by simp)
  obtain ⟨x, hx⟩ := Table.get_of_lt hkey ha
  obtain ⟨y, hy⟩ := Table.get_of_lt hkey hb
  have hties := compareAll_of_ties (fun k hk => hkeys k (List.mem_append_left _ hk)) ha hb hfront
  rw [compareAll_append, hties, compareAll, compareRows_of_get hx hy] at h
  rw [hx, hy]
  cases hdir : key.ascending with
  | true =>
      rw [if_pos rfl]
      rintro ⟨⟩
      by_contra hnull
      have hlt := Value.null_order fun he => hnull (congrArg Except.ok he)
      have hswap : x.order .null = (Value.null.order x).swap := Std.OrientedCmp.eq_swap
      simp [hdir, hswap, hlt] at h
  | false =>
      rw [if_neg Bool.false_ne_true]
      rintro ⟨⟩
      by_contra hnull
      have hlt := Value.null_order fun he => hnull (congrArg Except.ok he)
      simp [hdir, hlt] at h

/-- What comes of sorting rows of the table. -/
theorem sorts_sort (hkeys : ∀ key ∈ keys, key.column < t.columnCount)
    (hrows : ∀ row ∈ rows, row < t.size) : Sorts t keys rows (sort t keys rows) where
  perm := sort_perm t keys rows
  ordered := by
    have hperm := sort_perm t keys rows
    apply (sort_sorted_of_lt hrows).imp_of_mem
    intro a b ha hb hle
    exact leads_or_ties hkeys (hrows a (hperm.subset ha)) (hrows b (hperm.subset hb)) hle
  stable := by
    intro part hpart hties
    cases part with
    | nil => exact List.nil_sublist _
    | cons c rest =>
        have hthere : ∀ a ∈ c :: rest, a < t.size := fun a ha => hrows a (hpart.subset ha)
        have hc := hthere c List.mem_cons_self
        have hpick : (c :: rest).filter (tied t keys c) = c :: rest := by
          apply List.filter_eq_self.mpr
          intro a ha
          have htie := compareAll_of_ties hkeys hc (hthere a ha) (hties c List.mem_cons_self a ha)
          simp [tied, hthere a ha, htie]
        have hsame : (sort t keys rows).filter (tied t keys c) = rows.filter (tied t keys c) :=
          sort_filter fun a b => compareAll_of_tied hkeys hc (List.Subset.refl _)
        rw [← hpick]
        exact (hsame ▸ hpart.filter _).trans List.filter_sublist
  nulls := by
    have hperm := sort_perm t keys rows
    rintro front key back rfl
    apply (sort_sorted_of_lt hrows).imp_of_mem
    intro a b ha hb
    exact nulls_of_isLE hkeys (hrows a (hperm.subset ha)) (hrows b (hperm.subset hb))

theorem check_singleton (h : check t keys = .ok ()) (hkey : key ∈ keys) :
    check t [key] = .ok () := by
  unfold check at h
  split at h
  next => exact nomatch h
  next =>
    have hone := forM_eq_ok.mp h key hkey
    exact forM_eq_ok.mpr fun k hk => List.mem_singleton.mp hk ▸ hone

end SortKey

namespace View
variable {t : Table} {v : View} {keys : List SortKey}

/-- To sort by one key after the other, from the last to the first, is to sort by all. -/
theorem foldlM_sort (ha : v.isAttached t = true) (hrows : v.Within t.size)
    (hkeys : ∀ key ∈ keys, SortKey.check t [key] = .ok ()) :
    ∃ v', (keys.reverse.map fun key => Shaping.sort [key]).foldlM (shape t) v = .ok v' ∧
      v'.isAttached t = true ∧ v'.rows = SortKey.sort t keys v.rows := by
  induction keys with
  | nil =>
      exact ⟨v, rfl, ha, (SortKey.sort_nil t v.rows).symm⟩
  | cons key rest ih =>
      have hcolumns : ∀ k ∈ key :: rest, k.column < t.columnCount := fun k hk =>
        SortKey.column_lt_of_check (hkeys k hk) List.mem_cons_self
      obtain ⟨v', hfold, hattached, hsorted⟩ := ih fun k hk => hkeys k (.tail key hk)
      have hthere : v'.Within t.size := fun row hrow =>
        hrows row ((SortKey.sort_perm t rest v.rows).subset (hsorted ▸ hrow))
      have hlast : v'.shape t (.sort [key]) =
          .ok { v' with rows := SortKey.sort t [key] v'.rows, sortKeys? := some [key] } :=
        shape_sort hattached hthere (hkeys key List.mem_cons_self)
      refine ⟨{ v' with rows := SortKey.sort t [key] v'.rows, sortKeys? := some [key] }, ?_,
        hattached, ?_⟩
      · rw [List.reverse_cons, List.map_append, List.foldlM_append, hfold]
        exact bind_eq_ok.mpr ⟨v', rfl, bind_eq_ok.mpr ⟨_, hlast, rfl⟩⟩
      · rw [SortKey.sort_cons hcolumns hrows, ← hsorted]

/-- A view whose rows are in its table can be sorted by all keys that are accepted. Its rows are
then in the lexicographic order of the keys, and rows that tie under all of them stand as they
stood. The same rows come of sorting by one key after the other, from the last to the first. -/
theorem sort_lexicographic (ha : v.isAttached t = true) (hrows : v.Within t.size)
    (hkeys : SortKey.check t keys = .ok ()) : ∃ v', (∀ d, v.sort t keys d = (.ok (), v')) ∧
      SortKey.Sorts t keys v.rows v'.rows ∧
      v' = { v with rows := v'.rows, sortKeys? := some keys } ∧
      ∃ v'', (keys.reverse.map fun key => Shaping.sort [key]).foldlM (shape t) v = .ok v'' ∧
        v''.rows = v'.rows := by
  have hcolumns : ∀ key ∈ keys, key.column < t.columnCount := fun key =>
    SortKey.column_lt_of_check hkeys
  obtain ⟨v'', hfold, -, hsame⟩ := foldlM_sort ha hrows fun key => SortKey.check_singleton hkeys
  exact ⟨_, sort_of_within ha hrows keys, SortKey.sorts_sort hcolumns hrows, rfl, v'', hfold, hsame⟩

/-- Five scores, two of them missing, with the names of the players. -/
def scores : Table where
  key := 1
  name := "scores"
  columns := [.plain "points" .int true, .plain "player" .string false]
  rows := [[.null, .string "b"], [.int 3, .string "a"], [.int 3, .string "a"],
    [.null, .string "a"], [.int 1, .string "c"]]
  rowIds := [0, 1, 2, 3, 4]
  nextRowId := 5
  schemaEpoch := 2

/-- The highest scores come first and the missing ones last, these by player. The two rows that tie
stay the other way round than in the table. -/
theorem sort_lexicographic_scores :
    let keys := [⟨0, false⟩, ⟨1, true⟩]
    let v : View := ⟨1, 2, [4, 2, 1, 0, 3], .ofTable scores, .all, none, none⟩
    v.isAttached scores = true ∧ v.Within scores.size ∧ SortKey.check scores keys = .ok () ∧
      ∃ v', v.sort scores keys .panic = (.ok (), v') ∧ v'.rows = [2, 1, 4, 3, 0] ∧
        SortKey.Sorts scores keys v.rows v'.rows := by
  intro keys v
  have ha : v.isAttached scores = true := rfl
  have hrows : ∀ row ∈ [4, 2, 1, 0, 3], row < 5 := by decide
  have hkeys : SortKey.check scores keys = .ok () := rfl
  obtain ⟨v', hsort, hsorts, -⟩ := sort_lexicographic ha hrows hkeys
  obtain rfl := congrArg Prod.snd (hsort .panic)
  exact ⟨ha, hrows, hkeys, _, hsort .panic, rfl, hsorts⟩

end View
end SnapshotStore
