import SnapshotStore.NatMap

/-!
The finite maps as functions: what each operation does to every look-up, and what the
order of the entries says about keys, values and the first key.
-/

namespace SnapshotStore
namespace NatMap

universe u v
variable {α : Type u} {β : Type v}

/-! Look-up in a list of entries -/

theorem lookup_cons_eq (l : List (Nat × α)) (a k : Nat) (x : α) :
    ((a, x) :: l).lookup k = if k = a then some x else l.lookup k := by
  rw [List.lookup_cons]
  by_cases h : k = a
  · simp [h]
  · rw [beq_eq_false_iff_ne.mpr h, if_neg h]

theorem lookup_insertEntry (l : List (Nat × α)) (key k : Nat) (value : α) :
    (insertEntry key value l).lookup k = if k = key then some value else l.lookup k := by
  induction l with
  | nil => simp only [insertEntry, lookup_cons_eq]
  | cons head rest ih =>
      obtain ⟨a, x⟩ := head
      simp only [insertEntry]
      split
      · rw [lookup_cons_eq]
      · split
        next ha =>
          subst ha
          simp only [lookup_cons_eq]
          split <;> rfl
        next hlt hne =>
          simp only [lookup_cons_eq, ih]
          by_cases h : k = key
          · have ha : k ≠ a := by omega
            rw [if_neg ha, if_pos h, if_pos h]
          · rw [if_neg h, if_neg h]

theorem lookup_filter (l : List (Nat × α)) (p : Nat → Bool) (k : Nat) :
    (l.filter fun e => p e.1).lookup k = if p k then l.lookup k else none := by
  induction l with
  | nil => simp
  | cons head rest ih =>
      obtain ⟨a, x⟩ := head
      by_cases hk : k = a
      · subst hk
        by_cases hp : p k = true <;> simp [hp, ih]
      · by_cases hp : p a = true <;> simp [hp, hk, lookup_cons_eq, ih]

theorem lookup_eq_some_iff {l : List (Nat × α)} (h : l.Pairwise (fun a b => a.1 < b.1))
    (k : Nat) (x : α) : l.lookup k = some x ↔ (k, x) ∈ l := by
  induction l with
  | nil => simp
  | cons head rest ih =>
      obtain ⟨a, y⟩ := head
      obtain ⟨ha, hrest⟩ := List.pairwise_cons.mp h
      rw [lookup_cons_eq]
      by_cases hk : k = a
      · subst hk
        have hout : (k, x) ∉ rest := fun hm => Nat.lt_irrefl k (ha (k, x) hm)
        simp [hout, eq_comm]
      · simp [hk, ih hrest]

/-! Look-up in a map -/

theorem get?_eq_some_iff (m : NatMap α) (k : Nat) (x : α) :
    m.get? k = some x ↔ (k, x) ∈ m.entries :=
  lookup_eq_some_iff m.ascending k x

@[simp] theorem get?_empty (k : Nat) : (∅ : NatMap α).get? k = none := rfl

theorem get?_insert (m : NatMap α) (key k : Nat) (value : α) :
    (m.insert key value).get? k = if k = key then some value else m.get? k :=
  lookup_insertEntry m.entries key k value

@[simp] theorem get?_insert_self (m : NatMap α) (key : Nat) (value : α) :
    (m.insert key value).get? key = some value := by
  simp [get?_insert]

theorem get?_insert_ne (m : NatMap α) {key k : Nat} (value : α) (h : k ≠ key) :
    (m.insert key value).get? k = m.get? k := by
  simp [get?_insert, h]

theorem eq_empty {m : NatMap α} (h : ∀ k, m.get? k = none) : m = ∅ := by
  obtain ⟨l, hl⟩ := m
  cases l with
  | nil => rfl
  | cons head rest =>
      have hk := h head.1
      simp [get?] at hk

theorem insertEntry_of_lookup {l : List (Nat × α)} (hl : l.Pairwise (fun a b => a.1 < b.1))
    {key : Nat} {value : α} (h : l.lookup key = some value) : insertEntry key value l = l := by
  induction l with
  | nil => simp at h
  | cons head rest ih =>
      obtain ⟨k, v⟩ := head
      obtain ⟨hk, hrest⟩ := List.pairwise_cons.mp hl
      rw [lookup_cons_eq] at h
      split at h
      next he =>
        obtain rfl := Option.some.inj h
        simp [insertEntry, he]
      next hne =>
        have hlt := hk _ ((lookup_eq_some_iff hrest key value).mp h)
        rw [insertEntry, if_neg (Nat.not_lt_of_lt hlt), if_neg hne, ih hrest h]

theorem insert_of_get? {m : NatMap α} {key : Nat} {value : α} (h : m.get? key = some value) :
    m.insert key value = m := by
  cases m with
  | mk entries ascending => simp only [insert, insertEntry_of_lookup ascending h]

theorem get?_filterKeys (m : NatMap α) (p : Nat → Bool) (k : Nat) :
    (m.filterKeys p).get? k = if p k then m.get? k else none :=
  lookup_filter m.entries p k

theorem get?_erase (m : NatMap α) (key k : Nat) :
    (m.erase key).get? k = if k = key then none else m.get? k := by
  rw [erase, get?_filterKeys]
  by_cases h : k = key <;> simp [h]

theorem get?_mapValues (m : NatMap α) (f : α → β) (k : Nat) :
    (m.mapValues f).get? k = (m.get? k).map f := by
  obtain ⟨l, hl⟩ := m
  simp only [get?, mapValues]
  clear hl
  induction l with
  | nil => rfl
  | cons head rest ih =>
      obtain ⟨a, x⟩ := head
      simp only [List.map_cons, lookup_cons_eq, ih]
      split <;> rfl

@[simp] theorem contains_eq (m : NatMap α) (k : Nat) : m.contains k = (m.get? k).isSome := rfl

/-! Keys and values -/

theorem mem_keys (m : NatMap α) (k : Nat) : k ∈ m.keys ↔ (m.get? k).isSome := by
  rw [Option.isSome_iff_exists]
  simp [keys, get?_eq_some_iff]

theorem keys_ascending (m : NatMap α) : m.keys.Pairwise (· < ·) :=
  List.pairwise_map.mpr m.ascending

theorem keys_length (m : NatMap α) : m.keys.length = m.size := by
  simp [keys, size]

theorem ascending_ext : ∀ {l r : List Nat}, l.Pairwise (· < ·) → r.Pairwise (· < ·) →
    (∀ k, k ∈ l ↔ k ∈ r) → l = r
  | [], [], _, _, _ => rfl
  | [], b :: r, _, _, h => absurd ((h b).mpr (.head r)) (by simp)
  | a :: l, [], _, _, h => absurd ((h a).mp (.head l)) (by simp)
  | a :: l, b :: r, hl, hr, h => by
      obtain ⟨ha, hl⟩ := List.pairwise_cons.mp hl
      obtain ⟨hb, hr⟩ := List.pairwise_cons.mp hr
      have hab : a = b := by
        rcases List.mem_cons.mp ((h a).mp (.head l)) with he | hm
        · exact he
        · rcases List.mem_cons.mp ((h b).mpr (.head r)) with he | hm'
          · exact he.symm
          · have h₁ := hb a hm
            have h₂ := ha b hm'
            omega
      have htail : ∀ k, k ∈ l ↔ k ∈ r := by
        intro k
        have hk := h k
        simp only [List.mem_cons] at hk
        constructor
        · intro hm
          have hlt := ha k hm
          exact (hk.mp (.inr hm)).resolve_left (by omega)
        · intro hm
          have hlt := hb k hm
          exact (hk.mpr (.inr hm)).resolve_left (by omega)
      rw [hab, ascending_ext hl hr htail]

/-- A map whose keys fill an interval lists exactly that interval. -/
theorem keys_eq_range' (m : NatMap α) (a b : Nat)
    (h : ∀ k, (m.get? k).isSome ↔ a < k ∧ k ≤ b) : m.keys = List.range' (a + 1) (b - a) := by
  apply ascending_ext m.keys_ascending List.pairwise_lt_range'
  intro k
  rw [mem_keys, h, List.mem_range'_1]
  omega

theorem values_eq_keys (m : NatMap α) : m.values.map some = m.keys.map m.get? := by
  simp only [values, keys, List.map_map]
  apply List.map_congr_left
  intro e he
  exact ((m.get?_eq_some_iff e.1 e.2).mpr he).symm

theorem values_length (m : NatMap α) : m.values.length = m.keys.length := by
  simp [values, keys]

theorem size_filterKeys_le (m : NatMap α) (p : Nat → Bool) : (m.filterKeys p).size ≤ m.size :=
  List.length_filter_le _ _

theorem size_insert (m : NatMap α) (key : Nat) (value : α) (h : m.get? key = none) :
    (m.insert key value).size = m.size + 1 := by
  obtain ⟨l, hl⟩ := m
  simp only [get?] at h
  simp only [size, insert]
  clear hl
  induction l with
  | nil => rfl
  | cons head rest ih =>
      obtain ⟨a, x⟩ := head
      rw [lookup_cons_eq] at h
      have hne : key ≠ a := by
        intro he
        simp [he] at h
      rw [if_neg hne] at h
      simp only [insertEntry, if_neg hne]
      split
      · rfl
      · rw [List.length_cons, List.length_cons, ih h]

/-! Counting values -/

theorem entries_nodup (m : NatMap α) : m.entries.Nodup :=
  m.ascending.imp fun h => fun he => Nat.lt_irrefl _ (he ▸ h)

theorem insert_perm (m : NatMap α) (key : Nat) (value : α) :
    (m.insert key value).entries.Perm ((key, value) :: (m.erase key).entries) := by
  classical
  have hnot : (key, value) ∉ (m.erase key).entries := by
    rw [← get?_eq_some_iff, get?_erase]
    simp
  refine (List.perm_ext_iff_of_nodup (entries_nodup _) (List.nodup_cons.mpr
    ⟨hnot, entries_nodup _⟩)).mpr fun e => ?_
  obtain ⟨k, x⟩ := e
  rw [List.mem_cons, ← get?_eq_some_iff, ← get?_eq_some_iff, get?_insert, get?_erase]
  by_cases hk : k = key
  · simp [hk, eq_comm]
  · simp [hk]

variable (p : α → Bool)

theorem countP_insert (m : NatMap α) (key : Nat) (value : α) :
    (m.insert key value).values.countP p = (m.erase key).values.countP p + (p value).toNat := by
  have hperm := ((m.insert_perm key value).map (·.2)).countP_eq p
  rw [List.map_cons, List.countP_cons] at hperm
  rw [values, values, hperm]
  cases p value <;> rfl

theorem countP_erase {m : NatMap α} {key : Nat} {value : α} (h : m.get? key = some value) :
    (m.erase key).values.countP p + (p value).toNat = m.values.countP p := by
  rw [← countP_insert, insert_of_get? h]

theorem erase_of_get? {m : NatMap α} {key : Nat} (h : m.get? key = none) : m.erase key = m := by
  obtain ⟨l, hl⟩ := m
  simp only [erase, filterKeys, mk.injEq, List.filter_eq_self]
  intro e he
  have hne : e.1 ≠ key := by
    rintro rfl
    have hmem := (lookup_eq_some_iff hl e.1 e.2).mpr he
    exact Option.some_ne_none _ (hmem.symm.trans h)
  simpa using hne

theorem firstKey?_eq_some {m : NatMap α} {k : Nat} (h : m.firstKey? = some k) :
    (m.get? k).isSome ∧ ∀ k', (m.get? k').isSome → k ≤ k' := by
  obtain ⟨l, hl⟩ := m
  cases l with
  | nil => simp [firstKey?] at h
  | cons head rest =>
      obtain ⟨a, x⟩ := head
      obtain rfl : a = k := by simpa [firstKey?] using h
      refine ⟨by simp [get?], ?_⟩
      intro k' hk'
      obtain ⟨y, hy⟩ := Option.isSome_iff_exists.mp hk'
      rcases List.mem_cons.mp ((lookup_eq_some_iff hl k' y).mp hy) with he | hm
      · simp [show k' = a from congrArg Prod.fst he]
      · exact Nat.le_of_lt ((List.pairwise_cons.mp hl).1 _ hm)

theorem firstKey?_eq_none {m : NatMap α} (h : m.firstKey? = none) (k : Nat) :
    m.get? k = none := by
  obtain ⟨l, hl⟩ := m
  cases l with
  | nil => rfl
  | cons head rest => simp [firstKey?] at h

end NatMap
end SnapshotStore
