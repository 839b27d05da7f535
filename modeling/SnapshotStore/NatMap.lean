/-!
Finite maps with natural numbers as keys. A map is its list of entries in ascending
key order, so two maps with the same entries are equal and iteration runs by key.
-/

namespace SnapshotStore

universe u v

structure NatMap (α : Type u) where
  entries : List (Nat × α)
  ascending : entries.Pairwise (fun a b => a.1 < b.1)
  deriving DecidableEq

namespace NatMap
variable {α : Type u}

def insertEntry (key : Nat) (value : α) : List (Nat × α) → List (Nat × α)
  | [] => [(key, value)]
  | (k, v) :: rest =>
    if key < k then (key, value) :: (k, v) :: rest
    else if key = k then (key, value) :: rest
    else (k, v) :: insertEntry key value rest

theorem mem_insertEntry {key : Nat} {value : α} {e : Nat × α} {l : List (Nat × α)}
    (h : e ∈ insertEntry key value l) : e = (key, value) ∨ e ∈ l := by
  induction l with
  | nil => simpa [insertEntry] using h
  | cons head rest ih =>
    obtain ⟨k, v⟩ := head
    simp only [insertEntry] at h
    split at h
    · simpa using h
    · split at h
      · simp only [List.mem_cons] at h ⊢
        exact h.imp_right .inr
      · simp only [List.mem_cons] at h ⊢
        rcases h with h | h
        · exact .inr (.inl h)
        · exact (ih h).imp_right .inr

theorem insertEntry_ascending {key : Nat} {value : α} {l : List (Nat × α)}
    (h : l.Pairwise (fun a b => a.1 < b.1)) :
    (insertEntry key value l).Pairwise (fun a b => a.1 < b.1) := by
  induction l with
  | nil => simp [insertEntry]
  | cons head rest ih =>
    obtain ⟨k, v⟩ := head
    obtain ⟨hk, hrest⟩ := List.pairwise_cons.1 h
    simp only [insertEntry]
    split
    next hlt =>
      refine List.pairwise_cons.2 ⟨?_, h⟩
      intro e he
      rcases List.mem_cons.1 he with rfl | he
      · exact hlt
      · exact Nat.lt_trans hlt (hk e he)
    next hlt =>
      split
      next heq => exact List.pairwise_cons.2 ⟨heq ▸ hk, hrest⟩
      next hne =>
        refine List.pairwise_cons.2 ⟨?_, ih hrest⟩
        intro e he
        rcases mem_insertEntry he with rfl | he
        · show k < key
          omega
        · exact hk e he

def empty : NatMap α := ⟨[], .nil⟩

instance : EmptyCollection (NatMap α) := ⟨empty⟩

instance : Inhabited (NatMap α) := ⟨empty⟩

def get? (m : NatMap α) (key : Nat) : Option α := m.entries.lookup key

def contains (m : NatMap α) (key : Nat) : Bool := (m.get? key).isSome

def insert (m : NatMap α) (key : Nat) (value : α) : NatMap α :=
  ⟨insertEntry key value m.entries, insertEntry_ascending m.ascending⟩

/-- The entries whose key passes the test. -/
def filterKeys (m : NatMap α) (p : Nat → Bool) : NatMap α :=
  ⟨m.entries.filter (fun e => p e.1), m.ascending.filter _⟩

def erase (m : NatMap α) (key : Nat) : NatMap α := m.filterKeys (· != key)

def keys (m : NatMap α) : List Nat := m.entries.map (·.1)

def values (m : NatMap α) : List α := m.entries.map (·.2)

def mapValues {β : Type v} (m : NatMap α) (f : α → β) : NatMap β :=
  ⟨m.entries.map fun e => (e.1, f e.2), List.pairwise_map.2 m.ascending⟩

def size (m : NatMap α) : Nat := m.entries.length

def firstKey? (m : NatMap α) : Option Nat := m.entries.head?.map (·.1)

end NatMap
end SnapshotStore
