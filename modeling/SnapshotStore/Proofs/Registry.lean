import SnapshotStore.Proofs.Arena
import SnapshotStore.Proofs.Handle

/-!
Arenas as registries: what stands under which handle. A handle that is given out names an object
until that is taken out, and an arena whose slots do not wrap never gives it out again.
-/

namespace SnapshotStore
namespace Arena

universe u
variable {α : Type u} {a a' a₁ : Arena α} {x y : α} {raw raw' : UInt64} {kind : HandleKind}

/-! Looking up -/

theorem decode_eq_ok_iff {k : Handle} :
    a.decode raw = .ok k ↔ Handle.decode? raw = some k ∧ k.kind = a.kind := by
  refine ⟨decode_eq_ok, fun ⟨hdecode, hkind⟩ => ?_⟩
  simp only [decode, hdecode, if_pos hkind]

theorem get_iff : a.get raw = .ok x ↔ ∃ k,
    Handle.decode? raw = some k ∧ k.kind = a.kind ∧ a.live? k.slot = some (k.generation, x) := by
  rw [get_eq_ok]
  constructor
  · rintro ⟨k, hk, hlive⟩
    obtain ⟨hdecode, hkind⟩ := decode_eq_ok_iff.mp hk
    exact ⟨k, hdecode, hkind, hlive⟩
  · rintro ⟨k, hdecode, hkind, hlive⟩
    exact ⟨k, decode_eq_ok_iff.mpr ⟨hdecode, hkind⟩, hlive⟩

theorem Stocks.get_iff (h : a.Stocks kind) : a.get raw = .ok x ↔ ∃ k,
    Handle.decode? raw = some k ∧ k.kind = kind ∧ a.live? k.slot = some (k.generation, x) :=
  h.kind ▸ Arena.get_iff

/-- The handle that is made of a slot and a generation leads back to them. -/
theorem Stocks.get_ofParts (h : a.Stocks kind) {slot g : Nat} (hslot : slot < 0x100000000)
    (hg : g < 0x1000000) : a.get (Handle.ofParts kind slot g).encode = .ok x ↔
      a.live? slot = some (g, x) := by
  obtain ⟨hkind, hslot', hg'⟩ := Handle.ofParts_fields kind hslot hg
  rw [h.get_iff, Handle.decode?_encode]
  constructor
  · rintro ⟨k, hk, -, hlive⟩
    obtain rfl := Option.some.inj hk
    rwa [hslot', hg'] at hlive
  · exact fun hlive => ⟨_, rfl, hkind, by rwa [hslot', hg']⟩

theorem contains_iff : a.contains raw = true ↔ ∃ x, a.get raw = .ok x := by
  rw [contains]
  rcases a.locate_cases raw with ⟨e, he⟩ | ⟨k, x, hk⟩
  · simp [he, get_eq_error.mpr he, Except.isOk, Except.toBool]
  · simp [hk.get, locate_eq_ok.mpr ⟨x, hk⟩, Except.isOk, Except.toBool]

/-- Handles to one slot that holds an object are the same number. -/
theorem handle_unique {k k' : Handle} (hk : Handle.decode? raw = some k)
    (hk' : Handle.decode? raw' = some k') (kind : k.kind = k'.kind) (slot : k.slot = k'.slot)
    (generation : k.generation = k'.generation) : raw = raw' := by
  rw [← Handle.encode_of_decode? hk, ← Handle.encode_of_decode? hk',
    Handle.ext kind slot generation]

/-- The handle is of the kind of the arena but names nothing there. -/
def Stale (a : Arena α) (raw : UInt64) : Prop :=
  ∃ k, Handle.decode? raw = some k ∧ a.locate raw = .error (a.stale k)

theorem stale_of_get_ne {k : Handle} (hdecode : Handle.decode? raw = some k)
    (hkind : k.kind = a.kind) (h : ∀ x, a.get raw ≠ .ok x) : a.Stale raw := by
  refine ⟨k, hdecode, ?_⟩
  rcases a.locate_cases raw with ⟨e, hl⟩ | ⟨k', x, hk'⟩
  · rw [hl]
    simp only [locate, decode_eq_ok_iff.mpr ⟨hdecode, hkind⟩] at hl
    split at hl
    · split at hl
      · simp at hl
      · exact hl.symm
    · exact hl.symm
  · exact absurd hk'.get (h x)

/-- The slot of the handle has come to a later generation. -/
def Past (a : Arena α) (raw : UInt64) : Prop :=
  ∃ k, Handle.decode? raw = some k ∧ k.kind = a.kind ∧ k.generation < a.generation k.slot

theorem Past.get_ne (h : a.Past raw) : a.get raw ≠ .ok x := by
  obtain ⟨k, hdecode, -, hlt⟩ := h
  intro hget
  obtain ⟨k', hk', hlive⟩ := get_eq_ok.mp hget
  obtain rfl := Option.some.inj (hdecode.symm.trans (decode_eq_ok hk').1)
  exact Nat.ne_of_lt hlt (live?_generation hlive).symm

theorem Past.stale (h : a.Past raw) : a.Stale raw := by
  obtain ⟨k, hdecode, hkind, -⟩ := id h
  exact stale_of_get_ne hdecode hkind fun _ => h.get_ne

theorem Past.mono (h : a.Past raw) (kind : a'.kind = a.kind)
    (generations : ∀ slot, a.generation slot ≤ a'.generation slot) : a'.Past raw := by
  obtain ⟨k, hdecode, hkind, hlt⟩ := h
  exact ⟨k, hdecode, hkind.trans kind.symm, Nat.lt_of_lt_of_le hlt (generations k.slot)⟩

/-! Putting one object in -/

theorem insert_length (a : Arena α) (x : α) : (a.insert x).2.slots.length =
    if a.free = [] then a.slots.length + 1 else a.slots.length := by
  unfold insert
  cases a.free <;> simp

theorem length_le_insert (a : Arena α) (x : α) :
    a.slots.length ≤ (a.insert x).2.slots.length := by
  rw [insert_length]
  split <;> omega

theorem vacancy_lt (h : a.Tidy) (x : α) : a.vacancy < (a.insert x).2.slots.length := by
  have hslot := insert_slots h x a.vacancy
  rw [if_pos rfl] at hslot
  exact (List.getElem?_eq_some_iff.mp hslot).1

/-- The number that an object is given stands for the slot that it is put into. -/
theorem Stocks.insert_decode (h : a.Stocks kind) (x : α)
    (room : (a.insert x).2.slots.length ≤ 0x100000000) : ∃ k,
      Handle.decode? (a.insert x).1 = some k ∧ k.kind = kind ∧ k.slot = a.vacancy ∧
        k.generation = a.generation a.vacancy := by
  have hslot := Nat.lt_of_lt_of_le (vacancy_lt h.tidy x) room
  have hgeneration := (generation_bounds h.tidy a.vacancy).2
  rw [insert_handle, Handle.decode?_encode]
  obtain ⟨hk, hs, hg⟩ := Handle.ofParts_fields a.kind hslot hgeneration
  exact ⟨_, rfl, hk.trans h.kind, hs, hg⟩

/-- What stands under a handle still does after another object was put in. -/
theorem Stocks.insert_get_of_get (h : a.Stocks kind) (x : α) (hget : a.get raw = .ok y) :
    (a.insert x).2.get raw = .ok y := by
  obtain ⟨k, hdecode, hkind, hlive⟩ := h.get_iff.mp hget
  have hne : k.slot ≠ a.vacancy := by
    intro hvacant
    rw [hvacant, h.tidy.vacancy] at hlive
    simp at hlive
  refine (h.insert x).get_iff.mpr ⟨k, hdecode, hkind, ?_⟩
  rw [insert_live? h.tidy, if_neg hne, hlive]

/-- What stands under a handle after an object was put in. -/
theorem Stocks.insert_get (h : a.Stocks kind) (x : α)
    (room : (a.insert x).2.slots.length ≤ 0x100000000) :
    (a.insert x).2.get raw = .ok y ↔ raw = (a.insert x).1 ∧ y = x ∨ a.get raw = .ok y := by
  obtain ⟨k₀, hdecode₀, hkind₀, hslot₀, hgeneration₀⟩ := h.insert_decode x room
  rw [(h.insert x).get_iff, h.get_iff]
  constructor
  · rintro ⟨k, hdecode, hkind, hlive⟩
    rw [insert_live? h.tidy] at hlive
    split at hlive
    next hvacant =>
      obtain ⟨hgeneration, rfl⟩ := Prod.mk.inj (Option.some.inj hlive)
      rw [hvacant] at hgeneration
      exact .inl ⟨handle_unique hdecode hdecode₀ (hkind.trans hkind₀.symm)
        (hvacant.trans hslot₀.symm) (hgeneration.symm.trans hgeneration₀.symm), rfl⟩
    next => exact .inr ⟨k, hdecode, hkind, hlive⟩
  · rintro (⟨rfl, rfl⟩ | hget)
    · refine ⟨k₀, hdecode₀, hkind₀, ?_⟩
      rw [insert_live? h.tidy, if_pos hslot₀, hslot₀, hgeneration₀]
    · exact (h.insert x).get_iff.mp (h.insert_get_of_get x (h.get_iff.mpr hget))

/-- The handle of a new object named nothing before, and its slot had not moved on from it. -/
theorem Stocks.insert_fresh (h : a.Stocks kind) (x : α)
    (room : (a.insert x).2.slots.length ≤ 0x100000000) :
    (∀ y, a.get (a.insert x).1 ≠ .ok y) ∧ ¬a.Past (a.insert x).1 := by
  obtain ⟨k, hdecode, hkind, hslot, hgeneration⟩ := h.insert_decode x room
  constructor
  · intro y hget
    obtain ⟨k', hdecode', -, hlive⟩ := h.get_iff.mp hget
    obtain rfl := Option.some.inj (hdecode.symm.trans hdecode')
    rw [hslot, h.tidy.vacancy] at hlive
    simp at hlive
  · rintro ⟨k', hdecode', -, hlt⟩
    obtain rfl := Option.some.inj (hdecode.symm.trans hdecode')
    rw [hslot, hgeneration] at hlt
    exact Nat.lt_irrefl _ hlt

/-! Taking one object out -/

theorem remove_get (hr : a.remove raw = .ok (x, a')) : a.get raw = .ok x := by
  obtain ⟨k, hk, -⟩ := remove_eq_ok.mp hr
  exact hk.get

theorem remove_of_get (hget : a.get raw = .ok x) : ∃ a', a.remove raw = .ok (x, a') := by
  obtain ⟨k, hk⟩ := get_eq_ok.mp hget
  exact ⟨_, hk.remove⟩

/-- What stands under a handle after an object was taken out. -/
theorem remove_get_iff (hr : a.remove raw = .ok (x, a')) :
    a'.get raw' = .ok y ↔ raw' ≠ raw ∧ a.get raw' = .ok y := by
  obtain ⟨k, ⟨hk, hlive⟩, hlive', -, hsame, -⟩ := remove_spec hr
  obtain ⟨hdecode, hkind⟩ := decode_eq_ok_iff.mp hk
  rw [get_iff, get_iff, hsame]
  constructor
  · rintro ⟨k', hdecode', hkind', hafter⟩
    rw [hlive'] at hafter
    split at hafter
    next => simp at hafter
    next hne =>
      refine ⟨?_, k', hdecode', hkind', hafter⟩
      rintro rfl
      exact hne (congrArg Handle.slot (Option.some.inj (hdecode'.symm.trans hdecode)))
  · rintro ⟨hne, k', hdecode', hkind', hbefore⟩
    refine ⟨k', hdecode', hkind', ?_⟩
    rw [hlive', if_neg, hbefore]
    intro hslot
    rw [hslot, hlive] at hbefore
    obtain ⟨hgeneration, -⟩ := Prod.mk.inj (Option.some.inj hbefore)
    exact hne (handle_unique hdecode' hdecode (hkind'.trans hkind.symm) hslot hgeneration.symm)

theorem modify_of_get (hget : a.get raw = .ok x) (f : α → α) : ∃ a', a.modify raw f = .ok a' := by
  obtain ⟨k, hk⟩ := get_eq_ok.mp hget
  exact ⟨_, hk.modify f⟩

/-! Slots in use -/

/-- Every slot holds an object or is free. -/
def Accounts (a : Arena α) : Prop := a.slots.length = a.size + a.free.length

theorem empty_accounts (kind : HandleKind) : (empty kind : Arena α).Accounts := rfl

theorem Accounts.insert (ha : a.Accounts) (x : α) : (a.insert x).2.Accounts := by
  unfold Accounts at ha ⊢
  rw [insert_length, insert_size, insert_free]
  cases hfree : a.free with
  | nil =>
      rw [hfree] at ha
      simpa using ha
  | cons slot rest =>
      rw [hfree, List.length_cons] at ha
      rw [if_neg (List.cons_ne_nil slot rest), List.tail_cons]
      omega

/-- A slot is added only if there is an object in each of the others. -/
theorem Accounts.insert_length_le (ha : a.Accounts) (x : α) :
    (a.insert x).2.slots.length ≤ max a.slots.length (a.insert x).2.size := by
  rw [insert_length, insert_size]
  split
  next hfree =>
    have hfull : a.slots.length = a.size := by simpa [Accounts, hfree] using ha
    omega
  next => exact Nat.le_max_left _ _

theorem remove_lengths (hr : a.remove raw = .ok (x, a')) :
    a'.slots.length = a.slots.length ∧ a'.free.length = a.free.length + 1 := by
  obtain ⟨k, -, rfl⟩ := remove_eq_ok.mp hr
  exact ⟨List.length_modify .., by simp [vacate]⟩

theorem Accounts.remove (ha : a.Accounts) (h : a.Tidy) (hr : a.remove raw = .ok (x, a')) :
    a'.Accounts := by
  unfold Accounts at ha ⊢
  obtain ⟨hslots, hfree⟩ := remove_lengths hr
  have hsize := remove_size h hr
  omega

/-! Taking several out and putting several in -/

/-- The objects under the handles were taken out, one after the other. -/
inductive Loses : Arena α → List UInt64 → Arena α → Prop
  | nil (a : Arena α) : Loses a [] a
  | cons {a a₁ a' : Arena α} {x : α} {raw : UInt64} {raws : List UInt64}
      (removed : a.remove raw = .ok (x, a₁)) (rest : Loses a₁ raws a') : Loses a (raw :: raws) a'

/-- Objects were put in, one after the other, and given the handles. -/
inductive Gains : Arena α → List UInt64 → Arena α → Prop
  | nil (a : Arena α) : Gains a [] a
  | cons {a a' : Arena α} {raws : List UInt64} (x : α) (rest : Gains (a.insert x).2 raws a') :
      Gains a ((a.insert x).1 :: raws) a'

variable {raws raws' : List UInt64}

namespace Loses

theorem occupied (h : Loses a raws a') : a'.occupied + raws.length = a.occupied := by
  induction h with
  | nil => rfl
  | cons removed _ ih =>
      obtain ⟨k, hk, rfl⟩ := remove_eq_ok.mp removed
      rw [List.length_cons, ← Nat.add_assoc, ih, vacate_occupied hk]

theorem stocks (h : Loses a raws a') (ha : a.Stocks kind) : a'.Stocks kind := by
  induction h with
  | nil => exact ha
  | cons removed _ ih => exact ih (ha.remove removed)

theorem size (h : Loses a raws a') (ha : a.Stocks kind) : a'.size + raws.length = a.size := by
  induction h with
  | nil => rfl
  | cons removed _ ih =>
      rw [List.length_cons, ← Nat.add_assoc, ih (ha.remove removed), remove_size ha.tidy removed]

theorem accounts (h : Loses a raws a') (ha : a.Stocks kind) (hacc : a.Accounts) :
    a'.Accounts := by
  induction h with
  | nil => exact hacc
  | cons removed _ ih => exact ih (ha.remove removed) (hacc.remove ha.tidy removed)

theorem length (h : Loses a raws a') : a'.slots.length = a.slots.length := by
  induction h with
  | nil => rfl
  | cons removed _ ih => exact ih.trans (remove_lengths removed).1

/-- What stands under a handle afterwards. -/
theorem get_iff (h : Loses a raws a') : a'.get raw = .ok y ↔ raw ∉ raws ∧ a.get raw = .ok y := by
  induction h with
  | nil => simp
  | cons removed _ ih =>
      rw [ih, remove_get_iff removed, List.mem_cons, not_or, ← and_assoc, and_comm (a := raw ∉ _)]

/-- Each of the handles named an object, and none of them is there twice. -/
theorem named (h : Loses a raws a') : raws.Nodup ∧ ∀ raw ∈ raws, ∃ x, a.get raw = .ok x := by
  induction h with
  | nil => exact ⟨.nil, fun _ hraw => absurd hraw List.not_mem_nil⟩
  | @cons a a₁ a' x raw raws removed _ ih =>
      obtain ⟨hnodup, hnamed⟩ := ih
      have hbefore : ∀ raw' ∈ raws, raw' ≠ raw ∧ ∃ x, a.get raw' = .ok x := by
        intro raw' hraw'
        obtain ⟨x', hx'⟩ := hnamed raw' hraw'
        obtain ⟨hne, hget⟩ := (remove_get_iff removed).mp hx'
        exact ⟨hne, x', hget⟩
      refine ⟨List.nodup_cons.mpr ⟨fun hraw => (hbefore raw hraw).1 rfl, hnodup⟩, ?_⟩
      exact List.forall_mem_cons.mpr ⟨⟨x, remove_get removed⟩, fun raw' h' => (hbefore raw' h').2⟩

theorem stale (h : Loses a raws a') (ha : a.Stocks kind) : ∀ raw ∈ raws, a'.Stale raw := by
  intro raw hraw
  obtain ⟨x, hx⟩ := h.named.2 raw hraw
  obtain ⟨k, hdecode, hkind, -⟩ := ha.get_iff.mp hx
  exact stale_of_get_ne hdecode (hkind.trans (h.stocks ha).kind.symm) fun y hy =>
    (h.get_iff.mp hy).1 hraw

/-- A slot that holds nothing keeps its generation. -/
theorem vacant_generation (h : Loses a raws a') {slot : Nat} (hvacant : a.live? slot = none) :
    a'.generation slot = a.generation slot := by
  induction h with
  | nil => rfl
  | cons removed _ ih =>
      obtain ⟨k, ⟨-, hlive⟩, hlive', hgeneration, -⟩ := remove_spec removed
      have hne : slot ≠ k.slot := by
        rintro rfl
        simp [hvacant] at hlive
      rw [ih (by rw [hlive', if_neg hne, hvacant]), hgeneration, if_neg hne]

/-- The slots that were emptied have other generations than before. -/
theorem generation_ne (h : Loses a raws a') (ha : a.Stocks kind) : ∀ raw ∈ raws, ∀ k,
    Handle.decode? raw = some k → a'.generation k.slot ≠ a.generation k.slot := by
  induction h with
  | nil => exact fun _ hraw => absurd hraw List.not_mem_nil
  | @cons a a₁ a' x raw raws removed rest ih =>
      obtain ⟨k, ⟨hk, -⟩, hlive, hgeneration, -⟩ := remove_spec removed
      refine List.forall_mem_cons.mpr ⟨fun k' hk' => ?_, fun raw' hraw' k' hk' => ?_⟩
      · obtain rfl := Option.some.inj ((decode_eq_ok hk).1.symm.trans hk')
        rw [rest.vacant_generation (by rw [hlive, if_pos rfl]), hgeneration, if_pos rfl]
        exact nextGeneration_ne _
      · have hne : k'.slot ≠ k.slot := by
          intro hslot
          obtain ⟨x', hx'⟩ := rest.named.2 raw' hraw'
          obtain ⟨k'', hk'', -, hlive''⟩ := (ha.remove removed).get_iff.mp hx'
          obtain rfl := Option.some.inj (hk'.symm.trans hk'')
          rw [hlive, if_pos hslot] at hlive''
          simp at hlive''
        have hother := ih (ha.remove removed) raw' hraw' k' hk'
        rwa [hgeneration, if_neg hne] at hother

/-- If no generation falls, the slots that were emptied have moved on for good. -/
theorem past (h : Loses a raws a') (ha : a.Stocks kind)
    (generations : ∀ slot, a.generation slot ≤ a'.generation slot) : ∀ raw ∈ raws, a'.Past raw := by
  intro raw hraw
  obtain ⟨x, hx⟩ := h.named.2 raw hraw
  obtain ⟨k, hdecode, hkind, hlive⟩ := ha.get_iff.mp hx
  have hne := h.generation_ne ha raw hraw k hdecode
  rw [live?_generation hlive] at hne
  have hle := generations k.slot
  rw [live?_generation hlive] at hle
  exact ⟨k, hdecode, hkind.trans (h.stocks ha).kind.symm, Nat.lt_of_le_of_ne hle (Ne.symm hne)⟩

end Loses

namespace Gains

theorem stocks (h : Gains a raws a') (ha : a.Stocks kind) : a'.Stocks kind := by
  induction h with
  | nil => exact ha
  | cons x _ ih => exact ih (ha.insert x)

theorem append (h : Gains a raws a₁) (h' : Gains a₁ raws' a') : Gains a (raws ++ raws') a' := by
  induction h with
  | nil => exact h'
  | cons x _ ih => exact .cons x (ih h')

theorem size (h : Gains a raws a') : a'.size = a.size + raws.length := by
  induction h with
  | nil => rfl
  | cons x _ ih => rw [ih, insert_size, List.length_cons, Nat.add_assoc, Nat.add_comm 1]

theorem generation (h : Gains a raws a') (ha : a.Stocks kind) (slot : Nat) :
    a'.generation slot = a.generation slot := by
  induction h with
  | nil => rfl
  | cons x _ ih => rw [ih (ha.insert x), insert_generation ha.tidy]

theorem length_le (h : Gains a raws a') : a.slots.length ≤ a'.slots.length := by
  induction h with
  | nil => exact Nat.le_refl _
  | cons x _ ih => exact Nat.le_trans (length_le_insert _ x) ih

theorem accounts (h : Gains a raws a') (hacc : a.Accounts) : a'.Accounts := by
  induction h with
  | nil => exact hacc
  | cons x _ ih => exact ih (hacc.insert x)

/-- There are no more slots than there were before or than there are objects now. -/
theorem length_le_max (h : Gains a raws a') (hacc : a.Accounts) :
    a'.slots.length ≤ max a.slots.length a'.size := by
  induction h with
  | nil => exact Nat.le_max_left _ _
  | cons x rest ih =>
      have hslots := ih (hacc.insert x)
      have hfirst := hacc.insert_length_le x
      have hsize := rest.size
      omega

section Room
variable (room : a'.slots.length ≤ 0x100000000)

include room

/-- What stood under a handle goes on standing there. -/
theorem keeps (h : Gains a raws a') (ha : a.Stocks kind) (hget : a.get raw = .ok y) :
    a'.get raw = .ok y := by
  induction h with
  | nil => exact hget
  | cons x rest ih =>
      have hroom := Nat.le_trans rest.length_le room
      exact ih room (ha.insert x) ((ha.insert_get x hroom).mpr (.inr hget))

/-- Nothing came in but under the new handles. -/
theorem only (h : Gains a raws a') (ha : a.Stocks kind) (hget : a'.get raw = .ok y) :
    raw ∈ raws ∨ a.get raw = .ok y := by
  induction h with
  | nil => exact .inr hget
  | cons x rest ih =>
      have hroom := Nat.le_trans rest.length_le room
      rcases ih room (ha.insert x) hget with hraw | hbefore
      · exact .inl (List.mem_cons_of_mem _ hraw)
      · rcases (ha.insert_get x hroom).mp hbefore with ⟨rfl, -⟩ | hold
        · exact .inl List.mem_cons_self
        · exact .inr hold

/-- The new handles are new, and each names an object. -/
theorem fresh (h : Gains a raws a') (ha : a.Stocks kind) : raws.Nodup ∧ ∀ raw ∈ raws,
    (∃ x, a'.get raw = .ok x) ∧ (∀ y, a.get raw ≠ .ok y) ∧ ¬a.Past raw := by
  induction h with
  | nil => exact ⟨.nil, fun _ hraw => absurd hraw List.not_mem_nil⟩
  | @cons a a' raws x rest ih =>
      have hroom := Nat.le_trans rest.length_le room
      have hnew : (a.insert x).2.get (a.insert x).1 = .ok x :=
        (ha.insert_get x hroom).mpr (.inl ⟨rfl, rfl⟩)
      obtain ⟨hnodup, hfresh⟩ := ih room (ha.insert x)
      refine ⟨List.nodup_cons.mpr ⟨fun hraw => (hfresh _ hraw).2.1 x hnew, hnodup⟩, ?_⟩
      refine List.forall_mem_cons.mpr ⟨⟨⟨x, rest.keeps room (ha.insert x) hnew⟩,
        ha.insert_fresh x hroom⟩, fun raw hraw => ?_⟩
      obtain ⟨hthere, habsent, hpast⟩ := hfresh raw hraw
      refine ⟨hthere, fun y hy => ?_, fun hbefore => hpast (hbefore.mono (insert_kind a x) ?_)⟩
      · exact habsent y ((ha.insert_get x hroom).mpr (.inr hy))
      · exact fun slot => Nat.le_of_eq (insert_generation ha.tidy x slot).symm

end Room
end Gains

/-- Objects under the first handles were taken out, and then others were put in and given the
second ones. -/
def Trades (a : Arena α) (taken given : List UInt64) (a' : Arena α) : Prop :=
  ∃ b, a.Loses taken b ∧ b.Gains given a'

namespace Trades
variable {taken given : List UInt64}

theorem refl (a : Arena α) : a.Trades [] [] a := ⟨a, .nil a, .nil a⟩

theorem size (h : a.Trades taken given a') (ha : a.Stocks kind) :
    a'.size + taken.length = a.size + given.length := by
  obtain ⟨b, hloses, hgains⟩ := h
  have hbefore := hloses.size ha
  have hafter := hgains.size
  omega

theorem stocks (h : a.Trades taken given a') (ha : a.Stocks kind) : a'.Stocks kind := by
  obtain ⟨b, hloses, hgains⟩ := h
  exact hgains.stocks (hloses.stocks ha)

theorem accounts (h : a.Trades taken given a') (ha : a.Stocks kind) (hacc : a.Accounts) :
    a'.Accounts := by
  obtain ⟨b, hloses, hgains⟩ := h
  exact hgains.accounts (hloses.accounts ha hacc)

theorem length_le_max (h : a.Trades taken given a') (ha : a.Stocks kind) (hacc : a.Accounts) :
    a'.slots.length ≤ max a.slots.length a'.size := by
  obtain ⟨b, hloses, hgains⟩ := h
  have hslots := hgains.length_le_max (hloses.accounts ha hacc)
  rwa [hloses.length] at hslots

/-- What is taken was there, each object once, and its handle is of no more use. -/
theorem takes (h : a.Trades taken given a') (ha : a.Stocks kind)
    (generations : ∀ slot, a.generation slot ≤ a'.generation slot) : taken.Nodup ∧
    ∀ raw ∈ taken, (∃ x, a.get raw = .ok x) ∧ a'.Past raw := by
  obtain ⟨b, hloses, hgains⟩ := h
  have hb := hloses.stocks ha
  have hsame := fun slot => hgains.generation hb slot
  obtain ⟨hnodup, hnamed⟩ := hloses.named
  refine ⟨hnodup, fun raw hraw => ⟨hnamed raw hraw, ?_⟩⟩
  refine (hloses.past ha (fun slot => hsame slot ▸ generations slot) raw hraw).mono ?_
    fun slot => Nat.le_of_eq (hsame slot).symm
  exact (hgains.stocks hb).kind.trans hb.kind.symm

section Room
variable (room : a'.slots.length ≤ 0x100000000)

include room

/-- What is not taken goes on standing where it stood. -/
theorem keeps (h : a.Trades taken given a') (ha : a.Stocks kind) (hraw : raw ∉ taken)
    (hget : a.get raw = .ok y) : a'.get raw = .ok y := by
  obtain ⟨b, hloses, hgains⟩ := h
  exact hgains.keeps room (hloses.stocks ha) (hloses.get_iff.mpr ⟨hraw, hget⟩)

theorem only (h : a.Trades taken given a') (ha : a.Stocks kind) (hget : a'.get raw = .ok y) :
    raw ∈ given ∨ raw ∉ taken ∧ a.get raw = .ok y := by
  obtain ⟨b, hloses, hgains⟩ := h
  exact (hgains.only room (hloses.stocks ha) hget).imp_right hloses.get_iff.mp

/-- The handles that are given name something now. None of them named anything before. -/
theorem gives (h : a.Trades taken given a') (ha : a.Stocks kind)
    (generations : ∀ slot, a.generation slot ≤ a'.generation slot) : given.Nodup ∧
    ∀ raw ∈ given, (∃ x, a'.get raw = .ok x) ∧ (∀ y, a.get raw ≠ .ok y) ∧ ¬a.Past raw := by
  obtain ⟨b, hloses, hgains⟩ := h
  have hb := hloses.stocks ha
  have hkept : ∀ slot, a.generation slot ≤ b.generation slot := fun slot =>
    hgains.generation hb slot ▸ generations slot
  obtain ⟨hnodup, hfresh⟩ := hgains.fresh room hb
  refine ⟨hnodup, fun raw hraw => ?_⟩
  obtain ⟨hthere, habsent, hpast⟩ := hfresh raw hraw
  have hbefore : ¬a.Past raw := fun h =>
    hpast (h.mono (hb.kind.trans ha.kind.symm) hkept)
  refine ⟨hthere, fun y hy => ?_, hbefore⟩
  -- Had it been there before, it would have been taken, and its slot would have moved on.
  by_cases htaken : raw ∈ taken
  · exact hpast (hloses.past ha hkept raw htaken)
  · exact habsent y (hloses.get_iff.mpr ⟨htaken, hy⟩)

end Room
end Trades
end Arena
end SnapshotStore
