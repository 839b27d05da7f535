import SnapshotStore.Arena
import SnapshotStore.Proofs.Outcome

/-!
Arenas as functions from slots to what they hold. Each operation touches one slot. A new
object never goes into a slot that holds one, since the free slots are exactly kept, and what is
located in a slot is still there when it is read or taken out.
-/

namespace SnapshotStore
namespace Arena

universe u
variable {α : Type u} {a a' : Arena α} {x : α} {raw : UInt64} {k : Handle}

/-- The generation and the object of a slot that holds one. -/
def live? (a : Arena α) (slot : Nat) : Option (Nat × α) :=
  a.slots[slot]?.bind fun s => s.object?.map (s.generation, ·)

/-- The generation of a slot, one if there never was such a slot. -/
def generation (a : Arena α) (slot : Nat) : Nat := a.slots[slot]?.elim 1 (·.generation)

/-- How many slots hold an object. -/
def occupied (a : Arena α) : Nat := a.slots.countP (·.object?.isSome)

/-- Free slots are empty and listed once, every generation fits a handle, and the objects are
counted right. -/
structure Tidy (a : Arena α) : Prop where
  empty : ∀ slot ∈ a.free, ∃ generation, a.slots[slot]? = some ⟨generation, none⟩
  nodup : a.free.Nodup
  generations : ∀ (slot : Nat) (s : Slot α), a.slots[slot]? = some s →
    1 ≤ s.generation ∧ s.generation < 0x1000000
  counted : a.size = a.occupied

theorem empty_tidy (kind : HandleKind) : (empty kind : Arena α).Tidy :=
  ⟨by simp [Arena.empty], .nil, by simp [Arena.empty], rfl⟩

theorem nextGeneration_bounds (g : Nat) :
    1 ≤ nextGeneration g ∧ nextGeneration g < 0x1000000 := by
  have h := Nat.mod_lt (g + 1) (show 0 < 0x1000000 by decide)
  unfold nextGeneration
  omega

/-- A slot that is emptied changes its generation, even if the generation wraps. -/
theorem nextGeneration_ne (g : Nat) : nextGeneration g ≠ g := by
  unfold nextGeneration
  by_cases h : g + 1 < 0x1000000
  · rw [Nat.mod_eq_of_lt h]
    omega
  · have h' := Nat.mod_lt (g + 1) (show 0 < 0x1000000 by decide)
    by_cases hg : g + 1 = 0x1000000
    · rw [hg]
      omega
    · omega

theorem live?_eq_some {slot g : Nat} :
    a.live? slot = some (g, x) ↔ a.slots[slot]? = some ⟨g, some x⟩ := by
  unfold live?
  cases a.slots[slot]? with
  | none => simp
  | some s =>
      obtain ⟨g', o⟩ := s
      cases o <;> simp

theorem Tidy.live? (h : a.Tidy) {slot : Nat} (hs : slot ∈ a.free) : a.live? slot = none := by
  obtain ⟨g, hg⟩ := h.empty slot hs
  simp [Arena.live?, hg]

theorem live?_generation {slot g : Nat} (h : a.live? slot = some (g, x)) :
    a.generation slot = g := by
  rw [generation, live?_eq_some.mp h]
  rfl

/-! Looking up -/

theorem decode_eq_ok {h : Handle} (hd : a.decode raw = .ok h) :
    Handle.decode? raw = some h ∧ h.kind = a.kind := by
  unfold decode at hd
  split at hd
  · simp at hd
  next hs =>
    split at hd
    next hk =>
      obtain rfl := Except.ok.inj hd
      exact ⟨hs, hk⟩
    next => simp at hd

/-- The number is that of a handle whose slot holds the object. -/
structure Names (a : Arena α) (raw : UInt64) (k : Handle) (x : α) : Prop where
  decode : a.decode raw = .ok k
  live : a.live? k.slot = some (k.generation, x)

theorem locate_eq_ok : a.locate raw = .ok k ↔ ∃ x, a.Names raw k x := by
  have hnames : (∃ x, a.Names raw k x) ↔
      a.decode raw = .ok k ∧ ∃ x, a.slots[k.slot]? = some ⟨k.generation, some x⟩ := by
    simp only [← live?_eq_some, ← exists_and_left]
    exact exists_congr fun x => ⟨fun h => ⟨h.decode, h.live⟩, fun h => ⟨h.1, h.2⟩⟩
  rw [hnames, locate]
  cases a.decode raw with
  | error e => simp
  | ok h =>
      simp only [Except.ok.injEq]
      split
      next g y hs =>
        by_cases hg : g = h.generation
        · rw [if_pos hg, Except.ok.injEq]
          exact ⟨fun hk => ⟨hk, y, by rw [← hk, hs, hg]⟩, And.left⟩
        · rw [if_neg hg]
          simp only [reduceCtorEq, false_iff, not_and, not_exists]
          rintro rfl x hx
          exact hg (congrArg Slot.generation (Option.some.inj (hs.symm.trans hx)))
      next hs =>
        simp only [reduceCtorEq, false_iff, not_and, not_exists]
        rintro rfl x hx
        exact hs _ _ hx

namespace Names

theorem object? (h : a.Names raw k x) : a.object? k.slot = some x := by
  rw [Arena.object?, live?_eq_some.mp h.live]
  rfl

theorem get (h : a.Names raw k x) : a.get raw = .ok x := by
  simp only [Arena.get, locate_eq_ok.mpr ⟨x, h⟩, h.object?]

theorem modify (h : a.Names raw k x) (f : α → α) : a.modify raw f = .ok (a.put k.slot (f x)) := by
  simp only [Arena.modify, locate_eq_ok.mpr ⟨x, h⟩, h.object?]

theorem remove (h : a.Names raw k x) : a.remove raw = .ok (x, a.vacate k.slot) := by
  simp only [Arena.remove, locate_eq_ok.mpr ⟨x, h⟩, h.object?]

end Names

/-- What is located in a slot is there to be read, changed or taken out. -/
theorem locate_cases (a : Arena α) (raw : UInt64) :
    (∃ e, a.locate raw = .error e) ∨ ∃ k x, a.Names raw k x := by
  cases hl : a.locate raw with
  | error e => exact .inl ⟨e, rfl⟩
  | ok k => exact .inr ⟨k, locate_eq_ok.mp hl⟩

theorem get_eq_ok : a.get raw = .ok x ↔ ∃ k, a.Names raw k x := by
  refine ⟨fun h => ?_, fun ⟨k, hk⟩ => hk.get⟩
  rcases a.locate_cases raw with ⟨e, he⟩ | ⟨k, y, hk⟩
  · simp [get, he] at h
  · obtain rfl := Except.ok.inj (hk.get.symm.trans h)
    exact ⟨k, hk⟩

theorem modify_eq_ok {f : α → α} : a.modify raw f = .ok a' ↔
    ∃ k x, a.Names raw k x ∧ a.put k.slot (f x) = a' := by
  refine ⟨fun h => ?_, fun ⟨k, x, hk, hput⟩ => hput ▸ hk.modify f⟩
  rcases a.locate_cases raw with ⟨e, he⟩ | ⟨k, x, hk⟩
  · simp [modify, he] at h
  · exact ⟨k, x, hk, Except.ok.inj ((hk.modify f).symm.trans h)⟩

theorem remove_eq_ok : a.remove raw = .ok (x, a') ↔
    ∃ k, a.Names raw k x ∧ a.vacate k.slot = a' := by
  refine ⟨fun h => ?_, fun ⟨k, hk, hvacate⟩ => hvacate ▸ hk.remove⟩
  rcases a.locate_cases raw with ⟨e, he⟩ | ⟨k, y, hk⟩
  · simp [remove, he] at h
  · obtain ⟨rfl, hvacate⟩ := Prod.mk.inj (Except.ok.inj (hk.remove.symm.trans h))
    exact ⟨k, hk, hvacate⟩

/-! A number that names nothing is refused where it is looked up. -/

theorem get_eq_error {e : Error} : a.get raw = .error e ↔ a.locate raw = .error e := by
  rcases a.locate_cases raw with ⟨e', he⟩ | ⟨k, x, hk⟩
  · simp [get, he]
  · simp [hk.get, locate_eq_ok.mpr ⟨x, hk⟩]

theorem modify_eq_error {f : α → α} {e : Error} :
    a.modify raw f = .error e ↔ a.locate raw = .error e := by
  rcases a.locate_cases raw with ⟨e', he⟩ | ⟨k, x, hk⟩
  · simp [modify, he]
  · simp [hk.modify f, locate_eq_ok.mpr ⟨x, hk⟩]

theorem remove_eq_error {e : Error} : a.remove raw = .error e ↔ a.locate raw = .error e := by
  rcases a.locate_cases raw with ⟨e', he⟩ | ⟨k, x, hk⟩
  · simp [remove, he]
  · simp [hk.remove, locate_eq_ok.mpr ⟨x, hk⟩]

/-! Putting in -/

def vacancy (a : Arena α) : Nat := a.free.head?.getD a.slots.length

theorem insert_handle (a : Arena α) (x : α) :
    (a.insert x).1 = (Handle.ofParts a.kind a.vacancy (a.generation a.vacancy)).encode := by
  unfold insert generation vacancy
  cases a.free <;> simp

theorem insert_slots (h : a.Tidy) (x : α) (s : Nat) : (a.insert x).2.slots[s]? =
    if s = a.vacancy then some ⟨a.generation s, some x⟩ else a.slots[s]? := by
  cases hf : a.free with
  | nil =>
      have hv : a.vacancy = a.slots.length := by simp [vacancy, hf]
      rw [hv]
      simp only [insert, hf]
      rw [List.getElem?_append, List.getElem?_singleton]
      by_cases hs : s < a.slots.length
      · rw [if_pos hs, if_neg (Nat.ne_of_lt hs)]
      · rw [if_neg hs]
        by_cases he : s = a.slots.length
        · simp [he, generation]
        · rw [if_neg (by omega), if_neg he, List.getElem?_eq_none (Nat.le_of_not_lt hs)]
  | cons slot rest =>
      have hv : a.vacancy = slot := by simp [vacancy, hf]
      obtain ⟨g, hg⟩ := h.empty slot (by simp [hf])
      have hlt : slot < a.slots.length := (List.getElem?_eq_some_iff.mp hg).1
      simp only [insert, hf, hv]
      rw [List.getElem?_set]
      by_cases he : slot = s
      · subst he
        rw [if_pos rfl, if_pos hlt, if_pos rfl, generation, hg]
      · rw [if_neg he, if_neg (Ne.symm he)]

theorem Tidy.vacancy (h : a.Tidy) : a.live? a.vacancy = none := by
  cases hf : a.free with
  | nil => simp [Arena.vacancy, hf, Arena.live?]
  | cons slot rest =>
      have hs : a.vacancy = slot := by simp [Arena.vacancy, hf]
      rw [hs]
      exact h.live? (by simp [hf])

/-- A new object goes into a slot that holds none. -/
theorem insert_live? (h : a.Tidy) (x : α) (s : Nat) : (a.insert x).2.live? s =
    if s = a.vacancy then some (a.generation s, x) else a.live? s := by
  simp only [live?, insert_slots h]
  split <;> rfl

/-- The slot of a new object has the generation already that the object gets. -/
theorem insert_generation (h : a.Tidy) (x : α) (s : Nat) :
    (a.insert x).2.generation s = a.generation s := by
  simp only [generation, insert_slots h]
  split <;> rfl

theorem insert_kind (a : Arena α) (x : α) : (a.insert x).2.kind = a.kind := by
  cases hf : a.free <;> simp [insert, hf]

theorem insert_free (a : Arena α) (x : α) : (a.insert x).2.free = a.free.tail := by
  cases hf : a.free <;> simp [insert, hf]

theorem generation_bounds (h : a.Tidy) (slot : Nat) :
    1 ≤ a.generation slot ∧ a.generation slot < 0x1000000 := by
  unfold generation
  cases hs : a.slots[slot]? with
  | none => simp
  | some s => exact h.generations slot s hs

theorem insert_generations (h : a.Tidy) (x : α) (slot : Nat) (s : Slot α)
    (hs : (a.insert x).2.slots[slot]? = some s) : 1 ≤ s.generation ∧ s.generation < 0x1000000 := by
  rw [insert_slots h] at hs
  split at hs
  · obtain rfl := Option.some.inj hs
    exact generation_bounds h slot
  · exact h.generations slot s hs

theorem insert_size (a : Arena α) (x : α) : (a.insert x).2.size = a.size + 1 := by
  unfold insert size
  cases a.free <;> rfl

theorem insert_occupied (h : a.Tidy) (x : α) : (a.insert x).2.occupied = a.occupied + 1 := by
  unfold insert occupied
  cases hfree : a.free with
  | nil => simp
  | cons slot rest =>
      obtain ⟨g, hslot⟩ := h.empty slot (by simp [hfree])
      obtain ⟨hlt, hempty⟩ := List.getElem?_eq_some_iff.mp hslot
      simp only [List.countP_set hlt, hempty]
      simp

theorem insert_counted (h : a.Tidy) (x : α) :
    (a.insert x).2.size = (a.insert x).2.occupied := by
  rw [insert_size, insert_occupied h, h.counted]

theorem insert_tidy (h : a.Tidy) (x : α) : (a.insert x).2.Tidy := by
  cases hf : a.free with
  | nil =>
      exact ⟨by simp [insert_free, hf], by simp [insert_free, hf], insert_generations h x,
        insert_counted h x⟩
  | cons slot rest =>
      have hv : a.vacancy = slot := by simp [vacancy, hf]
      obtain ⟨hout, hrest⟩ := List.nodup_cons.mp (hf ▸ h.nodup)
      refine ⟨fun s hs => ?_, by rwa [insert_free, hf], insert_generations h x,
        insert_counted h x⟩
      rw [insert_free, hf, List.tail_cons] at hs
      have hne : s ≠ slot := fun he => hout (he ▸ hs)
      rw [insert_slots h, hv, if_neg hne]
      exact h.empty s (hf ▸ List.mem_cons_of_mem slot hs)

/-! Taking out and changing -/

/-- What is done to a slot changes the number of objects by what it does to that slot. -/
theorem countP_modify {s : Slot α} {slot : Nat} {f : Slot α → Slot α} {slots : List (Slot α)}
    (hs : slots[slot]? = some s) (h : s.object?.isSome) :
    (slots.modify slot f).countP (·.object?.isSome) + 1 =
      slots.countP (·.object?.isSome) + if (f s).object?.isSome then 1 else 0 := by
  induction slots generalizing slot with
  | nil => simp at hs
  | cons s' slots ih =>
      cases slot with
      | zero =>
          obtain rfl := Option.some.inj hs
          simp only [List.modify_zero_cons, List.countP_cons, h, if_true]
          omega
      | succ slot =>
          have hrest := ih hs
          simp only [List.modify_succ_cons, List.countP_cons]
          omega

theorem vacate_occupied (h : a.Names raw k x) :
    (a.vacate k.slot).occupied + 1 = a.occupied := by
  have hcount := countP_modify (f := Slot.retire) (live?_eq_some.mp h.live) rfl
  simpa [occupied, vacate, Slot.retire] using hcount

theorem put_occupied (h : a.Names raw k x) (y : α) : (a.put k.slot y).occupied = a.occupied := by
  have hcount := countP_modify (f := fun s => { s with object? := some y })
    (live?_eq_some.mp h.live) rfl
  simpa [occupied, put] using hcount

theorem vacate_tidy (hk : a.Names raw k x) (h : a.Tidy) : (a.vacate k.slot).Tidy := by
  have hslot := live?_eq_some.mp hk.live
  have hout : k.slot ∉ a.free := by
    intro hf
    exact Option.some_ne_none _ (hk.live.symm.trans (h.live? hf))
  refine ⟨?_, ?_, ?_, ?_⟩
  · intro s hs
    simp only [vacate, List.getElem?_modify]
    rcases List.mem_append.mp hs with hs | hs
    · have hne : k.slot ≠ s := fun he => hout (he ▸ hs)
      obtain ⟨g, hg⟩ := h.empty s hs
      exact ⟨g, by simp [hne, hg]⟩
    · obtain rfl := List.mem_singleton.mp hs
      exact ⟨nextGeneration k.generation, by simp [hslot, Slot.retire]⟩
  · refine List.nodup_append.mpr ⟨h.nodup, by simp, ?_⟩
    intro s hs t ht
    obtain rfl := List.mem_singleton.mp ht
    exact fun he => hout (he ▸ hs)
  · intro s sl hs
    simp only [vacate, List.getElem?_modify, Option.map_eq_map, Option.map_eq_some_iff] at hs
    obtain ⟨old, ho, rfl⟩ := hs
    split
    · exact nextGeneration_bounds old.generation
    · exact h.generations s old ho
  · have hbefore := h.counted
    have hoccupied := vacate_occupied hk
    simp only [size, vacate] at hbefore hoccupied ⊢
    omega

theorem remove_spec (hr : a.remove raw = .ok (x, a')) : ∃ k,
    a.Names raw k x ∧
    (∀ s, a'.live? s = if s = k.slot then none else a.live? s) ∧
    (∀ s, a'.generation s =
      if s = k.slot then nextGeneration (a.generation s) else a.generation s) ∧
    a'.kind = a.kind ∧ (a.Tidy → a'.Tidy) := by
  obtain ⟨k, hk, rfl⟩ := remove_eq_ok.mp hr
  have hslot := live?_eq_some.mp hk.live
  refine ⟨k, hk, ?_, ?_, rfl, vacate_tidy hk⟩
  · intro s
    simp only [live?, vacate, List.getElem?_modify]
    by_cases he : k.slot = s
    · subst he
      simp [hslot, Slot.retire]
    · simp [he, Ne.symm he]
  · intro s
    simp only [generation, vacate, List.getElem?_modify]
    by_cases he : k.slot = s
    · subst he
      simp [hslot, Slot.retire]
    · simp [he, Ne.symm he]

theorem remove_size (h : a.Tidy) (hr : a.remove raw = .ok (x, a')) : a'.size + 1 = a.size := by
  obtain ⟨k, hk, rfl⟩ := remove_eq_ok.mp hr
  rw [h.counted, (vacate_tidy hk h).counted, vacate_occupied hk]

theorem put_tidy (hk : a.Names raw k x) (h : a.Tidy) (y : α) : (a.put k.slot y).Tidy := by
  refine ⟨?_, h.nodup, ?_, h.counted.trans (put_occupied hk y).symm⟩
  · intro s hs
    have hne : k.slot ≠ s := by
      rintro rfl
      exact Option.some_ne_none _ (hk.live.symm.trans (h.live? hs))
    obtain ⟨g, hg⟩ := h.empty s hs
    exact ⟨g, by simp [put, hne, hg]⟩
  · intro s sl hs
    simp only [put, List.getElem?_modify, Option.map_eq_map, Option.map_eq_some_iff] at hs
    obtain ⟨old, ho, rfl⟩ := hs
    have hb := h.generations s old ho
    split <;> exact hb

/-- Changing an object leaves it in its slot. -/
theorem modify_spec {f : α → α} (hm : a.modify raw f = .ok a') : ∃ k x,
    a.Names raw k x ∧
    (∀ s, a'.live? s = if s = k.slot then some (k.generation, f x) else a.live? s) ∧
    (∀ s, a'.generation s = a.generation s) ∧ a'.kind = a.kind ∧ (a.Tidy → a'.Tidy) := by
  obtain ⟨k, x, hk, rfl⟩ := modify_eq_ok.mp hm
  have hslot := live?_eq_some.mp hk.live
  refine ⟨k, x, hk, ?_, ?_, rfl, fun h => put_tidy hk h (f x)⟩
  · intro s
    simp only [live?, put, List.getElem?_modify]
    by_cases he : k.slot = s
    · subst he
      simp [hslot]
    · simp [he, Ne.symm he]
  · intro s
    simp only [generation, put, List.getElem?_modify]
    by_cases he : k.slot = s
    · subst he
      simp [hslot]
    · simp [he]

structure Stocks (a : Arena α) (kind : HandleKind) : Prop where
  tidy : a.Tidy
  kind : a.kind = kind

namespace Stocks
variable {kind : HandleKind}

theorem empty (kind : HandleKind) : (Arena.empty kind : Arena α).Stocks kind :=
  ⟨empty_tidy kind, rfl⟩

theorem insert (h : a.Stocks kind) (x : α) : (a.insert x).2.Stocks kind :=
  ⟨insert_tidy h.tidy x, (insert_kind a x).trans h.kind⟩

theorem remove (h : a.Stocks kind) (hr : a.remove raw = .ok (x, a')) : a'.Stocks kind := by
  obtain ⟨-, -, -, -, hkind, htidy⟩ := remove_spec hr
  exact ⟨htidy h.tidy, hkind.trans h.kind⟩

theorem modify (h : a.Stocks kind) {f : α → α} (hm : a.modify raw f = .ok a') :
    a'.Stocks kind := by
  obtain ⟨-, -, -, -, -, hkind, htidy⟩ := modify_spec hm
  exact ⟨htidy h.tidy, hkind.trans h.kind⟩

end Stocks
end Arena
end SnapshotStore
