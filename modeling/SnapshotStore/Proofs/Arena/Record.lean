import SnapshotStore.Proofs.NatMap
import SnapshotStore.Proofs.Registry

/-!
Arenas as finite maps with fresh keys. A record of the calls on an arena keeps the handles that
were issued and what was last stored under those that still stand. As long as no generation
wraps, the record alone tells what every call answers.
-/

namespace SnapshotStore

namespace NatMap

universe v
variable {α : Type v} {m : NatMap α} {key : Nat} {x : α}

theorem size_eq_countP (m : NatMap α) : m.size = m.values.countP fun _ => true := by
  rw [List.countP_true, values_length, keys_length]

theorem size_erase (h : m.get? key = some x) : (m.erase key).size + 1 = m.size := by
  have hcount := countP_erase (fun _ => true) h
  rwa [← size_eq_countP, ← size_eq_countP] at hcount

theorem size_insert_of_get? (h : m.get? key = some x) (y : α) :
    (m.insert key y).size = m.size := by
  have hcount := m.countP_insert (fun _ => true) key y
  rw [← size_eq_countP, ← size_eq_countP] at hcount
  rw [hcount]
  exact size_erase h

end NatMap

namespace Arena

universe u
variable {α : Type u} {a a' : Arena α} {raw raw' : UInt64} {x y : α} {f : α → α}
  {kind : HandleKind}

/-! Changing one object -/

/-- What stands under a handle after an object was changed. -/
theorem Stocks.modify_get (h : a.Stocks kind) (hm : a.modify raw f = .ok a') :
    (∃ x, a.get raw = .ok x ∧ a'.get raw = .ok (f x)) ∧
    ∀ raw' y, raw' ≠ raw → (a'.get raw' = .ok y ↔ a.get raw' = .ok y) := by
  obtain ⟨k, x, hk, hlive', -⟩ := modify_spec hm
  obtain ⟨hdecode, hkind⟩ := decode_eq_ok_iff.mp hk.decode
  refine ⟨⟨x, hk.get, ?_⟩, fun raw' y hne => ?_⟩
  · exact (h.modify hm).get_iff.mpr ⟨k, hdecode, hkind.trans h.kind, by rw [hlive', if_pos rfl]⟩
  · rw [(h.modify hm).get_iff, h.get_iff]
    refine exists_congr fun k' => and_congr_right fun hdecode' => and_congr_right fun hkind' => ?_
    rw [hlive']
    split
    next hslot =>
      -- Another handle to the same slot is of another generation.
      have hother : k.generation ≠ k'.generation := fun hg => hne (handle_unique hdecode' hdecode
        ((hkind'.trans h.kind.symm).trans hkind.symm) hslot hg.symm)
      rw [hslot, hk.live]
      simp [hother]
    next => rfl

theorem modify_size (hm : a.modify raw f = .ok a') : a'.size = a.size := by
  obtain ⟨k, x, -, rfl⟩ := modify_eq_ok.mp hm
  rfl

/-! Taking all objects out -/

theorem clear_slots (a : Arena α) (slot : Nat) : a.clear.slots[slot]? =
    a.slots[slot]?.map fun s => if s.object?.isSome then s.retire else s :=
  List.getElem?_map ..

theorem clear_live? (a : Arena α) (slot : Nat) : a.clear.live? slot = none := by
  rw [live?, clear_slots]
  cases a.slots[slot]? with
  | none => rfl
  | some s =>
      obtain ⟨g, o⟩ := s
      cases o <;> rfl

theorem clear_generation {slot g : Nat} (h : a.live? slot = some (g, x)) :
    a.clear.generation slot = nextGeneration g := by
  rw [generation, clear_slots, live?_eq_some.mp h]
  rfl

theorem clear_occupied (a : Arena α) : a.clear.occupied = 0 := by
  simp only [occupied, clear, List.countP_map, List.countP_eq_zero, Function.comp_apply]
  intro s _
  obtain ⟨g, o⟩ := s
  cases o <;> simp [Slot.retire]

theorem clear_tidy (h : a.Tidy) : a.clear.Tidy := by
  refine ⟨fun slot hslot => ?_, ?_, fun slot s hs => ?_, (clear_occupied a).symm⟩
  · rw [clear_slots]
    rcases List.mem_append.mp hslot with hfree | hlive
    · obtain ⟨g, hg⟩ := h.empty slot hfree
      exact ⟨g, by rw [hg]; rfl⟩
    · have hobject := (List.mem_filter.mp hlive).2
      cases hs : a.slots[slot]? with
      | none => simp [hs] at hobject
      | some s =>
          simp only [hs, Option.any_some] at hobject
          exact ⟨nextGeneration s.generation, by simp [hobject, Slot.retire]⟩
  · refine List.nodup_append.mpr ⟨h.nodup, List.nodup_range.filter _, ?_⟩
    rintro slot hfree _ hlive rfl
    obtain ⟨g, hg⟩ := h.empty slot hfree
    simp [hg] at hlive
  · rw [clear_slots, Option.map_eq_some_iff] at hs
    obtain ⟨old, hold, rfl⟩ := hs
    split
    · exact nextGeneration_bounds old.generation
    · exact h.generations slot old hold

theorem Stocks.clear (h : a.Stocks kind) : a.clear.Stocks kind := ⟨clear_tidy h.tidy, h.kind⟩

/-- An arena that was cleared holds nothing under any handle. -/
theorem Stocks.clear_get (h : a.Stocks kind) : a.clear.get raw ≠ .ok x := by
  intro hget
  obtain ⟨k, -, -, hlive⟩ := h.clear.get_iff.mp hget
  simp [clear_live?] at hlive

/-- If no generation falls, the slots that were cleared have moved on for good. -/
theorem Stocks.clear_past (h : a.Stocks kind) (hget : a.get raw = .ok x)
    (generations : ∀ slot, a.generation slot ≤ a.clear.generation slot) : a.clear.Past raw := by
  obtain ⟨k, hdecode, hkind, hlive⟩ := h.get_iff.mp hget
  have hle := generations k.slot
  rw [live?_generation hlive, clear_generation hlive] at hle
  refine ⟨k, hdecode, hkind.trans h.clear.kind.symm, ?_⟩
  rw [clear_generation hlive]
  exact Nat.lt_of_le_of_ne hle (nextGeneration_ne k.generation).symm

/-! Calls and what they answer -/

inductive Move (α : Type u)
  | insert (x : α)
  | get (raw : UInt64)
  | modify (raw : UInt64) (f : α → α)
  | remove (raw : UInt64)
  | clear

inductive Reply (α : Type u)
  | handle (raw : UInt64)
  | object (x : α)
  | done
  | refused (e : Error)

/-- Make a call on an arena: what it answers, and the arena after it. -/
def Move.make (a : Arena α) : Move α → Reply α × Arena α
  | .insert x => (.handle (a.insert x).1, (a.insert x).2)
  | .get raw =>
    match a.get raw with
    | .ok x => (.object x, a)
    | .error e => (.refused e, a)
  | .modify raw f =>
    match a.modify raw f with
    | .ok a' => (.done, a')
    | .error e => (.refused e, a)
  | .remove raw =>
    match a.remove raw with
    | .ok (x, a') => (.object x, a')
    | .error e => (.refused e, a)
  | .clear => (.done, a.clear)

/-- What there is to know of an arena from outside: the handles that it has issued so far, the
last one first, and what is stored under those that still stand. -/
structure Record (α : Type u) where
  kind : HandleKind
  issued : List UInt64
  held : NatMap α

namespace Record

def blank (kind : HandleKind) : Record α := ⟨kind, [], ∅⟩

def note (r : Record α) : Move α → Reply α → Record α
  | .insert x, .handle raw =>
    { r with issued := raw :: r.issued, held := r.held.insert raw.toNat x }
  | .modify raw f, _ =>
    { r with held := (r.held.get? raw.toNat).elim r.held fun x => r.held.insert raw.toNat (f x) }
  | .remove raw, _ => { r with held := r.held.erase raw.toNat }
  | .clear, _ => { r with held := ∅ }
  | _, _ => r

/-- Why nothing is found under a number. -/
def refusal (r : Record α) (raw : UInt64) : Error :=
  match Handle.decode? raw with
  | none => .illegalArgument s!"{Handle.rawText raw} is not a valid handle"
  | some handle =>
    if handle.kind = r.kind then
      match r.kind with
      | .envelope => .alreadyConsumed handle.text
      | kind => .detached kind.name
    else .wrongHandleKind raw r.kind

def look (r : Record α) (raw : UInt64) : Except Error α :=
  match r.held.get? raw.toNat with
  | some x => .ok x
  | none => .error (r.refusal raw)

end Record

/-- The arena answers every call as the record says, issued no handle twice and counts the slots
that hold an object right. A call that is refused changes neither. -/
structure Mirrors (a : Arena α) (r : Record α) : Prop where
  issued : r.issued.Nodup
  known : ∀ raw x, r.look raw = .ok x → raw ∈ r.issued
  get : ∀ raw, a.get raw = r.look raw
  check : ∀ raw, a.check raw = (r.look raw).map fun _ => ()
  contains : ∀ raw, a.contains raw = (r.look raw).isOk
  modify : ∀ raw f, (a.modify raw f).map (fun _ => ()) = (r.look raw).map fun _ => ()
  remove : ∀ raw, (a.remove raw).map (·.1) = r.look raw
  size : a.size = r.held.size
  counted : a.size = a.occupied
  refused : ∀ m e a', m.make a = (.refused e, a') → a' = a ∧ r.note m (.refused e) = r

/-- One call, on an arena and beside it in the record. -/
def Move.step (s : Arena α × Record α) (m : Move α) : Arena α × Record α :=
  ((m.make s.1).2, s.2.note m (m.make s.1).1)

def run (s : Arena α × Record α) (moves : List (Move α)) : Arena α × Record α :=
  moves.foldl Move.step s

/-- No call makes the generation of a slot wrap, and none needs a slot that no handle can name. -/
def Lasts : Arena α → List (Move α) → Prop
  | _, [] => True
  | a, m :: moves =>
    (∀ slot, a.generation slot ≤ (m.make a).2.generation slot) ∧
      (m.make a).2.slots.length ≤ 0x100000000 ∧ Lasts (m.make a).2 moves

/-! The record is right -/

variable {r : Record α}

/-- What ties an arena to its record: a handle that was issued stands or is past for good. -/
structure Faithful (a : Arena α) (r : Record α) : Prop where
  stocks : a.Stocks r.kind
  held : ∀ raw x, a.get raw = .ok x ↔ r.held.get? raw.toNat = some x
  known : ∀ raw x, a.get raw = .ok x → raw ∈ r.issued
  settled : ∀ raw ∈ r.issued, (∃ x, a.get raw = .ok x) ∨ a.Past raw
  issued : r.issued.Nodup
  size : a.size = r.held.size

namespace Faithful

theorem start (kind : HandleKind) : (empty kind : Arena α).Faithful (.blank kind) where
  stocks := .empty kind
  held raw x := by
    rw [(Stocks.empty kind).get_iff]
    simp [live?, empty, Record.blank]
  known raw x h := by
    obtain ⟨k, -, -, hlive⟩ := (Stocks.empty kind).get_iff.mp h
    simp [live?, empty] at hlive
  settled raw h := by simp [Record.blank] at h
  issued := .nil
  size := rfl

theorem absent (h : a.Faithful r) (hget : ∀ x, a.get raw ≠ .ok x) :
    r.held.get? raw.toNat = none :=
  Option.eq_none_iff_forall_ne_some.mpr fun x hx => hget x ((h.held raw x).mpr hx)

theorem insert (h : a.Faithful r) (x : α) (room : (a.insert x).2.slots.length ≤ 0x100000000) :
    (a.insert x).2.Faithful (r.note (.insert x) (.handle (a.insert x).1)) := by
  obtain ⟨habsent, hpast⟩ := h.stocks.insert_fresh x room
  have hget : ∀ raw y, (a.insert x).2.get raw = .ok y ↔
      raw = (a.insert x).1 ∧ y = x ∨ a.get raw = .ok y := fun _ _ => h.stocks.insert_get x room
  refine ⟨h.stocks.insert x, fun raw y => ?_, fun raw y hy => ?_, fun raw hraw => ?_, ?_, ?_⟩
  · simp only [Record.note, NatMap.get?_insert, UInt64.toNat_inj]
    rw [hget, h.held]
    split
    next he =>
      subst he
      simp [h.absent habsent, eq_comm]
    next hne => simp [hne]
  · rcases (hget raw y).mp hy with ⟨rfl, -⟩ | hbefore
    · exact List.mem_cons_self
    · exact List.mem_cons_of_mem _ (h.known raw y hbefore)
  · rcases List.mem_cons.mp hraw with rfl | hbefore
    · exact .inl ⟨x, (hget _ x).mpr (.inl ⟨rfl, rfl⟩)⟩
    · rcases h.settled raw hbefore with ⟨y, hy⟩ | hp
      · exact .inl ⟨y, (hget raw y).mpr (.inr hy)⟩
      · exact .inr (hp.mono (insert_kind a x) fun slot =>
          Nat.le_of_eq (insert_generation h.stocks.tidy x slot).symm)
  · refine List.nodup_cons.mpr ⟨fun hmem => ?_, h.issued⟩
    rcases h.settled _ hmem with ⟨y, hy⟩ | hp
    · exact habsent y hy
    · exact hpast hp
  · rw [insert_size, h.size]
    exact (NatMap.size_insert r.held _ x (h.absent habsent)).symm

theorem modify (h : a.Faithful r) (hm : a.modify raw f = .ok a') (reply : Reply α) :
    a'.Faithful (r.note (.modify raw f) reply) := by
  obtain ⟨⟨x, hx, hx'⟩, hother⟩ := h.stocks.modify_get hm
  have hheld := (h.held raw x).mp hx
  have hstands : ∀ raw' y, a'.get raw' = .ok y → ∃ z, a.get raw' = .ok z := by
    intro raw' y hy
    by_cases he : raw' = raw
    · exact ⟨x, he ▸ hx⟩
    · exact ⟨y, (hother raw' y he).mp hy⟩
  simp only [Record.note, hheld, Option.elim_some]
  refine ⟨h.stocks.modify hm, fun raw' y => ?_, fun raw' y hy => ?_, fun raw' hraw => ?_,
    h.issued, ?_⟩
  · simp only [NatMap.get?_insert, UInt64.toNat_inj]
    split
    next he => rw [he, hx', Except.ok.injEq, Option.some.injEq]
    next hne => rw [hother raw' y hne, h.held]
  · obtain ⟨z, hz⟩ := hstands raw' y hy
    exact h.known raw' z hz
  · rcases h.settled raw' hraw with ⟨y, hy⟩ | hp
    · by_cases he : raw' = raw
      · exact .inl ⟨f x, he ▸ hx'⟩
      · exact .inl ⟨y, (hother raw' y he).mpr hy⟩
    · obtain ⟨-, -, -, -, hgeneration, hkind, -⟩ := modify_spec hm
      exact .inr (hp.mono hkind fun slot => Nat.le_of_eq (hgeneration slot).symm)
  · rw [modify_size hm, h.size]
    exact (NatMap.size_insert_of_get? hheld (f x)).symm

theorem remove (h : a.Faithful r) (hr : a.remove raw = .ok (x, a')) (reply : Reply α)
    (generations : ∀ slot, a.generation slot ≤ a'.generation slot) :
    a'.Faithful (r.note (.remove raw) reply) := by
  have hget : ∀ raw' y, a'.get raw' = .ok y ↔ raw' ≠ raw ∧ a.get raw' = .ok y :=
    fun _ _ => remove_get_iff hr
  have hloses : a.Loses [raw] a' := .cons hr (.nil a')
  refine ⟨h.stocks.remove hr, fun raw' y => ?_, fun raw' y hy => ?_, fun raw' hraw => ?_,
    h.issued, ?_⟩
  · simp only [Record.note, NatMap.get?_erase, UInt64.toNat_inj]
    rw [hget, h.held]
    split <;> simp [*]
  · exact h.known raw' y ((hget raw' y).mp hy).2
  · by_cases he : raw' = raw
    · exact .inr (hloses.past h.stocks generations raw' (List.mem_singleton.mpr he))
    · rcases h.settled raw' hraw with ⟨y, hy⟩ | hp
      · exact .inl ⟨y, (hget raw' y).mpr ⟨he, hy⟩⟩
      · exact .inr (hp.mono ((h.stocks.remove hr).kind.trans h.stocks.kind.symm) generations)
  · have hsize := remove_size h.stocks.tidy hr
    have herase := NatMap.size_erase ((h.held raw x).mp (remove_get hr))
    have hbefore := h.size
    simp only [Record.note]
    omega

theorem clear (h : a.Faithful r) (reply : Reply α)
    (generations : ∀ slot, a.generation slot ≤ a.clear.generation slot) :
    a.clear.Faithful (r.note .clear reply) := by
  refine ⟨h.stocks.clear, fun raw x => ?_, fun raw x hx => ?_, fun raw hraw => ?_, h.issued, rfl⟩
  · simp [h.stocks.clear_get, Record.note]
  · exact absurd hx h.stocks.clear_get
  · refine .inr ?_
    rcases h.settled raw hraw with ⟨x, hx⟩ | hp
    · exact h.stocks.clear_past hx generations
    · exact hp.mono (h.stocks.clear.kind.trans h.stocks.kind.symm) generations

/-- A number that names nothing is refused for the reason that the record gives. -/
theorem get_eq_refusal (h : a.Faithful r) (habsent : ∀ x, a.get raw ≠ .ok x) :
    a.get raw = .error (r.refusal raw) := by
  rw [Record.refusal, ← h.stocks.kind]
  cases hdecode : Handle.decode? raw with
  | none =>
      simp only [get, locate, decode, hdecode]
  | some k =>
      by_cases hkind : k.kind = a.kind
      · obtain ⟨k', hdecode', hlocate⟩ := stale_of_get_ne hdecode hkind habsent
        obtain rfl := Option.some.inj (hdecode.symm.trans hdecode')
        exact (get_eq_error.mpr hlocate).trans (congrArg Except.error (if_pos hkind).symm)
      · simp only [get, locate, decode, hdecode, if_neg hkind]

theorem get_eq_look (h : a.Faithful r) (raw : UInt64) : a.get raw = r.look raw := by
  rw [Record.look]
  cases hheld : r.held.get? raw.toNat with
  | some x => exact (h.held raw x).mpr hheld
  | none =>
      refine h.get_eq_refusal fun x hx => ?_
      exact Option.some_ne_none x (((h.held raw x).mp hx).symm.trans hheld)

theorem absent_of_error (h : a.Faithful r) {e : Error} (hget : a.get raw = .error e) :
    r.held.get? raw.toNat = none :=
  h.absent fun x hx => by simp [hget] at hx

theorem refused (h : a.Faithful r) {m : Move α} {e : Error}
    (hm : m.make a = (.refused e, a')) : a' = a ∧ r.note m (.refused e) = r := by
  cases m with
  | insert x | clear => simp [Move.make] at hm
  | get raw =>
      simp only [Move.make] at hm
      split at hm
      · simp at hm
      · exact ⟨(Prod.mk.inj hm).2.symm, rfl⟩
  | modify raw f =>
      simp only [Move.make] at hm
      split at hm
      · simp at hm
      next e' he =>
        refine ⟨(Prod.mk.inj hm).2.symm, ?_⟩
        have habsent := h.absent_of_error (get_eq_error.mpr (modify_eq_error.mp he))
        simp only [Record.note, habsent, Option.elim_none]
  | remove raw =>
      simp only [Move.make] at hm
      split at hm
      · simp at hm
      next e' he =>
        refine ⟨(Prod.mk.inj hm).2.symm, ?_⟩
        simp only [Record.note, NatMap.erase_of_get?
          (h.absent_of_error (get_eq_error.mpr (remove_eq_error.mp he)))]

/-- A call that lasts keeps the record right. -/
theorem step (h : a.Faithful r) (m : Move α)
    (generations : ∀ slot, a.generation slot ≤ (m.make a).2.generation slot)
    (room : (m.make a).2.slots.length ≤ 0x100000000) :
    (Move.step (a, r) m).1.Faithful (Move.step (a, r) m).2 := by
  have hrefused : ∀ e, m.make a = (.refused e, a) →
      (Move.step (a, r) m).1.Faithful (Move.step (a, r) m).2 := by
    intro e hm
    rw [Move.step, hm]
    exact (h.refused hm).2.symm ▸ h
  cases m with
  | insert x => exact h.insert x room
  | get raw =>
      simp only [Move.step, Move.make]
      split <;> exact h
  | modify raw f =>
      cases hm : a.modify raw f with
      | error e => exact hrefused e (by simp only [Move.make, hm])
      | ok a' =>
          simp only [Move.step, Move.make, hm]
          exact h.modify hm _
  | remove raw =>
      cases hr : a.remove raw with
      | error e => exact hrefused e (by simp only [Move.make, hr])
      | ok removed =>
          obtain ⟨x, a'⟩ := removed
          simp only [Move.make, hr] at generations
          simp only [Move.step, Move.make, hr]
          exact h.remove hr _ generations
  | clear => exact h.clear .done generations

theorem run (h : a.Faithful r) (moves : List (Move α)) (lasts : Lasts a moves) :
    (Arena.run (a, r) moves).1.Faithful (Arena.run (a, r) moves).2 := by
  induction moves generalizing a r with
  | nil => exact h
  | cons m moves ih =>
      obtain ⟨generations, room, hrest⟩ := lasts
      exact ih (h.step m generations room) hrest

theorem mirrors (h : a.Faithful r) : a.Mirrors r where
  issued := h.issued
  known raw x hx := h.known raw x ((h.get_eq_look raw).trans hx)
  get := h.get_eq_look
  check raw := by
    rw [← h.get_eq_look, check]
    rcases a.locate_cases raw with ⟨e, he⟩ | ⟨k, x, hk⟩
    · rw [he, get_eq_error.mpr he]
      rfl
    · rw [locate_eq_ok.mpr ⟨x, hk⟩, hk.get]
      rfl
  contains raw := by
    rw [← h.get_eq_look, contains]
    rcases a.locate_cases raw with ⟨e, he⟩ | ⟨k, x, hk⟩
    · rw [he, get_eq_error.mpr he]
      rfl
    · rw [locate_eq_ok.mpr ⟨x, hk⟩, hk.get]
      rfl
  modify raw f := by
    rw [← h.get_eq_look]
    rcases a.locate_cases raw with ⟨e, he⟩ | ⟨k, x, hk⟩
    · rw [modify_eq_error.mpr he, get_eq_error.mpr he]
      rfl
    · rw [hk.modify f, hk.get]
      rfl
  remove raw := by
    rw [← h.get_eq_look]
    rcases a.locate_cases raw with ⟨e, he⟩ | ⟨k, x, hk⟩
    · rw [remove_eq_error.mpr he, get_eq_error.mpr he]
      rfl
    · rw [hk.remove, hk.get]
      rfl
  size := h.size
  counted := h.stocks.tidy.counted
  refused _ _ _ := h.refused

end Faithful

/-- Whatever calls are made on an arena, it answers as a finite map with fresh keys would. -/
theorem map_with_fresh_keys (kind : HandleKind) (moves : List (Move α))
    (lasts : Lasts (empty kind) moves) :
    Mirrors (run (empty kind, .blank kind) moves).1 (run (empty kind, .blank kind) moves).2 :=
  ((Faithful.start kind).run moves lasts).mirrors

/-- An object is taken out, its slot is used again, and then the arena is cleared. -/
theorem map_with_fresh_keys_reused :
    Lasts (empty .row) [.insert 5, .remove 0x200000100000000, .insert 6, .clear] ∧
    Mirrors (run (empty .row, .blank .row)
        [.insert 5, .remove 0x200000100000000, .insert 6, .clear]).1
      ⟨.row, [0x200000200000000, 0x200000100000000], ∅⟩ := by
  have hlasts : Lasts (empty .row) [.insert 5, .remove 0x200000100000000, .insert 6, .clear] := by
    refine ⟨fun slot => ?_, by decide, fun slot => ?_, by decide, fun slot => ?_, by decide,
      fun slot => ?_, by decide, trivial⟩ <;>
    rcases slot with _ | slot <;> first | decide | exact Nat.le_refl _
  exact ⟨hlasts, map_with_fresh_keys .row _ hlasts⟩

end Arena
end SnapshotStore
