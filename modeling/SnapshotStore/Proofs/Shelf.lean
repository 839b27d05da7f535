import SnapshotStore.Proofs.Group.Identity
import SnapshotStore.Proofs.Registry
import SnapshotStore.Session

/-!
Shelves: arenas without the details of their objects. What counts of an object is the
generation of its slot, the epoch or version that it is bound to and the subject that it
stands for. Shelves shrink and grow; a slot that is used again has another generation.
-/

namespace SnapshotStore

structure Held where
  generation : Nat
  /-- The epoch of the context or the version of the export. -/
  bound : Nat
  subject : Subject

structure Shelf where
  held : Nat → Option Held
  generation : Nat → Nat
  agrees : ∀ slot h, held slot = some h → h.generation = generation slot

namespace Shelf
variable {p q r : Shelf} {P : Held → Prop} {slot : Nat} {o : Held}

theorem ext (held : ∀ slot, p.held slot = q.held slot)
    (generation : ∀ slot, p.generation slot = q.generation slot) : p = q := by
  cases p
  cases q
  simp only [mk.injEq]
  exact ⟨funext held, funext generation⟩

/-- Objects were taken out, and nothing was put into their slots. -/
def Shrinks (p q : Shelf) : Prop := ∀ slot,
  q.held slot = p.held slot ∧ q.generation slot = p.generation slot ∨
    (p.held slot).isSome ∧ q.held slot = none ∧ q.generation slot ≠ p.generation slot

/-- Objects were put into empty slots. -/
def Grows (P : Held → Prop) (p q : Shelf) : Prop := ∀ slot,
  q.generation slot = p.generation slot ∧
    (q.held slot = p.held slot ∨ p.held slot = none ∧ ∃ h, q.held slot = some h ∧ P h)

/-- Objects were taken out and others were put in. -/
def Turns (P : Held → Prop) (p q : Shelf) : Prop := ∃ m, p.Shrinks m ∧ m.Grows P q

theorem Shrinks.refl (p : Shelf) : p.Shrinks p := fun _ => .inl ⟨rfl, rfl⟩

theorem Shrinks.trans (h : p.Shrinks q) (h' : q.Shrinks r) : p.Shrinks r := by
  intro slot
  rcases h slot with ⟨hh, hg⟩ | ⟨hs, hn, hg⟩
  · simpa only [hh, hg] using h' slot
  · rcases h' slot with ⟨hh', hg'⟩ | ⟨hs', -, -⟩
    · exact .inr ⟨hs, hh'.trans hn, hg' ▸ hg⟩
    · simp [hn] at hs'

theorem Grows.refl (P : Held → Prop) (p : Shelf) : p.Grows P p := fun _ => ⟨rfl, .inl rfl⟩

theorem Grows.trans (h : p.Grows P q) (h' : q.Grows P r) : p.Grows P r := by
  intro slot
  obtain ⟨hg, hh⟩ := h slot
  obtain ⟨hg', hh'⟩ := h' slot
  refine ⟨hg'.trans hg, ?_⟩
  rcases hh with hh | ⟨hn, x, hx, hP⟩
  · simpa only [hh] using hh'
  · rcases hh' with hh' | ⟨hn', -⟩
    · exact .inr ⟨hn, x, hh'.trans hx, hP⟩
    · simp [hx] at hn'

theorem Shrinks.turns (h : p.Shrinks q) : p.Turns P q := ⟨q, h, .refl P q⟩

/-- Whether the object of a slot is still the one that was there before. -/
def keeps (p q : Shelf) (slot : Nat) : Bool :=
  (p.held slot).isSome && q.generation slot = p.generation slot

/-- An object that is there after a turn was there before it, or is one of those put in. -/
theorem Turns.entered (h : p.Turns P r) (hr : r.held slot = some o) :
    if p.keeps r slot then p.held slot = some o else P o := by
  obtain ⟨q, hs, hg⟩ := h
  obtain ⟨hgen, hheld⟩ := hg slot
  rcases hs slot with ⟨hh, hg'⟩ | ⟨hp, hn, hne⟩
  · have hkeeps : p.keeps r slot = (p.held slot).isSome := by simp [keeps, hgen, hg']
    rcases hheld with hheld | ⟨hn, x, hx, hP⟩
    · have hp : p.held slot = some o := by rw [← hh, ← hheld, hr]
      simp [hkeeps, hp]
    · obtain rfl := Option.some.inj (hr.symm.trans hx)
      rw [hkeeps, ← hh, hn]
      simpa using hP
  · have hkeeps : p.keeps r slot = false := by simp [keeps, hgen, hne]
    rcases hheld with hheld | ⟨-, x, hx, hP⟩
    · simp [hheld, hn] at hr
    · obtain rfl := Option.some.inj (hr.symm.trans hx)
      rw [hkeeps, if_neg Bool.false_ne_true]
      exact hP

/-- An object that was there before a turn still is, or its slot has another generation. -/
theorem Turns.left (h : p.Turns P r) (hp : p.held slot = some o) :
    r.held slot = some o ∨ r.generation slot ≠ p.generation slot := by
  obtain ⟨q, hs, hg⟩ := h
  obtain ⟨hgen, hheld⟩ := hg slot
  rcases hs slot with ⟨hh, -⟩ | ⟨-, -, hne⟩
  · rcases hheld with hheld | ⟨hn, -⟩
    · exact .inl (hheld.trans (hh.trans hp))
    · simp [hh, hp] at hn
  · exact .inr (hgen ▸ hne)

end Shelf

/-! Arenas as shelves -/

/-- Objects with a subject. -/
class Denoting (α : Type) where
  subject : α → Subject

instance : Denoting TableRef := ⟨fun t => .table t.key⟩

instance : Denoting RowLocator := ⟨fun l => .row l.table l.id⟩

instance : Denoting Query := ⟨fun q => .columns q.table q.schemaEpoch⟩

instance : Denoting View := ⟨fun v => .columns v.table v.schemaEpoch⟩

instance : Denoting ListLocator := ⟨fun l => .row l.row.table l.row.id⟩

def Payload.subject : Payload → Subject
  | query q => Denoting.subject q
  | row l => Denoting.subject l
  | view v => Denoting.subject v

/-- What an object of an arena is bound to and stands for. -/
class Tracked (α : Type) where
  bound : α → Nat
  subject : α → Subject

instance {α : Type} [Denoting α] : Tracked (Bound α) :=
  ⟨Bound.epoch, fun b => Denoting.subject b.object⟩

instance : Tracked Envelope := ⟨Envelope.version, fun e => e.payload.subject⟩

namespace Arena
variable {α : Type} [Tracked α] {a a' : Arena α} {x : α} {raw : UInt64}

def shelf (a : Arena α) : Shelf where
  held slot := (a.live? slot).map fun (g, x) => ⟨g, Tracked.bound x, Tracked.subject x⟩
  generation := a.generation
  agrees slot h hh := by
    obtain ⟨⟨g, x⟩, hx, rfl⟩ := Option.map_eq_some_iff.mp hh
    exact (live?_generation hx).symm

theorem insert_grows (h : a.Tidy) {P : Held → Prop}
    (hP : ∀ g, P ⟨g, Tracked.bound x, Tracked.subject x⟩) :
    a.shelf.Grows P (a.insert x).2.shelf := by
  intro slot
  refine ⟨insert_generation h x slot, ?_⟩
  simp only [shelf, insert_live? h]
  by_cases hs : slot = a.vacancy
  · subst hs
    exact .inr ⟨by rw [h.vacancy, Option.map_none], _, by rw [if_pos rfl, Option.map_some], hP _⟩
  · exact .inl (by rw [if_neg hs])

theorem remove_shrinks (hr : a.remove raw = .ok (x, a')) : a.shelf.Shrinks a'.shelf := by
  obtain ⟨k, ⟨-, hx⟩, hlive, hgen, -, -⟩ := remove_spec hr
  intro s
  by_cases hs : s = k.slot
  · subst hs
    refine .inr ⟨by simp [shelf, hx], by simp [shelf, hlive], ?_⟩
    simp only [shelf, hgen, if_pos]
    exact nextGeneration_ne _
  · exact .inl ⟨by simp [shelf, hlive, hs], by simp [shelf, hgen, hs]⟩

theorem Loses.shrinks {raws : List UInt64} (h : a.Loses raws a') : a.shelf.Shrinks a'.shelf := by
  induction h with
  | nil => exact .refl _
  | cons removed _ ih => exact (remove_shrinks removed).trans ih

theorem modify_shelf {f : α → α} (hm : a.modify raw f = .ok a')
    (hf : ∀ x, a.get raw = .ok x →
      Tracked.bound (f x) = Tracked.bound x ∧ Tracked.subject (f x) = Tracked.subject x) :
    a'.shelf = a.shelf := by
  obtain ⟨k, x, hk, hlive, hgen, -, -⟩ := modify_spec hm
  refine Shelf.ext (fun s => ?_) hgen
  simp only [shelf, hlive]
  by_cases hs : s = k.slot
  · subst hs
    rw [if_pos rfl, hk.live, Option.map_some, Option.map_some, (hf x hk.get).1, (hf x hk.get).2]
  · rw [if_neg hs]

end Arena
end SnapshotStore
