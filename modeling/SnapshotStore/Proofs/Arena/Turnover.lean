import SnapshotStore.Proofs.Shelf

/-!
Objects that come and go. An arena sheds objects and gathers others; an object that is there after
that was there before, in a slot that has kept its generation, or is one of those put in.
-/

namespace SnapshotStore
namespace Arena
variable {α : Type} {a a₁ a' : Arena α} {P : α → Prop} {slot g : Nat} {x : α} {raw : UInt64}

/-- Objects were taken out, and nothing was put into their slots. -/
def Sheds (a a' : Arena α) : Prop := ∀ slot,
  a'.live? slot = a.live? slot ∧ a'.generation slot = a.generation slot ∨
    (a.live? slot).isSome ∧ a'.live? slot = none ∧ a'.generation slot ≠ a.generation slot

/-- Objects of which P is true were put into empty slots. -/
def Gathers (P : α → Prop) (a a' : Arena α) : Prop := ∀ slot,
  a'.generation slot = a.generation slot ∧
    (a'.live? slot = a.live? slot ∨
      a.live? slot = none ∧ ∃ g x, a'.live? slot = some (g, x) ∧ P x)

theorem Sheds.refl (a : Arena α) : a.Sheds a := fun _ => .inl ⟨rfl, rfl⟩

theorem Sheds.trans (h : a.Sheds a₁) (h' : a₁.Sheds a') : a.Sheds a' := by
  intro slot
  rcases h slot with ⟨hlive, hgen⟩ | ⟨hsome, hnone, hgen⟩
  · simpa only [hlive, hgen] using h' slot
  · rcases h' slot with ⟨hlive', hgen'⟩ | ⟨hsome', -, -⟩
    · exact .inr ⟨hsome, hlive'.trans hnone, hgen' ▸ hgen⟩
    · simp [hnone] at hsome'

theorem remove_sheds (hr : a.remove raw = .ok (x, a')) : a.Sheds a' := by
  obtain ⟨k, ⟨-, hx⟩, hlive, hgen, -, -⟩ := remove_spec hr
  intro s
  by_cases hs : s = k.slot
  · subst hs
    refine .inr ⟨by rw [hx, Option.isSome_some], by rw [hlive, if_pos rfl], ?_⟩
    rw [hgen, if_pos rfl]
    exact nextGeneration_ne _
  · exact .inl ⟨by rw [hlive, if_neg hs], by rw [hgen, if_neg hs]⟩

theorem Loses.sheds {raws : List UInt64} (h : a.Loses raws a') : a.Sheds a' := by
  induction h with
  | nil => exact .refl _
  | cons removed _ ih => exact (remove_sheds removed).trans ih

theorem Gathers.refl (P : α → Prop) (a : Arena α) : a.Gathers P a := fun _ => ⟨rfl, .inl rfl⟩

theorem Gathers.trans (h : a.Gathers P a₁) (h' : a₁.Gathers P a') : a.Gathers P a' := by
  intro slot
  obtain ⟨hgen, hlive⟩ := h slot
  obtain ⟨hgen', hlive'⟩ := h' slot
  refine ⟨hgen'.trans hgen, ?_⟩
  rcases hlive with hlive | ⟨hnone, g, x, hx, hP⟩
  · simpa only [hlive] using hlive'
  · rcases hlive' with hlive' | ⟨hnone', -⟩
    · exact .inr ⟨hnone, g, x, hlive'.trans hx, hP⟩
    · simp [hx] at hnone'

theorem insert_gathers (h : a.Tidy) (hx : P x) : a.Gathers P (a.insert x).2 := by
  intro slot
  refine ⟨insert_generation h x slot, ?_⟩
  rw [insert_live? h]
  split
  next hslot => exact .inr ⟨hslot ▸ h.vacancy, _, x, rfl, hx⟩
  next => exact .inl rfl

variable [Tracked α]

theorem keeps_iff : a.shelf.keeps a'.shelf slot = true ↔
    (a.live? slot).isSome ∧ a'.generation slot = a.generation slot := by
  rw [Shelf.keeps, Bool.and_eq_true, decide_eq_true_iff]
  exact and_congr_left' (by rw [shelf, Option.isSome_map])

/-- An object that is there after some were taken out and others put in was there before, or is
one of those put in. -/
theorem Sheds.entered (h : a.Sheds a₁) (h' : a₁.Gathers P a') (hx : a'.live? slot = some (g, x)) :
    a.shelf.keeps a'.shelf slot = true ∧ a.live? slot = some (g, x) ∨
      a.shelf.keeps a'.shelf slot = false ∧ P x := by
  obtain ⟨hgen', hlive'⟩ := h' slot
  rw [← Bool.not_eq_true, keeps_iff]
  rcases h slot with ⟨hlive, hgen⟩ | ⟨-, hnone, hgen⟩
  · rcases hlive' with hlive' | ⟨hnone, g', x', hx', hP⟩
    · have hold : a.live? slot = some (g, x) := by rw [← hlive, ← hlive', hx]
      exact .inl ⟨⟨by rw [hold, Option.isSome_some], hgen'.trans hgen⟩, hold⟩
    · obtain ⟨-, rfl⟩ := Prod.mk.inj (Option.some.inj (hx'.symm.trans hx))
      exact .inr ⟨fun hkeeps => by simp [← hlive, hnone] at hkeeps, hP⟩
  · rcases hlive' with hlive' | ⟨-, g', x', hx', hP⟩
    · simp [hlive', hnone] at hx
    · obtain ⟨-, rfl⟩ := Prod.mk.inj (Option.some.inj (hx'.symm.trans hx))
      exact .inr ⟨fun hkeeps => hgen (hgen'.symm.trans hkeeps.2), hP⟩

end Arena
end SnapshotStore
