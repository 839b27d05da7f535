import Mathlib.Data.List.Forall2

/-!
How a chain of checks or of actions succeeds, every link of it does, and how a chain of
actions fails: at one of its links.
-/

namespace SnapshotStore

universe u v
variable {ε : Type u} {α β : Type v}

@[simp] theorem pure_eq_ok {a b : α} : (pure a : Except ε α) = .ok b ↔ a = b := by
  simp [pure, Except.pure]

@[simp] theorem throw_eq_ok {e : ε} {b : α} : ¬(throw e : Except ε α) = .ok b := by
  simp [throw, throwThe, MonadExceptOf.throw]

@[simp] theorem bind_eq_ok {x : Except ε α} {f : α → Except ε β} {b : β} :
    x >>= f = .ok b ↔ ∃ a, x = .ok a ∧ f a = .ok b := by
  cases x <;> simp [bind, Except.bind]

@[simp] theorem map_eq_ok {x : Except ε α} {f : α → β} {b : β} :
    x.map f = .ok b ↔ ∃ a, x = .ok a ∧ f a = b := by
  cases x <;> simp [Except.map]

theorem map_eq_error {x : Except ε α} {f : α → β} {e : ε} :
    x.map f = .error e ↔ x = .error e := by
  cases x <;> simp [Except.map]

@[simp] theorem fmap_eq_ok {x : Except ε α} {f : α → β} {b : β} :
    f <$> x = .ok b ↔ ∃ a, x = .ok a ∧ f a = b :=
  map_eq_ok

theorem mapM_eq_ok {f : α → Except ε β} {xs : List α} {ys : List β} (h : xs.mapM f = .ok ys) :
    ∀ y ∈ ys, ∃ x ∈ xs, f x = .ok y := by
  induction xs generalizing ys with
  | nil =>
      rw [List.mapM_nil, pure_eq_ok] at h
      simp [← h]
  | cons x xs ih =>
      simp only [List.mapM_cons, bind_eq_ok, pure_eq_ok] at h
      obtain ⟨y, hy, ys', hys, rfl⟩ := h
      intro z hz
      rcases List.mem_cons.mp hz with rfl | hz
      · exact ⟨x, by simp, hy⟩
      · obtain ⟨x', hx', hf⟩ := ih hys z hz
        exact ⟨x', by simp [hx'], hf⟩

/-- What succeeds at every element succeeds at them all. -/
theorem mapM_total {f : α → Except ε β} {xs : List α} (h : ∀ x ∈ xs, ∃ y, f x = .ok y) :
    ∃ ys, xs.mapM f = .ok ys := by
  induction xs with
  | nil => exact ⟨[], List.mapM_nil⟩
  | cons x xs ih =>
      obtain ⟨y, hy⟩ := h x List.mem_cons_self
      obtain ⟨ys, hys⟩ := ih fun z hz => h z (List.mem_cons_of_mem x hz)
      refine ⟨y :: ys, ?_⟩
      rw [List.mapM_cons]
      exact bind_eq_ok.mpr ⟨y, hy, bind_eq_ok.mpr ⟨ys, hys, rfl⟩⟩

theorem mapM_congr {f g : α → Except ε β} {xs : List α} (h : ∀ x ∈ xs, f x = g x) :
    xs.mapM f = xs.mapM g := by
  induction xs with
  | nil => rfl
  | cons x xs ih =>
      rw [List.mapM_cons, List.mapM_cons, h x List.mem_cons_self,
        ih fun y hy => h y (List.mem_cons_of_mem x hy)]

theorem forM_congr {f g : α → Except ε PUnit} {xs : List α} (h : ∀ x ∈ xs, f x = g x) :
    xs.forM f = xs.forM g := by
  induction xs with
  | nil => rfl
  | cons x xs ih =>
      rw [List.forM, List.forM, h x List.mem_cons_self,
        ih fun y hy => h y (List.mem_cons_of_mem x hy)]

theorem forM_eq_ok {f : α → Except ε PUnit} {xs : List α} {u : PUnit} :
    xs.forM f = .ok u ↔ ∀ x ∈ xs, f x = .ok ⟨⟩ := by
  induction xs with
  | nil => simp [List.forM, pure, Except.pure]
  | cons x xs ih =>
      rw [List.forM, bind_eq_ok, List.forall_mem_cons]
      constructor
      · rintro ⟨_, hx, hxs⟩
        exact ⟨hx, ih.mp hxs⟩
      · rintro ⟨hx, hxs⟩
        exact ⟨_, hx, ih.mpr hxs⟩

section Members
variable {ε : Type} {α β : Type} {R S : α → β → Prop} {xs : List α} {ys : List β}

theorem mapM_eq_ok_iff {f : α → Except ε β} :
    xs.mapM f = .ok ys ↔ List.Forall₂ (fun x y => f x = .ok y) xs ys := by
  induction xs generalizing ys with
  | nil => rw [List.mapM_nil, pure_eq_ok, List.forall₂_nil_left_iff, eq_comm]
  | cons x xs ih =>
      simp only [List.mapM_cons, bind_eq_ok, pure_eq_ok, List.forall₂_cons_left_iff, ih]
      constructor
      · rintro ⟨y, hy, ys, hys, rfl⟩
        exact ⟨y, ys, hy, hys, rfl⟩
      · rintro ⟨y, ys, hy, hys, rfl⟩
        exact ⟨y, hy, ys, hys, rfl⟩

theorem forall₂_congr_of_mem (h : ∀ x ∈ xs, ∀ y, R x y ↔ S x y) :
    List.Forall₂ R xs ys ↔ List.Forall₂ S xs ys := by
  have hboth : ∀ {T : α → β → Prop},
      List.Forall₂ T xs ys ↔ List.Forall₂ (fun x y => x ∈ xs ∧ T x y) xs ys := fun {T} => by
    rw [List.forall₂_and_left, and_iff_right fun x hx => hx]
  rw [hboth, hboth (T := S)]
  constructor
  · exact List.Forall₂.imp fun x y hxy => ⟨hxy.1, (h x hxy.1 y).mp hxy.2⟩
  · exact List.Forall₂.imp fun x y hxy => ⟨hxy.1, (h x hxy.1 y).mpr hxy.2⟩

theorem exists_forall₂_iff : (∃ ys, List.Forall₂ R xs ys) ↔ ∀ x ∈ xs, ∃ y, R x y := by
  induction xs with
  | nil => simp
  | cons x xs ih =>
      rw [List.forall_mem_cons, ← ih]
      constructor
      · rintro ⟨_, hall⟩
        obtain ⟨y, ys, hy, hys, -⟩ := List.forall₂_cons_left_iff.mp hall
        exact ⟨⟨y, hy⟩, ys, hys⟩
      · rintro ⟨⟨y, hy⟩, ys, hys⟩
        exact ⟨y :: ys, .cons hy hys⟩

theorem exists_of_forall₂ (h : List.Forall₂ R xs ys) : ∀ x ∈ xs, ∃ y ∈ ys, R x y := by
  induction h with
  | nil => exact fun _ hx => absurd hx List.not_mem_nil
  | cons hxy _ ih =>
      refine List.forall_mem_cons.mpr ⟨⟨_, List.mem_cons_self, hxy⟩, fun x hx => ?_⟩
      obtain ⟨y, hmem, hy⟩ := ih x hx
      exact ⟨y, List.mem_cons_of_mem _ hmem, hy⟩

theorem forall₂_trans {γ : Type} {T : β → γ → Prop} {zs : List γ} (h : List.Forall₂ R xs ys)
    (h' : List.Forall₂ T ys zs) : List.Forall₂ (fun x z => ∃ y, R x y ∧ T y z) xs zs := by
  induction h generalizing zs with
  | nil =>
      cases h'
      exact .nil
  | cons hxy _ ih =>
      cases h' with
      | cons hyz hrest => exact .cons ⟨_, hxy, hyz⟩ (ih hrest)

end Members

section Action
variable {σ γ δ : Type u} {a : EStateM ε σ γ} {f : γ → EStateM ε σ δ} {s s' : σ} {e : ε} {y : δ}

theorem bind_of_ok {x : γ} {s₁ : σ} (h : a s = .ok x s₁) : (a >>= f) s = f x s₁ := by
  simp only [bind, EStateM.bind, h]

theorem bind_of_error {s₁ : σ} (h : a s = .error e s₁) : (a >>= f) s = .error e s₁ := by
  simp only [bind, EStateM.bind, h]

/-- What follows an action may be anything on outcomes that the action does not come to. -/
theorem bind_run_congr {f g : γ → EStateM ε σ δ}
    (h : ∀ x s₁, a s = .ok x s₁ → f x s₁ = g x s₁) : (a >>= f) s = (a >>= g) s := by
  change EStateM.bind a f s = EStateM.bind a g s
  unfold EStateM.bind
  cases hr : a s with
  | ok x s₁ => exact h x s₁ hr
  | error e s₁ => rfl

theorem bind_run_ok :
    (a >>= f) s = .ok y s' ↔ ∃ x s₁, a s = .ok x s₁ ∧ f x s₁ = .ok y s' := by
  simp only [bind, EStateM.bind]
  cases a s <;> simp [and_assoc]

theorem bind_run_error : (a >>= f) s = .error e s' ↔
    a s = .error e s' ∨ ∃ x s₁, a s = .ok x s₁ ∧ f x s₁ = .error e s' := by
  simp only [bind, EStateM.bind]
  cases a s <;> simp [and_assoc]

theorem pure_run_ok {x y : γ} : (pure x : EStateM ε σ γ) s = .ok y s' ↔ x = y ∧ s = s' := by
  simp [pure, EStateM.pure]

theorem throw_run_ok {y : γ} : ¬(throw e : EStateM ε σ γ) s = .ok y s' := nofun

theorem map_run_error {f : γ → δ} :
    (a >>= fun x => pure (f x)) s = .error e s' ↔ a s = .error e s' := by
  simp only [bind, EStateM.bind, pure, EStateM.pure]
  cases a s <;> simp

theorem pure_run_error {x : γ} : ¬(pure x : EStateM ε σ γ) s = .error e s' := by
  simp [pure, EStateM.pure]

end Action
end SnapshotStore
