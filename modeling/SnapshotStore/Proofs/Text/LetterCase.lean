import SnapshotStore.Text.LetterCase

/-!
Lower case of texts and of their parts. A capital sigma is lowered to one of two letters, and what
stands around it decides which. So the lower case of a part is found in the lower case of the
whole exactly if the part's sigmas end a word in the whole where they end one in the part. All
other characters are lowered alike everywhere.
-/

namespace SnapshotStore.Text.LetterCase
variable {before after part text : List Char} {c : Char}

/-- The capital sigma. -/
def sigma : Char := .ofNat 0x3A3

/-- Whether a sigma between these characters, the nearest ones first, ends a word. -/
def endsWord (before after : List Char) : Bool := meetsCased before && !meetsCased after

/-- The lower-case form of a character that ends a word or does not. -/
def form (final : Bool) (c : Char) : List Char :=
  if c.toNat = 0x3A3 then [.ofNat (if final then 0x3C2 else 0x3C3)] else lowerChar c

theorem length_form {final final' : Bool} :
    (form final c).length = (form final' c).length := by
  unfold form
  split <;> rfl

/-- The place in a word makes a difference to a sigma only. -/
theorem form_eq_form {final final' : Bool} :
    form final c = form final' c ↔ (c = sigma → final = final') := by
  by_cases hc : c = sigma
  · subst hc
    cases final <;> cases final' <;> decide
  · have hnat : c.toNat ≠ 0x3A3 := fun h => hc (Char.toNat_inj.mp h)
    simp [form, hnat, hc]

/-- The lower case of a part of a text, given the characters before it, nearest first, and those
after it. -/
def lowerWithin (before : List Char) : List Char → List Char → List Char
  | [], _ => []
  | c :: rest, after =>
    form (endsWord before (rest ++ after)) c ++ lowerWithin (c :: before) rest after

theorem lowerAfter_cons : lowerAfter before (c :: text) =
    form (endsWord before text) c ++ lowerAfter (c :: before) text := rfl

theorem lowerAfter_append : lowerAfter before (part ++ after) =
    lowerWithin before part after ++ lowerAfter (part.reverse ++ before) after := by
  induction part generalizing before with
  | nil => rfl
  | cons c rest ih =>
      simp only [List.cons_append, lowerAfter_cons, lowerWithin, ih, List.reverse_cons,
        List.append_assoc, List.nil_append]

/-- A part keeps its length wherever it stands. -/
theorem length_lowerWithin (before' : List Char) :
    (lowerWithin before part after).length = (lowerAfter before' part).length := by
  induction part generalizing before before' with
  | nil => rfl
  | cons c rest ih =>
      simp only [lowerWithin, lowerAfter_cons, List.length_append, ih (c :: before')]
      rw [length_form]

/-- Every sigma of the part ends a word in the whole text if and only if it ends one in the part
alone. -/
def SameSigmas (before part after : List Char) : Prop :=
  ∀ x y, part = x ++ sigma :: y → endsWord (x.reverse ++ before) (y ++ after) = endsWord x.reverse y

theorem sameSigmas_of_not_mem (h : sigma ∉ part) : SameSigmas before part after := by
  rintro x y rfl
  simp at h

/-- The part has the lower case that it has alone if its sigmas are the same, and only then. -/
theorem lowerWithin_eq_lower : lowerWithin before part after = lower part ↔
    SameSigmas before part after := by
  -- the induction moves characters of the part to what stands before the rest of it
  suffices h : ∀ inner, lowerWithin (inner ++ before) part after = lowerAfter inner part ↔
      ∀ x y, part = x ++ sigma :: y →
        endsWord (x.reverse ++ (inner ++ before)) (y ++ after) = endsWord (x.reverse ++ inner) y by
    simpa [SameSigmas, lower] using h []
  induction part with
  | nil => simp [lowerWithin, lowerAfter]
  | cons c rest ih =>
      intro inner
      have hsplit : lowerWithin (inner ++ before) (c :: rest) after =
          lowerAfter inner (c :: rest) ↔
          form (endsWord (inner ++ before) (rest ++ after)) c = form (endsWord inner rest) c ∧
          lowerWithin (c :: (inner ++ before)) rest after = lowerAfter (c :: inner) rest := by
        refine ⟨fun h => List.append_inj h length_form, fun ⟨hc, hrest⟩ => ?_⟩
        rw [lowerWithin, lowerAfter_cons, hc, hrest]
      rw [hsplit, form_eq_form, ← List.cons_append, ih]
      constructor
      · rintro ⟨hc, hrest⟩ x y heq
        cases x with
        | nil =>
            obtain ⟨rfl, rfl⟩ := List.cons.inj heq
            simpa using hc rfl
        | cons d x =>
            obtain ⟨rfl, rfl⟩ := List.cons.inj heq
            simpa using hrest x y rfl
      · refine fun h => ⟨?_, fun x y heq => ?_⟩
        · rintro rfl
          simpa using h [] rest rfl
        · simpa using h (c :: x) y (by rw [heq, List.cons_append])

instance : Decidable (SameSigmas before part after) := decidable_of_iff _ lowerWithin_eq_lower

/-! Beginnings, ends and occurrences -/

theorem lower_prefix_iff : lower part <+: lower (part ++ after) ↔ SameSigmas [] part after := by
  rw [← lowerWithin_eq_lower, lower, lower, lowerAfter_append]
  constructor
  · rintro ⟨rest, h⟩
    exact (List.append_inj h (length_lowerWithin []).symm).1.symm
  · exact fun h => ⟨_, congrArg (· ++ _) h.symm⟩

theorem lower_suffix_iff : lower part <:+ lower (before ++ part) ↔
    SameSigmas before.reverse part [] := by
  have hend : lower (before ++ part) =
      lowerWithin [] before part ++ lowerWithin before.reverse part [] := by
    have h : lowerAfter before.reverse (part ++ []) = lowerWithin before.reverse part [] ++
        lowerAfter (part.reverse ++ before.reverse) [] := lowerAfter_append
    rw [List.append_nil, lowerAfter, List.append_nil] at h
    rw [lower, lowerAfter_append, ← h, List.append_nil]
  rw [← lowerWithin_eq_lower, hend]
  constructor
  · rintro ⟨rest, h⟩
    exact (List.append_inj' h (length_lowerWithin []).symm).2.symm
  · exact fun h => ⟨_, congrArg (_ ++ ·) h.symm⟩

theorem lower_infix_of_same (h : SameSigmas before.reverse part after) :
    lower part <:+: lower (before ++ part ++ after) := by
  refine ⟨lowerWithin [] before (part ++ after),
    lowerAfter (part.reverse ++ before.reverse) after, ?_⟩
  rw [List.append_assoc, List.append_assoc, lower, lower, lowerAfter_append, List.append_nil,
    lowerAfter_append, lowerWithin_eq_lower.mpr h]
  rfl

end SnapshotStore.Text.LetterCase
