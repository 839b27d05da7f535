import SnapshotStore.Proofs.Group.Bounds
import SnapshotStore.Proofs.Text.LetterCase

/-!
Comparisons of text that ignore the case, against the same comparisons that mind it. A match that
minds the case is also one that ignores it unless the place of a capital sigma in a word is in the
way. What that does to a query depends on how deep under negations the comparison stands.
-/

namespace SnapshotStore
open Text.LetterCase

namespace Condition
variable {k : Condition} {part text : List Char}

theorem occursIn_iff : holdsOfText.occursIn part text = true ↔ part <:+: text := by
  induction text with
  | nil => simp [holdsOfText.occursIn]
  | cons c rest ih => simp [holdsOfText.occursIn, ih, List.infix_cons_iff]

/-- What it takes for a match in a text to be one in lower case: where the operand stands in the
text, its sigmas are what they are in the operand alone. -/
def KeepsSigmas (part text : List Char) : Condition → Prop
  | beginsWith => ∀ after, text = part ++ after → SameSigmas [] part after
  | endsWith => ∀ before, text = before ++ part → SameSigmas before.reverse part []
  | contains => part <:+: text →
    ∃ before after, text = before ++ part ++ after ∧ SameSigmas before.reverse part after
  | _ => True

theorem keepsSigmas_of_not_mem (h : sigma ∉ part) : k.KeepsSigmas part text := by
  cases k with
  | beginsWith => exact fun _ _ => sameSigmas_of_not_mem h
  | endsWith => exact fun _ _ => sameSigmas_of_not_mem h
  | contains => exact fun ⟨x, y, hxy⟩ => ⟨x, y, hxy.symm, sameSigmas_of_not_mem h⟩
  | _ => trivial

theorem holdsOfText_lower (h : k.holdsOfText text part = true) (hkeep : k.KeepsSigmas part text) :
    k.holdsOfText (lower text) (lower part) = true := by
  cases k with
  | beginsWith =>
      obtain ⟨after, rfl⟩ := List.isPrefixOf_iff_prefix.mp h
      exact List.isPrefixOf_iff_prefix.mpr (lower_prefix_iff.mpr (hkeep after rfl))
  | endsWith =>
      obtain ⟨before, rfl⟩ := List.isSuffixOf_iff_suffix.mp h
      exact List.isSuffixOf_iff_suffix.mpr (lower_suffix_iff.mpr (hkeep before rfl))
  | contains =>
      obtain ⟨before, after, rfl, hsame⟩ := hkeep (occursIn_iff.mp h)
      exact occursIn_iff.mpr (lower_infix_of_same hsame)
  | _ => exact h

/-- At the beginning and at the end of a text nothing else makes a match. -/
theorem keepsSigmas_of_holdsOfText_lower (hk : k ≠ .contains)
    (h : k.holdsOfText (lower text) (lower part) = true) : k.KeepsSigmas part text := by
  cases k with
  | beginsWith =>
      rintro after rfl
      exact lower_prefix_iff.mp (List.isPrefixOf_iff_prefix.mp h)
  | endsWith =>
      rintro before rfl
      exact lower_suffix_iff.mp (List.isSuffixOf_iff_suffix.mp h)
  | contains => exact absurd rfl hk
  | _ => trivial

end Condition

namespace Value
variable {k : Condition} {text operand : String} {caseSensitive : Bool}

theorem satisfies_text (hk : k.isTextOnly = true) :
    (string text).satisfies k (string operand) caseSensitive =
      k.holdsOfText (comparedText caseSensitive text) (comparedText caseSensitive operand) := by
  cases k <;> first | rfl | cases hk

theorem satisfies_equal_text :
    (string text).satisfies .equal (string operand) caseSensitive = true ↔
      comparedText caseSensitive text = comparedText caseSensitive operand := by
  have hcompare (a b : List Char) :
      List.compareLex Ord.compare (a.map Char.toNat) (b.map Char.toNat) = .eq ↔ a = b := by
    rw [← List.compare_eq_compareLex, Std.compare_eq_iff_eq]
    exact List.map_inj_right fun _ _ => Char.toNat_inj.mp
  simp [satisfies, isNull, type?, Condition.isTextOnly, Condition.accepts, hcompare]

/-- Only texts match a text. -/
theorem string_of_satisfies {cell : Value} (hk : k = .equal ∨ k.isTextOnly = true)
    (h : cell.satisfies k (string operand) caseSensitive = true) : ∃ text, cell = string text := by
  cases cell with
  | string text => exact ⟨text, rfl⟩
  | _ =>
      rcases hk with rfl | hk
      · cases h
      · have hnull : k ≠ .isNull := by rintro rfl; cases hk
        have hnotNull : k ≠ .isNotNull := by rintro rfl; cases hk
        simp [satisfies, hnull, hnotNull, hk] at h

/-- A match that minds the case stays one without it if the sigmas are the same. -/
theorem satisfies_lower (hk : k = .equal ∨ k.isTextOnly = true)
    (h : (string text).satisfies k (string operand) true = true)
    (hkeep : k.KeepsSigmas operand.toList text.toList) :
    (string text).satisfies k (string operand) false = true := by
  rcases hk with rfl | hk
  · rw [satisfies_equal_text] at h ⊢
    have htext : text.toList = operand.toList := h
    simp [comparedText, htext]
  · rw [satisfies_text hk] at h ⊢
    exact Condition.holdsOfText_lower h hkeep

end Value

namespace Predicate
variable {p p' : Predicate} {cells : List Value} {t : Table}

/-- A predicate with a gap in it. -/
inductive Frame
  | gap
  | and (before : List Predicate) (inner : Frame) (after : List Predicate)
  | or (before : List Predicate) (inner : Frame) (after : List Predicate)
  | not (inner : Frame)

namespace Frame

def fill (p : Predicate) : Frame → Predicate
  | gap => p
  | and before inner after => .and (before ++ inner.fill p :: after)
  | or before inner after => .or (before ++ inner.fill p :: after)
  | not inner => .not (inner.fill p)

/-- Whether the gap is under an odd number of negations. -/
def negated : Frame → Bool
  | gap => false
  | and _ inner _ | or _ inner _ => inner.negated
  | not inner => !inner.negated

end Frame

theorem holdsAll_append (before after : List Predicate) : holdsAll cells (before ++ p :: after) =
    (holdsAll cells before && (p.holds cells && holdsAll cells after)) := by
  induction before with
  | nil => rfl
  | cons _ _ ih => simp only [List.cons_append, holdsAll, ih, Bool.and_assoc]

theorem holdsAny_append (before after : List Predicate) : holdsAny cells (before ++ p :: after) =
    (holdsAny cells before || (p.holds cells || holdsAny cells after)) := by
  induction before with
  | nil => rfl
  | cons _ _ ih => simp only [List.cons_append, holdsAny, ih, Bool.or_assoc]

theorem checkAll_congr (h : p.check t = p'.check t) (before after : List Predicate) :
    checkAll t (before ++ p :: after) = checkAll t (before ++ p' :: after) := by
  induction before with
  | nil => simp only [List.nil_append, checkAll, h]
  | cons _ _ ih => simp only [List.cons_append, checkAll, ih]

namespace Frame
variable {f : Frame}

/-- What fills the gap may be weaker; under an odd number of negations the whole gets stronger. -/
theorem holds_mono (h : p.holds cells = true → p'.holds cells = true) :
    (f.negated = false → (f.fill p).holds cells = true → (f.fill p').holds cells = true) ∧
    (f.negated = true → (f.fill p').holds cells = true → (f.fill p).holds cells = true) := by
  induction f with
  | gap => exact ⟨fun _ => h, nofun⟩
  | and before inner after ih =>
      simp only [negated, fill, holds, holdsAll_append, Bool.and_eq_true]
      exact ⟨fun hn ⟨hb, hp, ha⟩ => ⟨hb, ih.1 hn hp, ha⟩,
        fun hn ⟨hb, hp, ha⟩ => ⟨hb, ih.2 hn hp, ha⟩⟩
  | or before inner after ih =>
      simp only [negated, fill, holds, holdsAny_append, Bool.or_eq_true]
      exact ⟨fun hn => Or.imp_right (Or.imp_left (ih.1 hn)),
        fun hn => Or.imp_right (Or.imp_left (ih.2 hn))⟩
  | not inner ih =>
      simp only [negated, fill, holds, Bool.not_eq_true', Bool.not_eq_false']
      refine ⟨fun hn hp => Bool.eq_false_iff.mpr fun hp' => ?_,
        fun hn hp => Bool.eq_false_iff.mpr fun hp' => ?_⟩
      · exact Bool.eq_false_iff.mp hp (ih.2 hn hp')
      · exact Bool.eq_false_iff.mp hp (ih.1 hn hp')

theorem check_congr (h : p.check t = p'.check t) : (f.fill p).check t = (f.fill p').check t := by
  induction f with
  | gap => exact h
  | and before inner after ih => exact checkAll_congr ih before after
  | or before inner after ih => exact checkAll_congr ih before after
  | not inner ih => exact ih

end Frame

theorem compare_lower {k : Condition} {column : Nat} {operand : String}
    (hk : k = .equal ∨ k.isTextOnly = true)
    (hkeep : ∀ text, cells[column]? = some (.string text) →
      k.KeepsSigmas operand.toList text.toList)
    (h : (compare column k (.string operand) true).holds cells = true) :
    (compare column k (.string operand) false).holds cells = true := by
  unfold holds at h ⊢
  split at h
  next cell hcell =>
    obtain ⟨text, rfl⟩ := Value.string_of_satisfies hk h
    exact Value.satisfies_lower hk h (hkeep text hcell)
  next => cases h

end Predicate

/-- The rows that a window lets through have this one among them, or the limit is used up by rows
that come before it. -/
def Window.Covers (w : Window) (rows : List Nat) (row : Nat) : Prop :=
  row ∈ rows ∨ w.limit? = some rows.length ∧ ∀ r ∈ rows, r < row

namespace Query
variable {q : Query} {t : Table} {w : Window} {row : Nat}

theorem covers_cut {found : List Nat} (hfound : found.Pairwise (· < ·)) (h : row ∈ found) :
    w.Covers (w.cut found) row := by
  unfold Window.Covers Window.cut
  cases w.limit? with
  | none => exact .inl h
  | some limit =>
      rw [← List.take_append_drop limit found, List.mem_append] at h
      rcases h with h | h
      · exact .inl h
      · rw [← List.take_append_drop limit found, List.pairwise_append] at hfound
        have hlength := List.length_pos_of_mem h
        rw [List.length_drop] at hlength
        refine .inr ⟨?_, fun r hr => hfound.2.2 r hr row h⟩
        rw [List.length_take, Nat.min_eq_left (by omega)]

/-- A row that is found by one query and matched by the other is covered by what that finds. -/
theorem covers_matching {q' : Query} (hrow : row ∈ q.matching t w)
    (h : q.matchesRow t row = true → q'.matchesRow t row = true) :
    w.Covers (q'.matching t w) row := by
  have hcut : row ∈ (w.rows t.size).filter (q.matchesRow t) := by
    unfold matching Window.cut at hrow
    split at hrow
    · exact List.mem_of_mem_take hrow
    · exact hrow
  obtain ⟨hwindow, hmatch⟩ := List.mem_filter.mp hcut
  have hascending := (List.pairwise_lt_range' : (w.rows t.size).Pairwise (· < ·))
  exact covers_cut (hascending.filter _) (List.mem_filter.mpr ⟨hwindow, h hmatch⟩)

theorem matchesRow_imp {q' : Query}
    (h : ∀ r, t.rows[row]? = some r → q.predicate.holds r = true →
      q'.predicate.holds r = true)
    (hrow : q.matchesRow t row = true) : q'.matchesRow t row = true := by
  unfold matchesRow at hrow ⊢
  cases hr : t.rows[row]? with
  | none => simp [hr] at hrow
  | some r =>
      rw [hr, Option.any_some] at hrow
      exact h r hr hrow

/-- A comparison for equality, a beginning, an end or a part of a text, once it ignores the case,
still matches every text that it matched when it minded the case and in which the operand's sigmas
are what they are in the operand; equality and operands without capital sigmas need nothing, and at
the beginning and at the end the condition is exact. In a query that has the comparison under an
even number of negations, ignoring the case loses no row with such a cell, but for rows that a
limit cuts off. Under an odd number it adds none. -/
theorem ignoring_case {k : Condition} (hk : k = .equal ∨ k.isTextOnly = true) (operand : String) :
    (∀ text : String, (Value.string text).satisfies k (.string operand) true = true →
      (k.KeepsSigmas operand.toList text.toList →
        (Value.string text).satisfies k (.string operand) false = true) ∧
      (k ≠ .contains → (Value.string text).satisfies k (.string operand) false = true →
        k.KeepsSigmas operand.toList text.toList) ∧
      (k = .equal ∨ sigma ∉ operand.toList → k.KeepsSigmas operand.toList text.toList)) ∧
    ∀ (q : Query) (f : Predicate.Frame) (column : Nat) (t : Table) (w : Window),
      let asked caseSensitive : Query :=
        { q with predicate := f.fill (.compare column k (.string operand) caseSensitive) }
      let keeps row := ∀ text, t.cell? column row = some (.string text) →
        k.KeepsSigmas operand.toList text.toList
      (asked false).check t = (asked true).check t ∧
      ∀ rows, (asked true).findAll t w = .ok rows → ∃ rows',
        (asked false).findAll t w = .ok rows' ∧
        (f.negated = false → ∀ row ∈ rows, keeps row → w.Covers rows' row) ∧
        (f.negated = true → ∀ row ∈ rows', keeps row → w.Covers rows row) := by
  constructor
  · refine fun text h => ⟨Value.satisfies_lower hk h, fun hne hlower => ?_, ?_⟩
    · rcases hk with rfl | hk
      · exact trivial
      · rw [Value.satisfies_text hk] at hlower
        exact Condition.keepsSigmas_of_holdsOfText_lower hne hlower
    · rintro (rfl | hsigma)
      · exact trivial
      · exact Condition.keepsSigmas_of_not_mem hsigma
  · intro q f column t w asked keeps
    have hcheck : (asked false).check t = (asked true).check t := by
      have hpredicate : (asked false).predicate.check t = (asked true).predicate.check t :=
        Predicate.Frame.check_congr rfl
      simp only [check, hpredicate, asked]
    have hlower {row : Nat} (hkeep : keeps row) (r : List Value) (hr : t.rows[row]? = some r) :=
      f.holds_mono (Predicate.compare_lower hk fun text htext =>
        hkeep text (Table.cell?_eq_some.mpr ⟨r, hr, htext⟩))
    refine ⟨hcheck, fun rows hrows => ?_⟩
    obtain ⟨_, hok, hrows⟩ := bind_eq_ok.mp hrows
    obtain rfl := pure_eq_ok.mp hrows
    refine ⟨(asked false).matching t w, bind_eq_ok.mpr ⟨_, hcheck.trans hok, rfl⟩, ?_, ?_⟩
    · intro hn row hrow hkeep
      exact covers_matching hrow (matchesRow_imp fun r hr => (hlower hkeep r hr).1 hn)
    · intro hn row hrow hkeep
      exact covers_matching hrow (matchesRow_imp fun r hr => (hlower hkeep r hr).2 hn)

/-- A column of texts. -/
def words : Table where
  key := 1
  name := "t"
  columns := [.plain "x" .string false]
  rows := [[.string "ΑΣΑ"], [.string "ΑΣ Α"], [.string "b"], [.string "B"]]
  rowIds := [0, 1, 2, 3]
  nextRowId := 4
  schemaEpoch := 1

set_option maxRecDepth 2000 in
/-- A sigma that ends a word in the operand and in the text is no obstacle. -/
theorem ignoring_case_at_end_of_word :
    let asked caseSensitive : Query :=
      ⟨1, 1, .compare 0 .beginsWith (.string "ΑΣ") caseSensitive⟩
    (Value.string "ΑΣ Α").satisfies .beginsWith (.string "ΑΣ") false = true ∧
      (asked true).findAll words .all = .ok [0, 1] ∧
      ∃ rows, (asked false).findAll words .all = .ok rows ∧ 1 ∈ rows := by
  intro asked
  have hkeep : Condition.beginsWith.KeepsSigmas "ΑΣ".toList "ΑΣ Α".toList := by
    intro after h
    have hsplit : "ΑΣ Α".toList = "ΑΣ".toList ++ " Α".toList := by decide
    rw [← List.append_cancel_left (hsplit.symm.trans h)]
    decide
  obtain ⟨hmatch, hquery⟩ := ignoring_case (k := .beginsWith) (.inr rfl) "ΑΣ"
  obtain ⟨-, hfind⟩ := hquery ⟨1, 1, .all⟩ .gap 0 words .all
  have hfound : (asked true).findAll words .all = .ok [0, 1] := rfl
  obtain ⟨rows, hrows, hcovers, -⟩ := hfind [0, 1] hfound
  refine ⟨(hmatch "ΑΣ Α" rfl).1 hkeep, hfound, rows, hrows, ?_⟩
  have hrow : Window.all.Covers rows 1 := hcovers rfl 1 (by decide) fun text htext =>
    Value.string.inj (Option.some.inj htext) ▸ hkeep
  exact hrow.resolve_right fun hlimit => nomatch hlimit.1

set_option maxRecDepth 2000 in
/-- Three ways to lose a match by ignoring the case: a sigma ends a word in one of the operand and
the text only, the comparison is negated, or another match comes first. -/
theorem ignoring_case_loses_matches :
    let compare k s caseSensitive := Predicate.compare 0 k (.string s) caseSensitive
    let found p w := Query.findAll ⟨1, 1, p⟩ words w
    (found (compare .beginsWith "ΑΣ" true) .all = .ok [0, 1] ∧
      found (compare .beginsWith "ΑΣ" false) .all = .ok [1]) ∧
    ((Value.string "ΑΣ").satisfies .endsWith (.string "Σ") true = true ∧
      (Value.string "ΑΣ").satisfies .endsWith (.string "Σ") false = false) ∧
    ((Value.string "ΑΣΑ").satisfies .contains (.string "ΑΣ") true = true ∧
      (Value.string "ΑΣΑ").satisfies .contains (.string "ΑΣ") false = false) ∧
    (found (.not (compare .equal "B" true)) .all = .ok [0, 1, 2] ∧
      found (.not (compare .equal "B" false)) .all = .ok [0, 1]) ∧
    (found (compare .equal "B" true) ⟨0, none, some 1⟩ = .ok [3] ∧
      found (compare .equal "B" false) ⟨0, none, some 1⟩ = .ok [2]) :=
  ⟨⟨rfl, rfl⟩, ⟨rfl, rfl⟩, ⟨rfl, rfl⟩, ⟨rfl, rfl⟩, rfl, rfl⟩

end Query
end SnapshotStore
