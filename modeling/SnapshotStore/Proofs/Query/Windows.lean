import Mathlib.Data.List.Sort
import SnapshotStore.Proofs.Connection.Answer

/-!
What a query finds in a window. The predicate is a tree, and a row is found if its cells satisfy the
tree and it stands in the window. With the ascending order that determines the rows, so finding the
first match, all of them and how many there are come to the same, and a window can be cut in two.
-/

namespace SnapshotStore

/-- A check is passed where its fault is absent. -/
theorem ite_error_eq_ok {ε α : Type} {p : Prop} [Decidable p] {e : ε} {x : Except ε α} {y : α} :
    (if p then .error e else x) = .ok y ↔ ¬p ∧ x = .ok y := by
  split <;> simp_all

namespace Predicate

/-- The cells of a row satisfy the predicate. -/
def Satisfied (cells : List Value) : Predicate → Prop
  | .all => True
  | .compare column condition operand caseSensitive => ∃ cell, cells[column]? = some cell ∧
      cell.satisfies condition operand caseSensitive = true
  | .and parts => ∀ p, (_ : p ∈ parts) → Satisfied cells p
  | .or parts => ∃ p, ∃ _ : p ∈ parts, Satisfied cells p
  | .not inner => ¬Satisfied cells inner

mutual

theorem holds_iff (cells : List Value) :
    ∀ p : Predicate, p.holds cells = true ↔ p.Satisfied cells
  | .all => by simp only [holds, Satisfied]
  | .compare column condition operand caseSensitive => by
      rw [holds, Satisfied]
      cases cells[column]? <;> simp
  | .and parts => by
      rw [holds, Satisfied]
      exact holdsAll_iff cells parts
  | .or parts => by
      rw [holds, Satisfied]
      exact holdsAny_iff cells parts
  | .not inner => by
      rw [holds, Satisfied, ← holds_iff cells inner, Bool.not_eq_true', Bool.not_eq_true]

theorem holdsAll_iff (cells : List Value) : ∀ parts : List Predicate,
    holdsAll cells parts = true ↔ ∀ p, (_ : p ∈ parts) → p.Satisfied cells
  | [] => by simp [holdsAll]
  | p :: rest => by
      rw [holdsAll, Bool.and_eq_true, holds_iff cells p, holdsAll_iff cells rest,
        List.forall_mem_cons]

theorem holdsAny_iff (cells : List Value) : ∀ parts : List Predicate,
    holdsAny cells parts = true ↔ ∃ p, ∃ _ : p ∈ parts, p.Satisfied cells
  | [] => by simp [holdsAny]
  | p :: rest => by
      rw [holdsAny, Bool.or_eq_true, holds_iff cells p, holdsAny_iff cells rest]
      simp only [exists_prop, List.exists_mem_cons_iff]

end

end Predicate

namespace Window
variable {size : Nat} {start stop limit : Int}

theorem mem_rows {w : Window} {size row : Nat} :
    row ∈ w.rows size ↔ w.start ≤ row ∧ row < min (w.stop?.getD size) size := by
  simp only [rows, List.mem_range'_1]
  omega

/-- Where a window ends, where -1 stands for the end of the table. -/
def resolve (size : Nat) (stop : Int) : Int := if stop = -1 then size else stop

/-- The numbers make a window of a table of the given size. -/
def Accepts (size : Nat) (start stop limit : Int) : Prop :=
  0 ≤ start ∧ start ≤ size ∧ (stop = -1 ∨ 0 ≤ stop ∧ stop ≤ size) ∧ start ≤ resolve size stop ∧
    -1 ≤ limit

theorem Accepts.resolve_le (h : Accepts size start stop limit) : resolve size stop ≤ size := by
  obtain ⟨-, -, hstop, -⟩ := h
  unfold resolve
  split <;> omega

/-- The window of numbers that are accepted. -/
def ofAccepted (size : Nat) (start stop limit : Int) : Window where
  start := start.toNat
  stop? := some (resolve size stop).toNat
  limit? := if limit = -1 then none else some limit.toNat

/-- The checks of the numbers pass if and only if the numbers are accepted. -/
theorem ofBounds_eq_ok {w : Window} : ofBounds size start stop limit = .ok w ↔
    Accepts size start stop limit ∧ w = ofAccepted size start stop limit := by
  unfold ofBounds Accepts ofAccepted resolve
  simp only [bind, Except.bind, pure, Except.pure, throw, throwThe, MonadExceptOf.throw,
    ite_error_eq_ok, Except.ok.injEq]
  by_cases hstop : stop = -1
  · simp only [hstop, if_true, Int.toNat_natCast]
    constructor
    · rintro ⟨hstart, hin, -, -, horder, hlimit, rfl⟩
      exact ⟨⟨by omega, by omega, .inl trivial, by omega, by omega⟩, rfl⟩
    · rintro ⟨⟨hstart, hin, -, horder, hlimit⟩, rfl⟩
      exact ⟨by omega, by omega, by omega, by omega, by omega, by omega, rfl⟩
  · simp only [hstop, if_false, false_or]
    constructor
    · rintro ⟨hstart, hin, hneg, hbelow, horder, hlimit, rfl⟩
      exact ⟨⟨by omega, by omega, by omega, by omega, by omega⟩, rfl⟩
    · rintro ⟨⟨hstart, hin, hbelow, horder, hlimit⟩, rfl⟩
      exact ⟨by omega, by omega, by omega, by omega, by omega, by omega, rfl⟩

end Window

namespace Query
variable {q : Query} {t : Table} {start m stop limit : Int} {front back : List Nat}

/-- The rows are those from the start up to, not including, the stop whose cells satisfy the
predicate, in ascending order. -/
structure Finds (q : Query) (t : Table) (start stop : Int) (rows : List Nat) : Prop where
  ascending : rows.Pairwise (· < ·)
  mem : ∀ row, row ∈ rows ↔ start ≤ row ∧ row < stop ∧
    ∃ r, t.rows[row]? = some r ∧ q.predicate.Satisfied r

namespace Finds

/-- There is one way only to list what is found. -/
theorem unique (h : q.Finds t start stop front) (h' : q.Finds t start stop back) : front = back :=
  h.ascending.eq_of_mem_iff h'.ascending fun row => (h.mem row).trans (h'.mem row).symm

/-- What is found in two windows side by side is found in the window of both. -/
theorem append (hm : start ≤ m) (hm' : m ≤ stop) (h : q.Finds t start m front)
    (h' : q.Finds t m stop back) : q.Finds t start stop (front ++ back) where
  ascending := by
    refine List.pairwise_append.mpr ⟨h.ascending, h'.ascending, fun a ha b hb => ?_⟩
    have hbelow := ((h.mem a).mp ha).2.1
    have habove := ((h'.mem b).mp hb).1
    omega
  mem row := by
    rw [List.mem_append, h.mem, h'.mem]
    constructor
    · rintro (⟨hfrom, hto, hfound⟩ | ⟨hfrom, hto, hfound⟩)
      · exact ⟨hfrom, by omega, hfound⟩
      · exact ⟨by omega, hto, hfound⟩
    · rintro ⟨hfrom, hto, hfound⟩
      by_cases hrow : row < m
      · exact .inl ⟨hfrom, hrow, hfound⟩
      · exact .inr ⟨by omega, hto, hfound⟩

end Finds

theorem matchesRow_iff {row : Nat} : q.matchesRow t row = true ↔
    ∃ r, t.rows[row]? = some r ∧ q.predicate.Satisfied r := by
  simp only [matchesRow, Option.any_eq_true, Predicate.holds_iff]

/-- The matches in a window, apart from its limit. -/
theorem finds_in_window (w : Window) : q.Finds t w.start (min (w.stop?.getD t.size) t.size : Nat)
    ((w.rows t.size).filter (q.matchesRow t)) where
  ascending := (w.rows_ascending t.size).filter _
  mem row := by
    rw [List.mem_filter, Window.mem_rows, matchesRow_iff, and_assoc, Int.ofNat_le,
      Int.ofNat_lt]

/-- The matches in a window of numbers are the first of those from the start to the stop, as many as
the limit says, where -1 stands for no limit. -/
theorem matching_ofAccepted (h : Window.Accepts t.size start stop limit) : ∃ rows,
    q.Finds t start (Window.resolve t.size stop) rows ∧
    q.matching t (Window.ofAccepted t.size start stop limit) =
      if limit = -1 then rows else rows.take limit.toNat := by
  have hfinds := q.finds_in_window (t := t) (Window.ofAccepted t.size start stop limit)
  have hle := h.resolve_le
  obtain ⟨hfrom, -, -, horder, -⟩ := h
  have hstart : ((Window.ofAccepted t.size start stop limit).start : Int) = start :=
    Int.toNat_of_nonneg hfrom
  have hstop : ((min ((Window.ofAccepted t.size start stop limit).stop?.getD t.size) t.size : Nat)
      : Int) = Window.resolve t.size stop := by
    simp only [Window.ofAccepted, Option.getD_some]
    omega
  rw [hstart, hstop] at hfinds
  refine ⟨_, hfinds, ?_⟩
  simp only [matching, Window.cut]
  split <;> simp_all [Window.ofAccepted]

/-- Every match from a position onwards. -/
theorem finds_onward (row : Nat) : q.Finds t row t.size (q.matching t ⟨row, none, none⟩) := by
  have hfinds := q.finds_in_window (t := t) ⟨row, none, none⟩
  rwa [Option.getD_none, Nat.min_self] at hfinds

section Checked
variable (h : q.check t = .ok ())
include h

theorem findAll_of_check (w : Window) : q.findAll t w = .ok (q.matching t w) :=
  bind_eq_ok.mpr ⟨(), h, rfl⟩

theorem count_of_check (w : Window) : q.count t w = .ok (q.matching t w).length :=
  bind_eq_ok.mpr ⟨(), h, rfl⟩

theorem find_of_check (row : Nat) : q.find t row = .ok (q.matching t ⟨row, none, none⟩).head? :=
  bind_eq_ok.mpr ⟨(), h, rfl⟩

end Checked

end Query
end SnapshotStore
