import SnapshotStore.Proofs.View.OpenEnd

/-!
Filters on a query, one after the other. How a filter goes into the predicate depends on the shape
that this has by then: it takes the place of the predicate that admits all, it joins a conjunction
as one more part, whether the filters made that or a caller gave it, and it makes a new conjunction
with anything else. In every shape the rows that are left are those that satisfy both, and what is
wrong with the whole, once there was nothing wrong before, is what is wrong with the filter.
-/

namespace SnapshotStore

namespace Predicate
variable {q p : Predicate} {t : Table} {cells : List Value}

theorem satisfied_narrow (q p : Predicate) (cells : List Value) :
    (q.narrow p).Satisfied cells ↔ q.Satisfied cells ∧ p.Satisfied cells := by
  cases q with
  | all => simp only [narrow, Satisfied, true_and]
  | and parts =>
      simp only [narrow, Satisfied, List.mem_append, List.mem_singleton]
      constructor
      · exact fun h => ⟨fun part hpart => h part (.inl hpart), h p (.inr rfl)⟩
      · rintro ⟨hparts, hp⟩ part (hpart | rfl)
        · exact hparts part hpart
        · exact hp
  | compare | or | not => simp [narrow, Satisfied]

theorem checkAll_append (parts more : List Predicate) (t : Table) :
    checkAll t (parts ++ more) = checkAll t parts >>= fun _ => checkAll t more := by
  induction parts with
  | nil => rfl
  | cons part rest ih =>
      rw [List.cons_append, checkAll, checkAll, ih]
      cases part.check t <;> rfl

theorem checkAll_singleton (p : Predicate) (t : Table) : checkAll t [p] = p.check t := by
  rw [checkAll]
  cases p.check t <;> rfl

/-- The filter is checked after what was there before. -/
theorem check_narrow (q p : Predicate) (t : Table) :
    (q.narrow p).check t = q.check t >>= fun _ => p.check t := by
  have hpair : checkAll t [q, p] = q.check t >>= fun _ => p.check t := by
    rw [← checkAll_singleton q, ← checkAll_singleton p]
    exact checkAll_append [q] [p] t
  cases q with
  | all => rfl
  | and parts => exact (checkAll_append parts [p] t).trans (by rw [checkAll_singleton, check])
  | compare | or | not => exact hpair

/-- Only the filter can be at fault where the predicate was valid before. -/
theorem check_narrow_of_valid (h : q.check t = .ok ()) : (q.narrow p).check t = p.check t := by
  rw [check_narrow, h]
  rfl

theorem check_narrow_eq_ok :
    (q.narrow p).check t = .ok () ↔ q.check t = .ok () ∧ p.check t = .ok () := by
  rw [check_narrow, bind_eq_ok]
  exact ⟨fun ⟨_, hq, hp⟩ => ⟨hq, hp⟩, fun ⟨hq, hp⟩ => ⟨(), hq, hp⟩⟩

end Predicate

namespace Query
variable {q : Query} {t : Table} {ps qs : List Predicate}

/-- The query with filters put on it, one after the other. -/
def filterAll (q : Query) (ps : List Predicate) : Query := ps.foldl filter q

@[simp] theorem filterAll_nil : q.filterAll [] = q := rfl

@[simp] theorem filterAll_cons {p : Predicate} :
    q.filterAll (p :: ps) = (q.filter p).filterAll ps := rfl

theorem filterAll_append : q.filterAll (ps ++ qs) = (q.filterAll ps).filterAll qs :=
  List.foldl_append

theorem satisfied_filterAll (q : Query) (ps : List Predicate) (cells : List Value) :
    (q.filterAll ps).predicate.Satisfied cells ↔
      q.predicate.Satisfied cells ∧ ∀ p ∈ ps, p.Satisfied cells := by
  induction ps generalizing q with
  | nil => simp only [filterAll_nil, List.not_mem_nil, false_implies, implies_true, and_true]
  | cons p ps ih =>
      rw [filterAll_cons, ih, filter, Predicate.satisfied_narrow, List.forall_mem_cons, and_assoc]

theorem check_filterAll_eq_ok (q : Query) (ps : List Predicate) (t : Table) :
    (q.filterAll ps).predicate.check t = .ok () ↔
      q.predicate.check t = .ok () ∧ ∀ p ∈ ps, p.check t = .ok () := by
  induction ps generalizing q with
  | nil => simp only [filterAll_nil, List.not_mem_nil, false_implies, implies_true, and_true]
  | cons p ps ih =>
      rw [filterAll_cons, ih, filter, Predicate.check_narrow_eq_ok, List.forall_mem_cons,
        and_assoc]

/-- With no query before them, the filters are all there is to satisfy. -/
theorem satisfied_ofTable (t : Table) (ps : List Predicate) (cells : List Value) :
    ((ofTable t).filterAll ps).predicate.Satisfied cells ↔ ∀ p ∈ ps, p.Satisfied cells := by
  rw [satisfied_filterAll]
  exact and_iff_right (by rw [ofTable, Predicate.Satisfied]; trivial)

theorem check_ofTable (t t' : Table) (ps : List Predicate) :
    ((ofTable t').filterAll ps).predicate.check t = .ok () ↔ ∀ p ∈ ps, p.check t = .ok () :=
  (check_filterAll_eq_ok _ ps t).trans (and_iff_right rfl)

/-- What is found depends on what the predicates are true of, not on how they are built. -/
theorem Finds.of_satisfied {q' : Query} {start stop : Int} {rows : List Nat}
    (h : q.Finds t start stop rows)
    (hsame : ∀ cells, q'.predicate.Satisfied cells ↔ q.predicate.Satisfied cells) :
    q'.Finds t start stop rows where
  ascending := h.ascending
  mem row := by simp only [hsame, h.mem]

end Query
end SnapshotStore
