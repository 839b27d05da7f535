import SnapshotStore.Proofs.Connection.Faultless
import SnapshotStore.Proofs.Group.Refusal
import SnapshotStore.Proofs.Resources

/-!
Steps of a connection that are refused. A transition that fails leaves the connection as it was,
for a write that is open can be published or given up; an edit that fails leaves the working copy
alike.
-/

namespace SnapshotStore

/-- The same transaction is open, on groups that are alike. -/
inductive TransactionState.Alike : TransactionState → TransactionState → Prop
  | idle : Alike .idle .idle
  | reading (v : Version) (g : Group) : Alike (.reading v g) (.reading v g)
  | writing (base : Version) {g g' : Group} (h : g.Alike g') :
      Alike (.writing base g) (.writing base g')

theorem TransactionState.Alike.refl (s : TransactionState) : s.Alike s := by
  cases s with
  | idle => exact .idle
  | reading v g => exact .reading v g
  | writing base g => exact .writing base (.refl g)

/-- Nothing but the marks in the working copy may differ. -/
structure Context.Alike (c c' : Context) : Prop where
  id : c'.id = c.id
  state : c.state.Alike c'.state
  epoch : c'.epoch = c.epoch
  lastVersion? : c'.lastVersion? = c.lastVersion?

theorem Context.Alike.refl (c : Context) : c.Alike c := ⟨rfl, .refl _, rfl, rfl⟩

namespace Connection
variable {c c' : Connection} {e : Error}

theorem endRead_error (h : endRead c = .error e c') : c' = c := by
  unfold endRead at h
  split at h
  · simp at h
  · exact (EStateM.Result.error.inj h).2.symm

theorem rollback_error (h : rollback c = .error e c') : c' = c := by
  unfold rollback at h
  split at h
  · simp at h
  · exact (EStateM.Result.error.inj h).2.symm

/-- A write that can be published is. -/
theorem finishWrite_error (hc : c.Publishable) {operation : String} {keepPinned : Bool}
    (h : finishWrite operation keepPinned c = .error e c') : c' = c := by
  unfold finishWrite at h
  split at h
  next base g writing =>
    obtain ⟨s, hs⟩ := hc.commit_ok writing keepPinned
    simp [hs] at h
  · exact (EStateM.Result.error.inj h).2.symm

theorem commit_error (hc : c.Publishable) (h : commit c = .error e c') : c' = c := by
  unfold commit at h
  split at h
  · simp at h
  next hf =>
    obtain ⟨-, rfl⟩ := EStateM.Result.error.inj h
    exact finishWrite_error hc hf

theorem commitAndRead_error (hc : c.Publishable) (h : commitAndRead c = .error e c') :
    c' = c := by
  cases hstate : c.context.state with
  | idle | reading v g =>
      unfold commitAndRead at h
      split at h
      next hf =>
        obtain ⟨-, rfl⟩ := EStateM.Result.error.inj h
        exact finishWrite_error hc hf
      next hf => simp [finishWrite, hstate, refuse] at hf
  | writing base g =>
      -- The version that the commit makes is there to be read.
      obtain ⟨s, hs⟩ := hc.commit_ok hstate true
      obtain ⟨c₁, hok⟩ := commitAndRead_ok hstate hs
      simp [hok] at h

/-- The base of an open write is kept, so it can be read again. -/
theorem rollbackAndRead_error (hc : c.Publishable) (h : rollbackAndRead c = .error e c') :
    c' = c := by
  unfold rollbackAndRead at h
  split at h
  next base g writing =>
    obtain ⟨-, -, hkept⟩ := hc base g writing
    obtain ⟨f, hf⟩ := Option.isSome_iff_exists.mp hkept
    simp [Store.pin, Store.snapshot, hf, Except.map] at h
  · exact (EStateM.Result.error.inj h).2.symm

/-- A transition that fails changes nothing. -/
theorem perform_error (hc : c.Publishable) {t : Transition} (h : t.perform c = .error e c') :
    c' = c := by
  cases t with
  | beginRead at? | advance to? | beginWrite | promote =>
      exact Transition.perform_error_of_takes rfl h
  | endRead => exact endRead_error (map_run_error.mp h)
  | commit => exact commit_error hc (map_run_error.mp h)
  | commitAndRead => exact commitAndRead_error hc (map_run_error.mp h)
  | rollback => exact rollback_error (map_run_error.mp h)
  | rollbackAndRead => exact rollbackAndRead_error hc (map_run_error.mp h)

theorem edit_error {x : Edit} (h : Connection.edit x c = .error e c') :
    c'.store = c.store ∧ c.context.Alike c'.context := by
  unfold Connection.edit at h
  split at h
  next base g hstate =>
    split at h
    · simp at h
    next err g' hg =>
      obtain ⟨-, rfl⟩ := EStateM.Result.error.inj h
      have hrefused : (g.edit x).1 = .error err := by rw [hg]
      have halike := Group.edit_alike hrefused
      rw [hg] at halike
      exact ⟨rfl, rfl, hstate ▸ .writing base halike, rfl, rfl⟩
  · obtain ⟨-, rfl⟩ := EStateM.Result.error.inj h
    exact ⟨rfl, .refl _⟩

theorem ask_run_error {α : Type} {f : Connection → Except Error α} :
    ask f c = .error e c' ↔ f c = .error e ∧ c = c' := by
  unfold ask
  cases f c <;> simp

end Connection
end SnapshotStore
