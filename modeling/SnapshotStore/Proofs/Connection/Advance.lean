import SnapshotStore.Proofs.Connection.Step
import SnapshotStore.Proofs.Outcome

/-!
Moving on: an open read goes to a later version, or becomes a write on the latest. The report
of the way is collected from the change log of the store.
-/

namespace SnapshotStore
namespace Connection
variable {c c' : Connection} {a : Advance} {t : Transition}

/-- A context left one group for another; the report was collected from the change log. -/
structure Advances (c : Connection) (a : Advance) (c' : Connection) (g g' : Group) : Prop where
  leaves : c.context.state = .reading a.before g
  arrives : c'.context.state = .reading a.after g' ∨
    c'.context.state = .writing a.after { g' with revision := a.after + 1 }
  epoch : c'.context.epoch = c.context.epoch
  log : a = ⟨a.before, a.before, .empty⟩ ∧ g' = g ∨ ∃ changes,
    c.store.changesBetween a.before a.after = .ok changes ∧ a.changes = .collect changes ∧
      c.store.snapshots.get? a.after = some g'

theorem Advances.group {g g' : Group} (h : c.Advances a c' g g') :
    c'.context.isInTransaction ∧ ∃ f, c'.context.group = .ok f ∧
      ∀ key, f.table? key = g'.table? key := by
  rcases h.arrives with hstate | hstate
  · exact ⟨by simp [Context.isInTransaction, hstate, TransactionState.version?], g',
      Context.group_of_reading hstate, fun _ => rfl⟩
  · exact ⟨by simp [Context.isInTransaction, hstate, TransactionState.version?], _,
      Context.group_of_writing hstate, fun _ => rfl⟩

theorem advance_run_ok {to? : Option Version} (h : advance to? c = .ok a c') :
    ∃ g g', c.Advances a c' g g' ∧ c'.context.state = .reading a.after g' := by
  unfold advance at h
  split at h
  next v g hstate =>
    dsimp only at h
    split at h
    · simp at h
    · split at h
      · obtain ⟨rfl, rfl⟩ := EStateM.Result.ok.inj h
        exact ⟨g, g, ⟨hstate, .inl hstate, rfl, .inl ⟨rfl, rfl⟩⟩, hstate⟩
      · split at h
        · simp at h
        next changes hchanges =>
          split at h
          · simp at h
          next w g' store hpin =>
            obtain ⟨rfl, rfl⟩ := EStateM.Result.ok.inj h
            obtain ⟨rfl, hget, -⟩ := Store.pin_eq_ok hpin
            exact ⟨g, g', ⟨hstate, .inl rfl, rfl, .inr ⟨changes, hchanges, rfl, hget⟩⟩, rfl⟩
  next => simp [refuse] at h

theorem promote_run_ok (h : promote c = .ok a c') : ∃ g g', c.Advances a c' g g' := by
  unfold promote at h
  split at h
  next v g hstate =>
    split at h
    · simp at h
    next store hacquire =>
      obtain ⟨-, rfl⟩ := Store.acquireWriter_eq_ok hacquire
      split at h
      next changes g' hchanges hsnapshot =>
        obtain ⟨rfl, rfl⟩ := EStateM.Result.ok.inj h
        exact ⟨g, g', hstate, .inr rfl, rfl,
          .inr ⟨changes, hchanges, rfl, Store.snapshot_eq_ok.mp hsnapshot⟩⟩
      · simp at h
      · simp at h
  next => simp [refuse] at h

theorem perform_advances (h : t.perform c = .ok (.advanced a) c') :
    ∃ g g', c.Advances a c' g g' := by
  cases t with
  | advance to? =>
      obtain ⟨_, _, hrun, he⟩ := bind_run_ok.mp h
      obtain ⟨ha, rfl⟩ := pure_run_ok.mp he
      obtain rfl := Transition.Answer.advanced.inj ha
      obtain ⟨g, g', hadvances, -⟩ := advance_run_ok hrun
      exact ⟨g, g', hadvances⟩
  | promote =>
      obtain ⟨_, _, hrun, he⟩ := bind_run_ok.mp h
      obtain ⟨ha, rfl⟩ := pure_run_ok.mp he
      obtain rfl := Transition.Answer.advanced.inj ha
      exact promote_run_ok hrun
  | beginRead | endRead | beginWrite | commit | commitAndRead | rollback | rollbackAndRead =>
      obtain ⟨_, _, -, he⟩ := bind_run_ok.mp h
      obtain ⟨ha, -⟩ := pure_run_ok.mp he
      cases ha

end Connection
end SnapshotStore
