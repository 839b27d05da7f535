import SnapshotStore.Proofs.Service.Bounds
import SnapshotStore.Proofs.Session.Acceptance

/-!
Calls that are counted. A call that stops at its checks leaves the service as it is; one that passes
them is counted once and goes through, unless the checks forgot something.
-/

namespace SnapshotStore

theorem Group.conforms_hereditary : Hereditary (AllColumns Column.Conforms) where
  empty := .empty
  revise _ revision h := h.revise revision
  addTable _ _ h := h.edit fun _ _ he => nomatch he
  edit _ _ _ _ _ _ hp h := h.edit fun _ _ he => Session.plan_addColumn_conforms (he ▸ hp)

namespace Service
variable {settings : Settings} {s : Service} {b : Notebook} {n : Nat} {session : Session}

/-- How often the sessions have reached the store. -/
def engineCalls (s : Service) : Nat := s.database.store.usage.engineCalls

/-- A call on rows, cells or columns either stops at its checks, and all is as it was, or it passes
them and is counted once. Then it goes through, but for the calls whose checks forget something:
those are refused by the group. -/
theorem Reachable.checked_then_counted (h : Reachable settings s b)
    (hs : s.sessions.get? n = some session) {c : Call} (hcall : c.isOfTable = true)
    (hsized : c.Sized) : ∃ r s', s.call n c = some (r, s') ∧
      ((∃ e, session.plan c = .error e ∧ r = .error e ∧ s' = s) ∨
        ((∃ operation, session.plan c = .ok operation) ∧ s'.engineCalls = s.engineCalls + 1 ∧
          (r.isOk = true ↔ ¬session.Misfits c))) := by
  have hg := fun g => h.group_wellFormed hs (g := g)
  have hc := fun g => h.inherits Group.conforms_hereditary hs (g := g)
  cases hplan : session.plan c with
  | error e =>
      have hcalled : Workspace.call c (s.workspace session) = .error e (s.workspace session) := by
        simp only [Workspace.call, workspace, hplan]
      exact ⟨_, _, call_unchanged_of_error hs hcalled, .inl ⟨e, rfl, rfl, rfl⟩⟩
  | ok operation =>
      have hcalled : Workspace.call c (s.workspace session) =
          operation.perform (s.workspace session) := by
        simp only [Workspace.call, workspace, hplan]
      by_cases hfit : session.Misfits c
      · obtain ⟨e, w', hp, hstore⟩ := Operation.perform_refused (w := s.workspace session)
          (Session.plan_refused hg hfit operation hplan)
        refine ⟨.error e, s.turned n w', by rw [call_eq hs, hcalled, hp],
          .inr ⟨⟨operation, rfl⟩, ?_, by simp [Except.isOk, Except.toBool, hfit]⟩⟩
        simp only [engineCalls, turned, hstore]
        rfl
      · obtain ⟨out, w', hp, hstore⟩ := Operation.perform_accepted (w := s.workspace session)
          (Session.plan_accepted hg hc hcall hsized hfit operation hplan)
        refine ⟨.ok out, s.turned n w', by rw [call_eq hs, hcalled, hp],
          .inr ⟨⟨operation, rfl⟩, ?_, by simp [Except.isOk, Except.toBool, hfit]⟩⟩
        simp only [engineCalls, turned, hstore]
        rfl

/-- A number goes into a mixed cell, and that is one call. -/
theorem number_set_and_counted : ∃ s b session r s', Reachable {} s b ∧
    s.sessions.get? 1 = some session ∧
    s.call 1 (.setMixed 0x100000100000000 0 0 (.int 7)) = some (r, s') ∧ r.isOk = true ∧
    s'.engineCalls = s.engineCalls + 1 ∧
    ¬session.Misfits (.setMixed 0x100000100000000 0 0 (.int 7)) := by
  have h := unused_reachable [.openSession 1, .call 1 (.transact .beginWrite),
    .call 1 (.addTable "t"), .call 1 (.addColumn 0x100000100000000 .mixed "m" false),
    .call 1 (.addEmptyRow 0x100000100000000)]
  obtain ⟨r, s', hcall, hr⟩ := h.checked_then_counted (n := 1) rfl
    (c := .setMixed 0x100000100000000 0 0 (.int 7)) rfl trivial
  have hresult := congrArg (Option.map fun x : Except Error Outcome × Service => x.1.isOk) hcall
  have hok : r.isOk = true := Option.some.inj (hresult.symm.trans rfl)
  rcases hr with ⟨e, -, rfl, -⟩ | ⟨-, hcount, hfit⟩
  · exact absurd hok Bool.false_ne_true
  · exact ⟨_, _, _, r, s', h, rfl, hcall, hok, hcount, hfit.mp hok⟩

/-- Null does not go into a mixed cell whose column is not nullable, and that is one call too. -/
theorem null_refused_and_counted : ∃ s b s', Reachable {} s b ∧
    s.call 1 (.setMixed 0x100000100000000 0 0 .null) =
      some (.error (.illegalArgument "This field is not nullable."), s') ∧
    s'.engineCalls = s.engineCalls + 1 := by
  have h := unused_reachable [.openSession 1, .call 1 (.transact .beginWrite),
    .call 1 (.addTable "t"), .call 1 (.addColumn 0x100000100000000 .mixed "m" false),
    .call 1 (.addEmptyRow 0x100000100000000)]
  exact ⟨_, _, _, h, rfl, rfl⟩

end Service
end SnapshotStore
