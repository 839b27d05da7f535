import SnapshotStore.Proofs.Service.Bounds
import SnapshotStore.Proofs.Session.Refusal

/-!
Failures that change nothing. After a call that fails, sessions, store and registry are as they
were before it, except that the sync of a view may leave its rows half done, and a sort that panics
leaves them in another order.
-/

namespace SnapshotStore
namespace Service
variable {settings : Settings} {s s' : Service} {b : Notebook} {n : Nat} {session : Session}

/-- A call that fails, unless it is about what was handed over, leaves the transaction, the groups,
the handles and the objects behind them, the other sessions, the store and the registry as they
were. Only the views may differ, and only by the one that the call tears. -/
theorem Reachable.failure_changes_nothing (h : Reachable settings s b)
    (hs : s.sessions.get? n = some session) {c : Call} (hc : c.isHandover = false) {e : Error}
    (hcall : s.call n c = some (.error e, s')) : ∃ session',
      s'.sessions.get? n = some session' ∧
      (∀ m, m ≠ n → s'.sessions.get? m = s.sessions.get? m) ∧
      (s.workspace session).Stands (s'.workspace session') ∧
      (∀ views, session.Tears views c → session'.views = views) ∧
      ((∀ views, ¬session.Tears views c) → session'.views = session.views) := by
  obtain ⟨w', hw, rfl⟩ := call_eq_error hs hcall
  have hstands := Workspace.call_error_stands (w := s.workspace session) hc
    (h.kept.sound.publishable (world_context? hs)) hw
  exact ⟨w'.session, NatMap.get?_insert_self .., fun m hm =>
    NatMap.get?_insert_ne _ _ hm, hstands⟩

/-- A second column of one name is refused, and all is as it was. -/
theorem second_column_changes_nothing : ∃ s b session s' session', Reachable {} s b ∧
    s.sessions.get? 1 = some session ∧ s'.sessions.get? 1 = some session' ∧
    s.call 1 (.addColumn 0x100000100000000 .int "a" false) =
      some (.error (.illegalArgument "Column 'a' already exists in table 't'"), s') ∧
    (s.workspace session).Stands (s'.workspace session') ∧ session'.views = session.views := by
  have h := unused_reachable [.openSession 1, .call 1 (.transact .beginWrite),
    .call 1 (.addTable "t"), .call 1 (.addColumn 0x100000100000000 .int "a" false)]
  obtain ⟨session', hs', -, hstands, -, hviews⟩ := h.failure_changes_nothing (n := 1) rfl
    (c := .addColumn 0x100000100000000 .int "a" false) rfl rfl
  exact ⟨_, _, _, _, session', h, rfl, hs', rfl, hstands, hviews fun _ htears => htears⟩

/-- A view loses its only row in a sync that fails. -/
theorem view_torn_by_failed_sync : ∃ s b s', Reachable {} s b ∧
    (s.call 1 (.viewSize 0x400000100000000)).map (·.1) = some (.ok ⟨.number 1, none⟩) ∧
    s.call 1 (.viewSync 0x400000100000000) =
      some (.error (.illegalArgument "Distinct is not supported on Double columns"), s') ∧
    (s'.call 1 (.viewSize 0x400000100000000)).map (·.1) = some (.ok ⟨.number 0, none⟩) := by
  have h := unused_reachable [.openSession 1, .call 1 (.transact .beginWrite),
    .call 1 (.addTable "t"), .call 1 (.addEmptyRow 0x100000100000000),
    .call 1 (.transact .commitAndRead), .call 1 (.transact .promote),
    .call 1 (.addColumn 0x100000100000000 .int "a" false),
    .call 1 (.whereTable 0x100000100000000),
    .call 1 (.queryFindAll 0x300000100000000 0 (-1) (-1)),
    .call 1 (.viewDistinct 0x400000100000000 0), .call 1 (.transact .rollbackAndRead),
    .call 1 (.transact .promote), .call 1 (.addColumn 0x100000100000000 .double "b" false),
    .call 1 (.removeRow 0x100000100000000 0)]
  exact ⟨_, _, _, h, rfl, rfl, rfl⟩

end Service
end SnapshotStore
