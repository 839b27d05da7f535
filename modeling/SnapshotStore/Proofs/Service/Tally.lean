import SnapshotStore.Proofs.Service.Outlasting
import SnapshotStore.Proofs.Session.Tally

/-!
What sessions can tell of one another. Two services that differ in one session and by one call on
the tally are the same to all other sessions, whatever these go on to do.
-/

namespace SnapshotStore.Service

/-- The services differ in one session and by one call on the tally. -/
structure DiffersIn (n : Nat) (s s' : Service) : Prop where
  database : s'.database = { s.database with store := s.database.store.recordCall }
  others : ∀ m, m ≠ n → s'.sessions.get? m = s.sessions.get? m

/-- The session that a move is about. -/
def Move.number : Move → Nat
  | openSession number | closeSession number | call number _ => number

namespace DiffersIn
variable {n m : Nat} {s s' : Service}

theorem call (h : DiffersIn n s s') (hm : m ≠ n) (c : Call) :
    s'.answer? (.call m c) = s.answer? (.call m c) ∧
      DiffersIn n (s.make (.call m c)) (s'.make (.call m c)) := by
  have hothers := h.others m hm
  cases hs : s.sessions.get? m with
  | none =>
      have hs' := hothers.trans hs
      simp only [answer?, make, Service.call, hs, hs']
      exact ⟨rfl, h⟩
  | some session =>
      have hs' := hothers.trans hs
      have hw : s'.workspace session = (s.workspace session).counted := by
        simp only [workspace, h.database]
        rfl
      have hcall := Workspace.call_unheeding c (s.workspace session)
      have hturned (w : Workspace) : DiffersIn n (s.turned m w) (s'.turned m w.counted) := by
        refine ⟨rfl, ?_⟩
        intro k hk
        simp only [turned, NatMap.get?_insert, h.others k hk]
        rfl
      simp only [answer?, make, call_eq hs, call_eq hs', hw, hcall]
      cases Workspace.call c (s.workspace session) with
      | ok out w => exact ⟨rfl, hturned w⟩
      | error e w => exact ⟨rfl, hturned w⟩

theorem closeSession (h : DiffersIn n s s') (hm : m ≠ n) :
    DiffersIn n (s.closeSession m) (s'.closeSession m) := by
  have hothers := h.others m hm
  simp only [Service.closeSession, hothers]
  cases s.sessions.get? m with
  | none => exact h
  | some session =>
      have hclose := Connection.close_tallied (Workspace.connection ⟨s.database, session⟩)
      refine ⟨?_, ?_⟩
      · simp only [h.database]
        exact congrArg (fun store => { s.database with store }) hclose
      · intro k hk
        simp only [NatMap.get?_erase, h.others k hk]

theorem joined (h : DiffersIn n s s') (m : Nat) : DiffersIn n (s.joined m) (s'.joined m) := by
  refine ⟨?_, ?_⟩
  · simp only [Service.joined, h.database]
    rfl
  · intro k hk
    simp only [Service.joined, NatMap.get?_insert, h.others k hk, h.database]
    rfl

theorem move (h : DiffersIn n s s') {x : Move} (hx : x.number ≠ n) :
    s'.answer? x = s.answer? x ∧ DiffersIn n (s.make x) (s'.make x) := by
  cases x with
  | openSession m =>
      refine ⟨rfl, ?_⟩
      simp only [make, openSession_eq]
      exact (h.closeSession hx).joined m
  | closeSession m => exact ⟨rfl, h.closeSession hx⟩
  | call m c => exact h.call hx c

/-- Whatever the other sessions do from here on, they get the same answers. -/
theorem answers (h : DiffersIn n s s') {moves : List Move} (hmoves : ∀ x ∈ moves, x.number ≠ n) :
    s'.answers moves = s.answers moves := by
  induction moves generalizing s s' with
  | nil => rfl
  | cons x rest ih =>
      obtain ⟨hx, hrest⟩ := List.forall_mem_cons.mp hmoves
      obtain ⟨hanswer, hmake⟩ := h.move hx
      rw [Service.answers, Service.answers, hanswer, ih hmake hrest]

end DiffersIn
end SnapshotStore.Service
