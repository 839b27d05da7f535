import SnapshotStore.Proofs.Service.Run
import SnapshotStore.Proofs.Session.Outlasting

/-!
Services that differ in how many versions they keep. Sessions notice the difference only
where the service that keeps less has to say that a version is not available: up to there,
the same moves get the same answers.
-/

namespace SnapshotStore
namespace Service

/-- What a move is answered, if it is a call of a session that is there. -/
def answer? (s : Service) : Move → Option (Except Error Outcome)
  | .call n c => (s.call n c).map (·.1)
  | .openSession _ | .closeSession _ => none

/-- What moves are answered, one after the other. -/
def answers (s : Service) : List Move → List (Option (Except Error Outcome))
  | [] => []
  | m :: moves => s.answer? m :: answers (s.make m) moves

/-- The service after moves. -/
def makeAll (s : Service) (moves : List Move) : Service := moves.foldl make s

/-- Whether an answer is that a version is not available. -/
def missesVersion : Option (Except Error Outcome) → Bool
  | some (.error e) => e.isBadVersion
  | _ => false

/-- The sessions, the envelopes, and what the store says apart from the past. -/
def present (s : Service) : Service :=
  { s with database := { s.database with store := s.database.store.present } }

/-- The same sessions and envelopes on two stores, of which the second keeps all that the
first does. -/
inductive OutlastedBy : Service → Service → Prop
  | mk {s t : Store} (store : s.OutlastedBy t) (envelopes : Arena Envelope)
      (sessions : NatMap Session) :
      OutlastedBy ⟨⟨s, envelopes⟩, sessions⟩ ⟨⟨t, envelopes⟩, sessions⟩

namespace OutlastedBy
variable {s t : Service}

theorem present (h : s.OutlastedBy t) : t.present = s.present := by
  obtain ⟨hst, es, sessions⟩ := h
  simp only [Service.present, hst.present]

theorem closeSession (h : s.OutlastedBy t) (n : Nat) :
    (s.closeSession n).OutlastedBy (t.closeSession n) := by
  obtain ⟨hst, es, sessions⟩ := h
  simp only [Service.closeSession]
  cases sessions.get? n with
  | none => exact ⟨hst, es, sessions⟩
  | some session =>
      exact ⟨Connection.close_outlasted (.mk hst session.context), es, sessions.erase n⟩

theorem joined (h : s.OutlastedBy t) (n : Nat) : (s.joined n).OutlastedBy (t.joined n) := by
  obtain ⟨hst, es, sessions⟩ := h
  simp only [Service.joined, Connection.new, Store.newContextId, hst.nextContext]
  have hnew := hst.newContextId
  simp only [Store.newContextId, hst.nextContext] at hnew
  exact ⟨hnew, es, _⟩

theorem call (h : s.OutlastedBy t) (n : Nat) (c : Call) :
    (t.answer? (.call n c) = s.answer? (.call n c) ∧
      (s.make (.call n c)).OutlastedBy (t.make (.call n c))) ∨
    missesVersion (s.answer? (.call n c)) = true := by
  obtain ⟨hst, es, sessions⟩ := h
  simp only [answer?, Service.make, Service.call]
  cases sessions.get? n with
  | none => exact .inl ⟨rfl, hst, es, sessions⟩
  | some session =>
      simp only [Option.map_some, Option.getD_some]
      rcases (Workspace.call_forgetful c _ _ ⟨hst, es, session⟩).elim with
        ⟨out, _, _, hs, ht, ⟨h', es', session'⟩⟩ | ⟨e, _, _, hs, ht, ⟨h', es', session'⟩⟩ |
        ⟨e, w, hs, bad⟩
      · rw [hs, ht]
        exact .inl ⟨rfl, h', es', _⟩
      · rw [hs, ht]
        exact .inl ⟨rfl, h', es', _⟩
      · rw [hs]
        exact .inr bad

theorem move (h : s.OutlastedBy t) (m : Move) :
    (t.answer? m = s.answer? m ∧ (s.make m).OutlastedBy (t.make m)) ∨
      missesVersion (s.answer? m) = true := by
  cases m with
  | openSession n =>
      refine .inl ⟨rfl, ?_⟩
      simp only [Service.make, openSession_eq]
      exact (h.closeSession n).joined n
  | closeSession n => exact .inl ⟨rfl, h.closeSession n⟩
  | call n c => exact h.call n c

theorem moves (h : s.OutlastedBy t) (moves : List Move)
    (hmoves : ∀ a ∈ s.answers moves, missesVersion a = false) :
    t.answers moves = s.answers moves ∧ (s.makeAll moves).OutlastedBy (t.makeAll moves) := by
  induction moves generalizing s t with
  | nil => exact ⟨rfl, h⟩
  | cons m moves ih =>
      obtain ⟨hm, hrest⟩ := List.forall_mem_cons.mp hmoves
      rcases h.move m with ⟨hanswer, hmake⟩ | hmisses
      · obtain ⟨hanswers, hall⟩ := ih hmake hrest
        exact ⟨by rw [answers, answers, hanswer, hanswers], hall⟩
      · rw [hm] at hmisses
        exact absurd hmisses Bool.false_ne_true

end OutlastedBy

/-- The number of versions to keep shows only as a version that is not available: as long as
the service that keeps fewer has not answered that, the one that keeps more gives the same
answers to all moves of all sessions, and leads to the same sessions, the same envelopes and
a store that says the same of the present, its counter of calls included. -/
theorem retention_shows_only_as_missing_versions {id : String} {settings : Settings}
    {longer : Nat} {s t : Service} {moves : List Move} (hs : openNew id settings = .ok s)
    (ht : openNew id { settings with historyRetention := longer } = .ok t)
    (hle : settings.historyRetention ≤ longer)
    (hmoves : ∀ a ∈ s.answers moves, missesVersion a = false) :
    t.answers moves = s.answers moves ∧ (t.makeAll moves).present = (s.makeAll moves).present := by
  obtain ⟨_, hd, rfl⟩ := map_eq_ok.mp hs
  obtain ⟨_, hd', rfl⟩ := map_eq_ok.mp ht
  obtain ⟨store, hstore, rfl⟩ := map_eq_ok.mp hd
  obtain ⟨store', hstore', rfl⟩ := map_eq_ok.mp hd'
  have h : OutlastedBy ⟨⟨store, .empty .envelope⟩, ∅⟩ ⟨⟨store', .empty .envelope⟩, ∅⟩ :=
    ⟨Store.openNew_outlasted hstore hstore' hle, _, _⟩
  obtain ⟨hanswers, hall⟩ := h.moves moves hmoves
  exact ⟨hanswers, hall.present⟩

/-- Three commits past a reader, who then moves on and counts. -/
def commitsPastAReader : List Move :=
  [.openSession 1, .openSession 2, .call 1 (.transact .beginWrite), .call 1 (.addTable "t"),
    .call 1 (.transact .commit), .call 2 (.transact (.beginRead none)), .call 2 (.getTable "t"),
    .call 1 (.transact .beginWrite), .call 1 (.getTable "t"),
    .call 1 (.addEmptyRow 0x100000100000001), .call 1 (.transact .commit),
    .call 1 (.transact .beginWrite), .call 1 (.transact .commit),
    .call 2 (.transact (.advance none)), .call 2 (.size 0x100000100000000)]

/-- The services keep one version and all four in the end, and nobody could tell. -/
theorem commits_past_a_reader_alike : ∃ s t : Service,
    openNew "store" { historyRetention := 1 } = .ok s ∧
    openNew "store" { historyRetention := 4 } = .ok t ∧
    (s.makeAll commitsPastAReader).database.store.retained = [4] ∧
    (t.makeAll commitsPastAReader).database.store.retained = [1, 2, 3, 4] ∧
    t.answers commitsPastAReader = s.answers commitsPastAReader ∧
    (t.makeAll commitsPastAReader).present = (s.makeAll commitsPastAReader).present :=
  ⟨_, _, rfl, rfl, by decide +kernel, by decide +kernel,
    @retention_shows_only_as_missing_versions "store" { historyRetention := 1 } 4 _ _
      commitsPastAReader rfl rfl (by decide) (by decide +kernel)⟩

/-- Afterwards a read of the first version tells them apart. -/
example : ((openNew "store" { historyRetention := 1 }).toOption.map fun s =>
      (s.makeAll commitsPastAReader).answers [.call 1 (.transact (.beginRead (some 1)))]) =
        some [some (.error (.badVersion 1 "it has been compacted (oldest retained is v4)"))] ∧
    ((openNew "store" { historyRetention := 4 }).toOption.map fun s =>
      (s.makeAll commitsPastAReader).answers [.call 1 (.transact (.beginRead (some 1)))]) =
        some [some (.ok ⟨.version 1, none⟩)] := by
  decide +kernel

end Service
end SnapshotStore
