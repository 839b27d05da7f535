import SnapshotStore.Proofs.Service.Target
import SnapshotStore.Proofs.Session.Lending

/-!
What work that is handed to a session leaves behind. Every pin of the store is that of a session
that reads, so whatever a session does to the pins is its own affair. A session whose work fails
has given everything back, and nothing that it found on the way is registered.
-/

namespace SnapshotStore
namespace Service

/-- How many sessions other than the given one read the version. -/
def othersReading (s : Service) (n : Nat) (v : Version) : Nat :=
  (s.sessions.erase n).values.countP (·.context.reads v)

/-- Whatever one session does, what others have and the lock stay as they are; the pins differ
by those of the session. -/
structure Apart (s : Service) (n : Nat) (session : Session) (s' : Service)
    (session' : Session) : Prop where
  there : s'.sessions.get? n = some session'
  others : ∀ m, m ≠ n → s'.sessions.get? m = s.sessions.get? m
  writer : s'.database.store.writer? = s.database.store.writer?
  before : ∀ v, s.database.store.pinCount v =
    s.othersReading n v + (session.context.reads v).toNat
  after : ∀ v, s'.database.store.pinCount v =
    s.othersReading n v + (session'.context.reads v).toNat

/-- What becomes of a service and its session by work that the session was handed. -/
structure Settled (s : Service) (n : Nat) (session : Session) (c : Call)
    (result : Except Error Outcome) (s' : Service) (session' : Session) : Prop
    extends Apart s n session s' session' where
  /-- Once the session has given its own read up, it comes out of a failure with none. -/
  failed : ∀ e, result = .error e → (s.workspace session).lends c →
    session'.context.state = .idle ∧ ∀ v, s'.database.store.pinCount v = s.othersReading n v
  refused : ∀ e, result = .error e → ¬(s.workspace session).lends c →
    session'.context = session.context
  kept : ∀ e, result = .error e → ∀ raw env, s'.database.envelopes.get raw = .ok env →
    s.database.envelopes.get raw = .ok env
  done : ∀ out, result = .ok out → (s.workspace session).lends c ∧ ∃ v g,
    session'.context.state = .reading v g ∧ c.Tells out v ∧
      ∀ u, s'.database.store.pinCount u = s.othersReading n u + if u = v then 1 else 0

/-- Every pin is that of a session that reads. -/
def Balanced (s : Service) : Prop :=
  ∀ v, s.database.store.pinCount v = s.sessions.values.countP (·.context.reads v)

variable {settings : Settings} {s s' : Service} {b : Notebook} {n : Nat} {session : Session}
  {c : Call} {result : Except Error Outcome} {w' : Workspace}

namespace Balanced

theorem split (h : s.Balanced) (hs : s.sessions.get? n = some session) (v : Version) :
    s.database.store.pinCount v = s.othersReading n v + (session.context.reads v).toNat :=
  (h v).trans (NatMap.countP_erase (·.context.reads v) hs).symm

theorem backed (h : s.Balanced) (hs : s.sessions.get? n = some session) :
    (s.workspace session).connection.Backed := by
  intro v hv
  have hsplit := h.split hs v
  change session.context.reads v = true at hv
  rw [hv] at hsplit
  exact hsplit ▸ Nat.succ_pos _

theorem turned (h : s.Balanced) (hs : s.sessions.get? n = some session)
    (hf : Connection.Frames (s.workspace session).connection w'.connection) :
    (s.turned n w').Balanced ∧ ∀ v, w'.database.store.pinCount v =
      s.othersReading n v + (w'.session.context.reads v).toNat := by
  have hpins : ∀ v, w'.database.store.pinCount v =
      s.othersReading n v + (w'.session.context.reads v).toNat := by
    intro v
    have hframe : w'.database.store.pinCount v + (session.context.reads v).toNat =
        s.database.store.pinCount v + (w'.session.context.reads v).toNat := hf.pins v
    have hsplit := h.split hs v
    omega
  exact ⟨fun v => (hpins v).trans (NatMap.countP_insert ..).symm, hpins⟩

theorem closeSession (h : s.Balanced) (n : Nat) : (s.closeSession n).Balanced := by
  unfold Service.closeSession
  cases hs : s.sessions.get? n with
  | none => exact h
  | some session =>
      intro v
      have hclose := Connection.close_pinCount (h.backed hs) v
      exact Nat.add_right_cancel (hclose.trans (h.split hs v))

theorem joined (h : s.Balanced) (hn : s.sessions.get? n = none) : (s.joined n).Balanced := by
  intro v
  have hcount := NatMap.countP_insert (p := fun x : Session => x.context.reads v) s.sessions n
    (.new (Connection.new s.database.store).context)
  rw [NatMap.erase_of_get? hn] at hcount
  exact (h v).trans hcount.symm

theorem make (h : s.Balanced) (hk : Kept settings s b) (m : Move) : (s.make m).Balanced := by
  cases m with
  | openSession n =>
      rw [Service.make, openSession_eq]
      exact (h.closeSession n).joined (closeSession_get? s n)
  | closeSession n => exact h.closeSession n
  | call n c =>
      cases hs : s.sessions.get? n with
      | none => simpa [Service.make, Service.call, hs] using h
      | some session =>
          obtain ⟨w', hturns, hmake, -⟩ := hk.call_turns hs c
          rw [hmake]
          exact (h.turned hs (hturns.course.frames (h.backed hs))).1

end Balanced

theorem Reachable.balanced (h : Reachable settings s b) : s.Balanced := by
  refine h.induct (I := fun s _ => s.Balanced) (fun id s₀ ho => ?_) fun s b m hk hs => hs.make hk m
  obtain ⟨database, hd, rfl⟩ := map_eq_ok.mp ho
  obtain ⟨store, hstore, rfl⟩ := map_eq_ok.mp hd
  obtain ⟨-, -, rfl⟩ := Store.openNew_eq_ok hstore
  exact fun v => rfl

/-! Work that fails and work that is done -/

/-- A call that fails registers nothing. -/
theorem kept_of_error {e : Error}
    (h : Workspace.call c (s.workspace session) = .error e w') {raw : UInt64} {env : Envelope}
    (hget : w'.database.envelopes.get raw = .ok env) : s.database.envelopes.get raw = .ok env := by
  obtain ⟨taken, ⟨a, hloses, hgains⟩, -⟩ := (s.workspace session).call_trades c
  have hsent : (s.workspace session).sent c = [] := by simp only [Workspace.sent, h]
  rw [hsent, Workspace.after_error h] at hgains
  cases hgains
  exact (hloses.get_iff.mp hget).2

/-- A session that was not writing has left the lock alone, and one that was still has it. -/
theorem writer_of_rest {source? : Option (HandleKind × Nat)} (hk : Kept settings s b)
    (hs : s.sessions.get? n = some session)
    (hturns : (s.workspace session).Turns .rest source? w')
    (hsame : session.context.isWriting → w'.session.context = session.context) :
    w'.database.store.writer? = s.database.store.writer? := by
  cases hwriting : session.context.isWriting with
  | false =>
      obtain ⟨c₁, hquiet, hstep⟩ := hturns.course
      exact ((hquiet.tail hstep).unlocked hwriting).1
  | true =>
      obtain ⟨base, g, hstate⟩ := (Connection.isWriting_iff _).mp hwriting
      have hbefore := hk.sound.stands n _ (world_context? hs)
      have hafter := (hk.turned hs hturns).sound.stands n _
        (world_context? (NatMap.get?_insert_self ..))
      rw [hsame hwriting] at hafter
      simp only [Context.Stands, hstate] at hbefore hafter
      exact hafter.1.trans hbefore.1.symm

theorem Reachable.apart {source? : Option (HandleKind × Nat)} (h : Reachable settings s b)
    (hs : s.sessions.get? n = some session)
    (hturns : (s.workspace session).Turns .rest source? w')
    (hsame : session.context.isWriting → w'.session.context = session.context) :
    s.Apart n session (s.turned n w') w'.session where
  there := NatMap.get?_insert_self ..
  others _ hm := NatMap.get?_insert_ne _ _ hm
  writer := writer_of_rest h.kept hs hturns hsame
  before := h.balanced.split hs
  after := (h.balanced.turned hs (hturns.course.frames (h.balanced.backed hs))).2

theorem settled_of_ok {out : Outcome} (ha : s.Apart n session (s.turned n w') w'.session)
    (hcomes : Workspace.ComesOut session.context ((s.workspace session).lends c) c.Tells
      (.ok out w')) : s.Settled n session c (.ok out) (s.turned n w') w'.session where
  toApart := ha
  failed _ h := nomatch h
  refused _ h := nomatch h
  kept _ h := nomatch h
  done _ h := by
    obtain rfl := Except.ok.inj h
    obtain ⟨hlends, -, v, g, hstate, htold⟩ := hcomes
    refine ⟨hlends, v, g, hstate, htold, fun u => ?_⟩
    rw [ha.after u, Context.reads_of_reading hstate]
    split <;> simp_all

theorem settled_of_error {e : Error} (ha : s.Apart n session (s.turned n w') w'.session)
    (hfailed : Workspace.call c (s.workspace session) = .error e w')
    (hcomes : Workspace.ComesOut session.context ((s.workspace session).lends c) c.Tells
      (.error e w')) : s.Settled n session c (.error e) (s.turned n w') w'.session where
  toApart := ha
  failed _ _ hlends := by
    have hidle := hcomes.1 hlends
    exact ⟨hidle, fun v => by simpa [Context.reads_of_idle hidle] using ha.after v⟩
  refused _ _ hnot := hcomes.2 hnot
  kept _ _ _ _ hget := kept_of_error hfailed hget
  done _ h := nomatch h

/-- Whatever run or batch a session is handed: once it has given its own read up, a failure
leaves it idle and without a pin, and if the work is refused, it stays in its transaction.
Either way nothing is registered. If the work is done, the session reads the version that it
tells and has one pin for that. What others read and who writes is the same as before. -/
theorem handed_work_settled (h : Reachable settings s b)
    (hs : s.sessions.get? n = some session) (hc : c.isRun) :
    ∃ result s' session', s.call n c = some (result, s') ∧
      s.Settled n session c result s' session' := by
  have hcomes := Workspace.call_comesOut hc (s.workspace session)
  have hturns := h.kept.turns_after hs c
  rw [Workspace.deed_of_isRun hc] at hturns
  have hnot : session.context.isWriting → ¬(s.workspace session).lends c := by
    intro hw hlends
    have hnot := ((Workspace.lends_iff _ hc).mp hlends).2
    exact Bool.false_ne_true (hnot.symm.trans hw)
  cases hcall : Workspace.call c (s.workspace session) with
  | ok out w' =>
      rw [hcall] at hcomes
      rw [Workspace.after_ok hcall] at hturns
      have ha := h.apart hs hturns fun hw => absurd hcomes.1 (hnot hw)
      refine ⟨.ok out, s.turned n w', w'.session, ?_, settled_of_ok ha hcomes⟩
      rw [call_eq hs, hcall]
  | error e w' =>
      rw [hcall] at hcomes
      rw [Workspace.after_error hcall] at hturns
      have ha := h.apart hs hturns fun hw => hcomes.2 (hnot hw)
      refine ⟨.error e, s.turned n w', w'.session, ?_, settled_of_error ha hcall hcomes⟩
      rw [call_eq hs, hcall]

/-- The second entry of a batch fails after the first one has found its rows: the reader that
worked has no pin any more, and the exporter keeps its own. A count that goes well leaves the
reader with a pin. -/
theorem batch_failed_midway : ∃ s b, ∃ session : Session, Reachable {} s b ∧
    s.sessions.get? 2 = some session ∧ session.context.reads 2 = true ∧
    (∃ e s', ∃ session' : Session, s.call 2 (.runBatch
        [(0x600000100000000, .findAll 0 (-1) (-1)), (0x600000100000001, .distinct 5)]) =
        some (.error e, s') ∧
      session'.context.state = .idle ∧ s'.database.store.pinCount 2 = 1 ∧
      ∀ raw env, s'.database.envelopes.get raw = .ok env →
        s.database.envelopes.get raw = .ok env) ∧
    ∃ out s', ∃ session' : Session,
      s.call 2 (.run 0x600000100000000 (.count 0 (-1) (-1))) = some (.ok out, s') ∧
      ∃ v g, session'.context.state = .reading v g ∧
        s'.database.store.pinCount v = s.othersReading 2 v + 1 := by
  have h := unused_reachable [.openSession 1, .openSession 2, .call 1 (.transact .beginWrite),
    .call 1 (.addTable "t"), .call 1 (.transact .commitAndRead),
    .call 1 (.whereTable 0x100000100000000),
    .call 1 (.exportObject .query 0x300000100000000 .copy),
    .call 1 (.exportObject .query 0x300000100000000 .copy), .call 2 (.transact (.beginRead none))]
  refine ⟨_, _, _, h, rfl, rfl, ?_, ?_⟩
  · obtain ⟨result, s', session', hcall, hsettled⟩ := handed_work_settled (n := 2)
      (c := .runBatch [(0x600000100000000, .findAll 0 (-1) (-1)), (0x600000100000001, .distinct 5)])
      h rfl rfl
    cases result with
    | ok out =>
        have hok : _ = some true := congrArg (Option.map (·.1.isOk)) hcall
        exact absurd hok (by decide +kernel)
    | error e =>
        obtain ⟨hidle, hpins⟩ := hsettled.failed e rfl (by decide +kernel)
        exact ⟨e, s', session', hcall, hidle, hpins 2, hsettled.kept e rfl⟩
  · obtain ⟨result, s', session', hcall, hsettled⟩ := handed_work_settled (n := 2)
      (c := .run 0x600000100000000 (.count 0 (-1) (-1))) h rfl rfl
    cases result with
    | error e =>
        have hfail : _ = some false := congrArg (Option.map (·.1.isOk)) hcall
        exact absurd hfail (by decide +kernel)
    | ok out =>
        obtain ⟨-, v, g, hstate, -, hpins⟩ := hsettled.done out rfl
        exact ⟨out, s', session', hcall, v, g, hstate, by simpa using hpins v⟩

end Service
end SnapshotStore
