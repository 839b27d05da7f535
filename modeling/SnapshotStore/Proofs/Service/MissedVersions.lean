import SnapshotStore.Proofs.Connection.MissedVersions
import SnapshotStore.Proofs.Service.Bounds
import SnapshotStore.Proofs.Service.Envelopes
import SnapshotStore.Proofs.Service.Release

/-!
Missed versions. A call that fails for a version tells which. That is the version it asked for, by
name or by an envelope, but for one case: a read that is to be moved past the latest version blames
the version that it is at.
-/

namespace SnapshotStore

/-- The call asks for the version: it names the version, or an envelope that was exported at it.
A batch asks for what is at issue between its envelopes. -/
inductive Database.Asks (d : Database) : Call → Version → Prop
  | beginRead (v : Version) : Asks d (.transact (.beginRead (some v))) v
  | advance (v : Version) : Asks d (.transact (.advance (some v))) v
  | importObject {raw : UInt64} {e : Envelope} (kind : PayloadKind)
      (registered : d.envelopes.get raw = .ok e) : Asks d (.importObject kind raw) e.version
  | run {raw : UInt64} {e : Envelope} (request : Request)
      (registered : d.envelopes.get raw = .ok e) : Asks d (.run raw request) e.version
  | runBatch {requests : List (UInt64 × Request)} {es : List Envelope} {u : Version}
      (registered : List.Forall₂ (fun request e => d.envelopes.get request.1 = .ok e) requests es)
      (issue : Version.AtIssue (es.map (·.version)) u) : Asks d (.runBatch requests) u

namespace Workspace
variable {w w' : Workspace} {P : Error → Prop} {kind : HandleKind} {o : Held}
  {source? : Option (HandleKind × Nat)}

theorem workErrsBy_of_form {operation : Operation} {form : Operation.Form}
    (h : operation.form = form) (hform : match form with
      | .transact | .takeOver | .run | .runBatch => False
      | _ => True) : w.WorkErrsBy P operation := by
  subst h
  cases operation <;> trivial

theorem Admits.boundAt (h : w.Admits w' source? kind o) :
    w'.session.context.BoundAt kind o.bound := by
  cases source? with
  | none => exact h.bound
  | some source =>
      obtain ⟨-, -, -, -, hbound⟩ := h
      exact hbound

end Workspace

namespace Service
variable {settings : Settings} {s : Service} {b : Notebook} {n : Nat} {session : Session}
  {u v : Version} {g : Group}

/-! Versions on envelopes -/

/-- Every envelope was exported at a version of the store. -/
def Dated (s : Service) (b : Notebook) : Prop :=
  ∀ slot o, s.database.envelopes.shelf.held slot = some o →
    ∃ g, Version.nth? b.chronicle.groups o.bound = some g

/-- What was registered has its version still, and what is exported has that of the reader. -/
theorem Dated.make (h : s.Dated b) (hk : Kept settings s b) (m : Move) :
    (s.make m).Dated (s.observe b m) := by
  cases m with
  | openSession n =>
      intro slot o ho
      exact h slot o (s.openSession_envelopes n ▸ ho)
  | closeSession n =>
      intro slot o ho
      exact h slot o (s.closeSession_envelopes n ▸ ho)
  | call n c =>
      cases hs : s.sessions.get? n with
      | none =>
          rw [make_call_none hs]
          simpa only [observe, hs] using h
      | some session =>
          obtain ⟨w', hturns, hmake, hobserve⟩ := hk.call_turns hs c
          rw [hmake, hobserve]
          intro slot o ho
          have hentered := (hturns.shelves .envelope).entered ho
          split at hentered
          · obtain ⟨g, hg⟩ := h slot o hentered
            exact ⟨g, Chronicle.note_group n _ hg⟩
          · obtain ⟨g, hstate⟩ := hentered.boundAt
            exact ⟨g, (hk.turned hs hturns).sound.committed
              (world_context? (NatMap.get?_insert_self ..)) hstate⟩

theorem Reachable.dated (h : Reachable settings s b) : s.Dated b := by
  refine h.induct (I := Dated) (fun id s₀ ho slot o hheld => ?_) fun _ _ m hk hs => hs.make hk m
  obtain ⟨database, hd, rfl⟩ := map_eq_ok.mp ho
  obtain ⟨store, -, rfl⟩ := map_eq_ok.mp hd
  simp [Arena.shelf, Arena.live?, Arena.empty] at hheld

theorem Reachable.envelope_version_le (h : Reachable settings s b) {raw : UInt64} {e : Envelope}
    (hget : s.database.envelopes.get raw = .ok e) : e.version ≤ s.database.store.latest := by
  obtain ⟨k, -, hlive⟩ := Arena.get_eq_ok.mp hget
  obtain ⟨g, hg⟩ := h.dated k.slot ⟨k.generation, e.version, e.payload.subject⟩
    (Option.map_eq_some_iff.mpr ⟨_, hlive, rfl⟩)
  exact h.kept.sound.store.latest ▸ (Version.nth?_bounds hg).2

/-! Calls -/

/-- The store has what a session reads or started to write from. -/
theorem Reachable.supplied (h : Reachable settings s b) (hs : s.sessions.get? n = some session) :
    (s.workspace session).counted.connection.Supplied where
  exact := h.kept.sound.store.count.exact.imp fun _ hl => hl.1
  reads v g (hstate : session.context.state = .reading v g) := by
    obtain ⟨l, hexact, hgroups⟩ := h.kept.sound.store.exact
    have hg := h.kept.sound.committed (world_context? hs) hstate
    have hpinned : v ∈ l.pins := by
      rw [← List.count_pos_iff, ← hexact.pinCount]
      refine h.balanced.backed hs v ?_
      exact (Context.reads_of_reading hstate v).trans (decide_eq_true rfl)
    exact (hexact.snapshots v g).mpr ⟨hgroups ▸ hg, .inr hpinned⟩
  writes := h.kept.sound.publishable (world_context? hs)

/-- Unless it is a read that overshoots, a call that blames a version blames one it asks for. -/
theorem Reachable.call_blames (h : Reachable settings s b)
    (hs : s.sessions.get? n = some session) (c : Call) :
    ErrsBy (Error.Blames fun u => s.database.Asks c u ∨ ∃ to?, c = .transact (.advance to?) ∧
      (s.workspace session).connection.Overshoots to? u)
        (Workspace.call c (s.workspace session)) := by
  have hch := h.kept.sound.chronicle
  obtain ⟨l, hclose, hgroups⟩ := (h.kept.sound.store.count.close (c := session.context)).exact
  have hsupplied := h.supplied hs
  refine Workspace.call_errsBy (fun _ => Error.blames_of_isComplaint) (fun _ _ => trivial)
    (fun g hg => h.group_wellFormed hs hg) fun operation hplan => ?_
  cases c with
  | transact t =>
      obtain rfl := pure_eq_ok.mp hplan
      refine (Connection.perform_blames hsupplied t).mono fun e he => he.mono fun u hu => ?_
      rcases hu with hu | ⟨to?, rfl, hu⟩
      · cases t <;> cases hu
        · exact .inl (.beginRead u)
        · exact .inl (.advance u)
      · exact .inr ⟨to?, rfl, hu⟩
  | importObject kind raw =>
      obtain rfl := pure_eq_ok.mp hplan
      intro e hget
      have hle := h.envelope_version_le hget
      refine (Connection.importAs_blames hsupplied hle kind).mono fun _ he => he.mono fun u hu => ?_
      exact .inl (hu ▸ .importObject kind hget)
  | run raw request =>
      obtain rfl := pure_eq_ok.mp hplan
      intro e hget
      refine (Connection.runQuery_blames hch hclose hgroups e request).mono fun _ he =>
        he.mono fun u hu => ?_
      exact .inl (hu ▸ .run request hget)
  | runBatch requests =>
      obtain rfl := pure_eq_ok.mp hplan
      intro es hgets
      refine (Connection.runBatch_blames hch hclose hgroups _).mono fun _ he =>
        he.mono fun u hu => ?_
      have henvelopes := Workspace.batchItems_envelopes hgets.length_eq.symm
      have hversions : (Workspace.batchItems es requests).map (·.envelope.version) =
          es.map (·.version) :=
        List.map_map.symm.trans (congrArg (List.map (·.version)) henvelopes)
      exact .inl (.runBatch hgets (hversions ▸ hu))
  | _ => exact Workspace.workErrsBy_of_form (Session.plan_form _ _ hplan) trivial

/-- A call that fails for a version names one that it asks for, whether that is gone, is behind
the reader or does not exist yet. The one exception is a read that is to be moved past the latest
version: that always fails, and names the version that the reader is at. -/
theorem Reachable.version_named (h : Reachable settings s b)
    (hs : s.sessions.get? n = some session) :
    (∀ c u reason s', s.call n c = some (.error (.badVersion u reason), s') →
      s.database.Asks c u ∨ ∃ to?, c = .transact (.advance to?) ∧
        (s.workspace session).connection.Overshoots to? u) ∧
    ∀ to? u, (s.workspace session).connection.Overshoots to? u → to? ≠ some u ∧
      (s.call n (.transact (.advance to?))).map (·.1) =
        some (.error (.badVersion u "its change log has been compacted")) := by
  refine ⟨fun c u reason s' hc => ?_, fun to? u hto => ?_⟩
  · obtain ⟨w', hw, -⟩ := call_eq_error hs hc
    exact h.call_blames hs c _ w' hw
  · obtain ⟨v, g, rfl, hlt, hstate⟩ := hto
    obtain ⟨huv, hadvance⟩ := Connection.advance_overshooting (h.supplied hs) hstate hlt
    refine ⟨fun hv => Nat.ne_of_gt huv (Option.some.inj hv), ?_⟩
    have hperform : (Transition.advance (some v)).perform (s.workspace session).counted.connection =
        .error (.badVersion u "its change log has been compacted") _ := bind_of_error hadvance
    rw [call_eq hs, Workspace.call_transact_error hperform]
    rfl

/-- A reader at version 3 can neither import what was exported at version 2 nor be moved to version
5, and is told of versions 2 and 3. -/
theorem versions_behind_and_ahead : ∃ s b session, Reachable {} s b ∧
    s.sessions.get? 1 = some session ∧
    (∃ s', s.call 1 (.importObject .query 0x600000100000000) =
      some (.error (.badVersion 2 "ctx#1 is already reading at v3"), s')) ∧
    s.database.Asks (.importObject .query 0x600000100000000) 2 ∧
    (s.workspace session).connection.Overshoots (some 5) 3 ∧
    (s.call 1 (.transact (.advance (some 5)))).map (·.1) =
      some (.error (.badVersion 3 "its change log has been compacted")) := by
  have h := unused_reachable [.openSession 1, .call 1 (.transact .beginWrite),
    .call 1 (.addTable "t"), .call 1 (.transact .commitAndRead),
    .call 1 (.whereTable 0x100000100000000),
    .call 1 (.exportObject .query 0x300000100000000 .copy), .call 1 (.transact .promote),
    .call 1 (.transact .commitAndRead)]
  obtain ⟨hasked, hovershoots⟩ := h.version_named (n := 1) rfl
  have hahead := hovershoots (some 5) 3 ⟨5, _, rfl, by decide, rfl⟩
  refine ⟨_, _, _, h, rfl, ⟨_, rfl⟩, ?_, ⟨5, _, rfl, by decide, rfl⟩, hahead.2⟩
  rcases hasked (.importObject .query 0x600000100000000) 2 _ _ rfl with hasks | ⟨_, hcall, -⟩
  · exact hasks
  · cases hcall

/-- The exception. The latest version is 1, a reader at it is to be moved to version 5, and it is
version 1 that is called not available. A read that begins at version 5 is told of version 5. -/
theorem version_read_called_missing : ∃ s b session, Reachable {} s b ∧
    s.sessions.get? 1 = some session ∧ s.database.store.latest = 1 ∧
    (∃ g, session.context.state = .reading 1 g) ∧
    (s.call 1 (.transact (.advance (some 5)))).map (·.1) =
      some (.error (.badVersion 1 "its change log has been compacted")) ∧
    ((s.run b [.call 1 (.transact .endRead)]).1.call 1
      (.transact (.beginRead (some 5)))).map (·.1) =
        some (.error (.badVersion 5 "latest version is v1")) := by
  have h := unused_reachable [.openSession 1, .call 1 (.transact (.beginRead none))]
  exact ⟨_, _, _, h, rfl, rfl, ⟨_, rfl⟩, rfl, rfl⟩

end Service
end SnapshotStore
