import SnapshotStore.Proofs.Connection.Outlasting
import SnapshotStore.Proofs.Session.Shape
import SnapshotStore.Session.Plan

/-!
Calls on two databases of which one keeps more of the past. What a call comes to is decided
by the session alone, and every operation repeats itself as its actions do.
-/

namespace SnapshotStore
namespace Workspace

/-- The same session on two databases with the same envelopes, of which the second keeps all
that the first does. -/
inductive OutlastedBy : Workspace → Workspace → Prop
  | mk {s t : Store} (store : s.OutlastedBy t) (envelopes : Arena Envelope) (session : Session) :
      OutlastedBy ⟨⟨s, envelopes⟩, session⟩ ⟨⟨t, envelopes⟩, session⟩

/-- What the work comes to depends on the past only as far as it may miss a version. -/
abbrev Forgetful {α : Type} (a : Work α) : Prop := Repeats OutlastedBy a

variable {α β : Type}

theorem forward_forgetful : Forgetful forward := by
  rintro _ _ ⟨h, es, session⟩
  exact .ok () ⟨h.recordCall, es, session⟩

theorem act_forgetful {a : Action α} (ha : Connection.Forgetful a) : Forgetful (act a) := by
  rintro ⟨⟨s, es⟩, session⟩ ⟨⟨t, _⟩, _⟩ ⟨h, _, _⟩
  simp only [act, connection]
  rcases (ha _ _ ⟨h, session.context⟩).elim with
    ⟨x, _, _, hs, ht, ⟨h', c⟩⟩ | ⟨e, _, _, hs, ht, ⟨h', c⟩⟩ | ⟨e, c, hs, bad⟩
  · rw [hs, ht]
    exact .ok x ⟨h', es, _⟩
  · rw [hs, ht]
    exact .error e ⟨h', es, _⟩
  · rw [hs]
    exact .missing bad _ _

theorem pass_forgetful (result : Except Error α) : Forgetful (pass result) := by
  intro w w' h
  cases result with
  | ok x => exact .ok x h
  | error e => exact .error e h

/-- Taking something out repeats itself if what is found does and if what is left does. -/
theorem attempt_forgetful {find : Workspace → Except Error β}
    {leave : Workspace → β → α × Workspace}
    (hfind : ∀ w w', w.OutlastedBy w' → find w' = find w)
    (hleave : ∀ w w' x, w.OutlastedBy w' →
      (leave w' x).1 = (leave w x).1 ∧ (leave w x).2.OutlastedBy (leave w' x).2) :
    Forgetful (attempt fun w => (find w).map (leave w)) := by
  intro w w' h
  simp only [attempt, hfind w w' h]
  cases find w with
  | error e => exact .error e h
  | ok x =>
      obtain ⟨hx, h'⟩ := hleave w w' x h
      simp only [Except.map, hx]
      exact .ok _ h'

theorem release_forgetful (kind : HandleKind) (h : UInt64) : Forgetful (release kind h) := by
  cases kind with
  | table | row | query | view | linkList | envelope =>
      apply attempt_forgetful
      · rintro _ _ ⟨_, _, _⟩
        rfl
      · rintro _ _ x ⟨hst, es, session⟩
        exact ⟨rfl, hst, _, _⟩

theorem setQuery_forgetful (h : UInt64) (q : Query) : Forgetful (setQuery h q) := by
  apply attempt_forgetful
  · rintro _ _ ⟨_, _, _⟩
    rfl
  · rintro _ _ x ⟨hst, es, session⟩
    exact ⟨rfl, hst, _, _⟩

theorem setView_forgetful (h : UInt64) (v : View) : Forgetful (setView h v) := by
  apply attempt_forgetful
  · rintro _ _ ⟨_, _, _⟩
    rfl
  · rintro _ _ x ⟨hst, es, session⟩
    exact ⟨rfl, hst, _, _⟩

theorem takeEnvelope_forgetful (kind : PayloadKind) (h : UInt64) :
    Forgetful (takeEnvelope kind h) := by
  rintro ⟨⟨s, es⟩, session⟩ ⟨⟨t, _⟩, _⟩ ⟨hst, _, _⟩
  have hw : OutlastedBy ⟨⟨s, es⟩, session⟩ ⟨⟨t, es⟩, session⟩ := ⟨hst, es, session⟩
  simp only [takeEnvelope, attempt, Database.take, connection,
    ← Connection.checkEnvelope_outlasted hst, bind, Except.bind]
  cases es.get h with
  | error e => exact .error e hw
  | ok envelope =>
      dsimp only
      cases Connection.checkEnvelope ⟨s, session.context⟩ kind envelope with
      | error e => exact .error e hw
      | ok u =>
          cases es.remove h with
          | error e => exact .error e hw
          | ok r => exact .ok r.1 ⟨hst, r.2, session⟩

theorem checkDistinct_outlasted (s t : Store) (es : Arena Envelope) (raws seen : List UInt64) :
    Database.checkDistinct ⟨t, es⟩ seen raws = Database.checkDistinct ⟨s, es⟩ seen raws := by
  induction raws generalizing seen with
  | nil => rfl
  | cons raw rest ih => simp only [Database.checkDistinct, ih]

theorem takeEnvelopes_forgetful (hs : List UInt64) : Forgetful (takeEnvelopes hs) := by
  rintro ⟨⟨s, es⟩, session⟩ ⟨⟨t, _⟩, _⟩ ⟨hst, _, _⟩
  have hw : OutlastedBy ⟨⟨s, es⟩, session⟩ ⟨⟨t, es⟩, session⟩ := ⟨hst, es, session⟩
  simp only [takeEnvelopes, attempt, Database.takeAll, checkDistinct_outlasted s t, bind,
    Except.bind]
  cases Database.checkDistinct ⟨s, es⟩ [] hs with
  | error e => exact .error e hw
  | ok u =>
      dsimp only
      cases Database.removeAll es hs with
      | error e => exact .error e hw
      | ok r => exact .ok r.1 ⟨hst, r.2, session⟩

theorem keep_forgetful (item : Item) : Forgetful (keep item) := by
  rintro _ _ ⟨hst, es, session⟩
  exact .ok _ ⟨hst, es, _⟩

theorem register_forgetful (e : Envelope) : Forgetful (register e) := by
  rintro _ _ ⟨hst, es, session⟩
  exact .ok _ ⟨hst, _, session⟩

theorem handOver_forgetful (r : Response) : Forgetful (handOver r) := by
  cases r with
  | row e? =>
      cases e? with
      | none => exact .pure _
      | some e => exact (register_forgetful e).map _
  | view e => exact (register_forgetful e).map _
  | count n | value v => exact .pure _

theorem perform_forgetful (operation : Operation) : Forgetful operation.perform := by
  have hforward := forward_forgetful
  cases operation with
  | answer reply => exact .pure _
  | release kind h => exact (release_forgetful kind h).map _
  | transact t =>
      exact hforward.bind fun _ => (act_forgetful (Connection.perform_forgetful t)).map _
  | read result => exact hforward.bind fun _ => (pass_forgetful result).map _
  | edit e =>
      refine hforward.bind fun _ =>
        (act_forgetful (Connection.edit_forgetful e)).bind fun made => ?_
      cases made <;> exact .pure _
  | createTable name =>
      refine hforward.bind fun _ =>
        (act_forgetful (Connection.edit_forgetful _)).bind fun made => ?_
      cases made with
      | none => exact .pure _
      | some key => exact (keep_forgetful _).map _
  | keep found =>
      exact hforward.bind fun _ => (pass_forgetful found).bind fun item =>
        (keep_forgetful item).map _
  | replaceQuery h q => exact hforward.bind fun _ => (setQuery_forgetful h q).map _
  | replaceView h outcome v =>
      exact hforward.bind fun _ => (setView_forgetful h v).bind fun _ =>
        (pass_forgetful outcome).map _
  | enclose kind h p policy =>
      refine hforward.bind fun _ => (act_forgetful ?_).bind fun e => ?_
      · exact Connection.ask_forgetful fun _ _ c hst => Connection.enclose_outlasted hst c p policy
      · split
        · exact (release_forgetful _ h).bind fun _ => (register_forgetful e).map _
        · exact (register_forgetful e).map _
  | takeOver kind h =>
      exact (takeEnvelope_forgetful kind h).bind fun e => hforward.bind fun _ =>
        (act_forgetful (Connection.importAs_forgetful kind e)).bind fun p =>
          (keep_forgetful _).map _
  | run h request =>
      rw [Operation.perform_run]
      exact (takeEnvelope_forgetful .query h).bind fun e => hforward.bind fun _ =>
        (act_forgetful (Connection.runQuery_forgetful e request)).bind fun r =>
          (handOver_forgetful r.2).map _
  | runBatch requests =>
      exact (takeEnvelopes_forgetful _).bind fun es => hforward.bind fun _ =>
        (act_forgetful (Connection.runBatch_forgetful _)).bind fun r =>
          (Repeats.mapM handOver_forgetful r.2).map _

theorem call_forgetful (c : Call) : Forgetful (call c) := by
  rintro _ _ ⟨hst, es, session⟩
  simp only [call]
  cases session.plan c with
  | ok operation => exact perform_forgetful operation _ _ ⟨hst, es, session⟩
  | error e => exact .error e ⟨hst, es, session⟩

end Workspace
end SnapshotStore
