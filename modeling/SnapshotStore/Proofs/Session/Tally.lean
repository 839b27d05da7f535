import SnapshotStore.Proofs.Connection.Tally
import SnapshotStore.Proofs.Session.Perform
import SnapshotStore.Session.Plan

/-!
Calls and the tally of calls. What a call comes to is decided by the session, and its operation does
not heed the tally.
-/

namespace SnapshotStore.Workspace
variable {α β : Type}

abbrev Unheeding (a : Work α) : Prop := SnapshotStore.Unheeding counted a

theorem act_unheeding {a : Action α} (ha : Connection.Unheeding a) : Unheeding (act a) := by
  intro w
  have hw : a w.counted.connection = withState Connection.tallied (a w.connection) :=
    ha w.connection
  simp only [act, hw]
  cases a w.connection <;> rfl

theorem pass_unheeding (result : Except Error α) : Unheeding (pass result) := by
  intro w
  cases result <;> rfl

/-- Taking something out does not heed the tally if what is found does not and if what is left has
it unchanged. -/
theorem attempt_unheeding {find : Workspace → Except Error β}
    {leave : Workspace → β → α × Workspace}
    (hfind : ∀ w, find w.counted = find w)
    (hleave : ∀ w x, leave w.counted x = ((leave w x).1, (leave w x).2.counted)) :
    Unheeding (attempt fun w => (find w).map (leave w)) := by
  intro w
  simp only [attempt, hfind]
  cases find w with
  | error e => rfl
  | ok x => simp only [Except.map, hleave]; rfl

theorem release_unheeding (kind : HandleKind) (h : UInt64) : Unheeding (release kind h) := by
  cases kind with
  | table | row | query | view | linkList | envelope =>
      exact attempt_unheeding (fun _ => rfl) fun _ _ => rfl

theorem setQuery_unheeding (h : UInt64) (q : Query) : Unheeding (setQuery h q) :=
  attempt_unheeding (fun _ => rfl) fun _ _ => rfl

theorem setView_unheeding (h : UInt64) (v : View) : Unheeding (setView h v) :=
  attempt_unheeding (fun _ => rfl) fun _ _ => rfl

theorem takeEnvelope_unheeding (kind : PayloadKind) (h : UInt64) :
    Unheeding (takeEnvelope kind h) := by
  intro w
  have hcheck : ∀ e,
      w.counted.connection.checkEnvelope kind e = w.connection.checkEnvelope kind e := fun _ => rfl
  have hget : w.counted.database.envelopes = w.database.envelopes := rfl
  simp only [takeEnvelope, attempt, Database.take, hcheck, hget, bind, Except.bind]
  cases w.database.envelopes.get h with
  | error e => rfl
  | ok envelope =>
      dsimp only
      cases w.connection.checkEnvelope kind envelope with
      | error e => rfl
      | ok u =>
          cases w.database.envelopes.remove h <;> rfl

theorem checkDistinct_counted (w : Workspace) (seen raws : List UInt64) :
    w.counted.database.checkDistinct seen raws = w.database.checkDistinct seen raws := by
  have hcheck : ∀ raw, w.counted.database.envelopes.check raw = w.database.envelopes.check raw :=
    fun _ => rfl
  induction raws generalizing seen with
  | nil => rfl
  | cons raw rest ih => simp only [Database.checkDistinct, hcheck, ih]

theorem takeEnvelopes_unheeding (hs : List UInt64) : Unheeding (takeEnvelopes hs) := by
  intro w
  have hget : w.counted.database.envelopes = w.database.envelopes := rfl
  simp only [takeEnvelopes, attempt, Database.takeAll, checkDistinct_counted, hget, bind,
    Except.bind]
  cases w.database.checkDistinct [] hs with
  | error e => rfl
  | ok u =>
      dsimp only
      cases Database.removeAll w.database.envelopes hs <;> rfl

theorem keep_unheeding (item : Item) : Unheeding (keep item) := fun _ => rfl

theorem register_unheeding (e : Envelope) : Unheeding (register e) := fun _ => rfl

theorem handOver_unheeding (r : Response) : Unheeding (handOver r) := by
  cases r with
  | row e? =>
      cases e? with
      | none => exact .pure _
      | some e => exact (register_unheeding e).map _
  | view e => exact (register_unheeding e).map _
  | count n | value v => exact .pure _

theorem forward_unheeding : Unheeding forward := fun _ => rfl

theorem perform_unheeding (operation : Operation) : Unheeding operation.perform := by
  have hforward := forward_unheeding
  cases operation with
  | answer reply => exact .pure _
  | release kind h => exact (release_unheeding kind h).map _
  | transact t =>
      exact hforward.bind fun _ => (act_unheeding (Connection.perform_unheeding t)).map _
  | read result => exact hforward.bind fun _ => (pass_unheeding result).map _
  | edit e =>
      refine hforward.bind fun _ =>
        (act_unheeding (Connection.edit_unheeding e)).bind fun made => ?_
      cases made <;> exact .pure _
  | createTable name =>
      refine hforward.bind fun _ =>
        (act_unheeding (Connection.edit_unheeding _)).bind fun made => ?_
      cases made with
      | none => exact .pure _
      | some key => exact (keep_unheeding _).map _
  | keep found =>
      exact hforward.bind fun _ => (pass_unheeding found).bind fun item =>
        (keep_unheeding item).map _
  | replaceQuery h q => exact hforward.bind fun _ => (setQuery_unheeding h q).map _
  | replaceView h outcome v =>
      exact hforward.bind fun _ => (setView_unheeding h v).bind fun _ =>
        (pass_unheeding outcome).map _
  | enclose kind h p policy =>
      refine hforward.bind fun _ =>
        (act_unheeding (Connection.ask_unheeding fun _ => rfl)).bind fun e => ?_
      split
      · exact (release_unheeding _ h).bind fun _ => (register_unheeding e).map _
      · exact (register_unheeding e).map _
  | takeOver kind h =>
      exact (takeEnvelope_unheeding kind h).bind fun e => hforward.bind fun _ =>
        (act_unheeding (Connection.importAs_unheeding kind e)).bind fun p =>
          (keep_unheeding _).map _
  | run h request =>
      rw [Operation.perform_run]
      exact (takeEnvelope_unheeding .query h).bind fun e => hforward.bind fun _ =>
        (act_unheeding (Connection.runQuery_unheeding e request)).bind fun r =>
          (handOver_unheeding r.2).map _
  | runBatch requests =>
      exact (takeEnvelopes_unheeding _).bind fun es => hforward.bind fun _ =>
        (act_unheeding (Connection.runBatch_unheeding _)).bind fun r =>
          (SnapshotStore.Unheeding.mapM handOver_unheeding r.2).map _

theorem call_unheeding (c : Call) : Unheeding (call c) := by
  intro w
  have hplan : w.counted.session.plan c = w.session.plan c := rfl
  simp only [call, hplan]
  cases w.session.plan c with
  | ok operation => exact perform_unheeding operation w
  | error e => rfl

end SnapshotStore.Workspace
