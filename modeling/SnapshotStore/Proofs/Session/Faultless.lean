import SnapshotStore.Proofs.Connection.Faultless
import SnapshotStore.Proofs.Session.Bounds
import SnapshotStore.Proofs.Session.Lending

/-!
Calls that fail. Whatever goes wrong with an operation to be sure of, the library is not to
blame for it.
-/

namespace SnapshotStore

/-! Objects and envelopes -/

theorem Arena.remove_complains {α : Type} (a : Arena α) (raw : UInt64) :
    Complains (a.remove raw) := fun e he => a.locate_complains raw e (remove_eq_error.mp he)

theorem Arena.modify_complains {α : Type} (a : Arena α) (raw : UInt64) (f : α → α) :
    Complains (a.modify raw f) := fun e he => a.locate_complains raw e (modify_eq_error.mp he)

namespace Database

theorem take_complains (d : Database) (raw : UInt64) {check : Envelope → Except Error Unit}
    (h : ∀ e, Complains (check e)) : Complains (d.take raw check) :=
  (d.envelopes.get_complains raw).bind fun e _ => (h e).bind fun _ _ =>
    (d.envelopes.remove_complains raw).bind fun _ _ => .ok _

theorem checkDistinct_complains (d : Database) (seen raws : List UInt64) :
    Complains (d.checkDistinct seen raws) := by
  induction raws generalizing seen with
  | nil => exact .ok ()
  | cons raw rest ih =>
      unfold checkDistinct
      split
      next e he => exact .error (((d.envelopes.locate_complains raw).map _) e he)
      · exact .ite (.error rfl) (ih _)

theorem removeAll_complains (a : Arena Envelope) (raws : List UInt64) :
    Complains (removeAll a raws) := by
  induction raws generalizing a with
  | nil => exact .ok _
  | cons raw rest ih =>
      exact (a.remove_complains raw).bind fun taken _ => (ih taken.2).bind fun _ _ => .ok _

theorem takeAll_complains (d : Database) (raws : List UInt64) : Complains (d.takeAll raws) :=
  (d.checkDistinct_complains [] raws).bind fun _ _ =>
    (removeAll_complains d.envelopes raws).bind fun _ _ => .ok _

end Database

namespace Workspace
variable {α : Type} {P : Error → Prop} {w : Workspace}

theorem attempt_complains {f : Workspace → Except Error (α × Workspace)} (h : Complains (f w)) :
    ErrsBy (·.isComplaint = true) (attempt f w) := by
  unfold attempt
  split
  · exact .ok _ _
  next e he => exact .error (h e he) w

theorem act_errsBy {a : Action α} (h : ErrsBy P (a w.connection)) : ErrsBy P (act a w) := by
  unfold act
  split
  · exact .ok _ _
  next e c he => exact .error (h e c he) _

theorem pass_errsBy {result : Except Error α} (h : FailsBy P result) (w : Workspace) :
    ErrsBy P (pass result w) := by
  unfold pass
  split
  · exact .ok _ w
  next e => exact .error (h e rfl) w

theorem release_complains (kind : HandleKind) (h : UInt64) (w : Workspace) :
    ErrsBy (·.isComplaint = true) (release kind h w) := by
  refine attempt_complains ?_
  cases kind <;> exact (Arena.remove_complains _ h).map _

theorem takeEnvelope_complains (kind : PayloadKind) (h : UInt64) (w : Workspace) :
    ErrsBy (·.isComplaint = true) (takeEnvelope kind h w) :=
  attempt_complains <|
    (w.database.take_complains h (w.connection.checkEnvelope_complains kind)).map _

theorem takeEnvelopes_complains (hs : List UInt64) (w : Workspace) :
    ErrsBy (·.isComplaint = true) (takeEnvelopes hs w) :=
  attempt_complains ((w.database.takeAll_complains hs).map _)

theorem handOver_complains (r : Response) (w : Workspace) :
    ErrsBy (·.isComplaint = true) (handOver r w) := by
  cases r with
  | row e? => cases e? <;> exact .ok _ _
  | view e | count n | value v => exact .ok _ _

/-- What the context does in the operation fails in one of these ways. -/
def WorkErrsBy (P : Error → Prop) (w : Workspace) : Operation → Prop
  | .transact t => ErrsBy P (t.perform w.counted.connection)
  | .takeOver kind h => ∀ e, w.database.envelopes.get h = .ok e →
    ErrsBy P (Connection.importAs kind e w.counted.connection)
  | .run h request => ∀ e, w.database.envelopes.get h = .ok e →
    ErrsBy P (Connection.runQuery e request w.counted.connection)
  | .runBatch requests => ∀ es,
    List.Forall₂ (fun request e => w.database.envelopes.get request.1 = .ok e) requests es →
      ErrsBy P (Connection.runBatch (batchItems es requests) w.counted.connection)
  | _ => True

theorem WorkErrsBy.mono {Q : Error → Prop} {operation : Operation}
    (h : w.WorkErrsBy P operation) (hq : ∀ e, P e → Q e) : w.WorkErrsBy Q operation := by
  cases operation with
  | transact t => exact ErrsBy.mono h hq
  | takeOver | run => exact fun e he => (h e he).mono hq
  | runBatch requests => exact fun es hes => (h es hes).mono hq
  | _ => trivial

end Workspace

open Workspace in
/-- An operation to be sure of fails with a complaint, or in the way its context does. -/
theorem Operation.perform_errsBy {P : Error → Prop} {w : Workspace} {operation : Operation}
    (complaints : ∀ e, e.isComplaint = true → P e) (hsure : operation.Sure P w.session)
    (hg : ∀ g, w.session.context.group = .ok g → g.WellFormed)
    (hwork : w.WorkErrsBy P operation) : ErrsBy P (operation.perform w) := by
  cases operation with
  | answer reply => exact .ok _ w
  | release kind h =>
      exact ((release_complains kind h w).mono complaints).bind fun _ _ _ => .ok _ _
  | transact t =>
      rw [perform, forward_bind]
      exact (act_errsBy hwork).bind fun _ _ _ => .ok _ _
  | read result | keep found =>
      rw [perform, forward_bind]
      exact ((pass_errsBy hsure _).mono complaints).bind fun _ _ _ => .ok _ _
  | edit e | createTable name =>
      rw [perform, forward_bind]
      refine (act_errsBy ((Connection.edit_complains hg _).mono complaints)).bind fun made _ _ => ?_
      cases made <;> exact .ok _ _
  | replaceQuery h q =>
      rw [perform, forward_bind]
      exact ((attempt_complains ((w.session.queries.modify_complains h _).map _)).mono
        complaints).bind fun _ _ _ => .ok _ _
  | replaceView h outcome v =>
      rw [perform, forward_bind]
      exact ((attempt_complains ((w.session.views.modify_complains h _).map _)).mono
        complaints).bind fun _ w' _ => (pass_errsBy hsure w').bind fun _ _ _ => .ok _ _
  | enclose kind h p policy =>
      rw [perform, forward_bind]
      have hask : ErrsBy (·.isComplaint = true)
          (Connection.ask (·.enclose p policy) w.counted.connection) :=
        Connection.ask_errsBy (Connection.enclose_complains _ p policy)
      refine (act_errsBy (hask.mono complaints)).bind fun e w' _ => ?_
      split
      · exact ((release_complains _ h w').mono complaints).bind fun _ _ _ => .ok _ _
      · exact .ok _ _
  | takeOver kind h =>
      refine ((takeEnvelope_complains kind h w).mono complaints).bind fun e w₁ ht => ?_
      obtain ⟨a, ha, rfl⟩ := takeEnvelope_removes ht
      rw [forward_bind]
      exact .bind (act_errsBy (hwork e (Arena.remove_get ha))) fun _ _ _ => .ok _ _
  | run h request =>
      rw [perform_run]
      refine ((takeEnvelope_complains .query h w).mono complaints).bind fun e w₁ ht => ?_
      obtain ⟨a, ha, rfl⟩ := takeEnvelope_removes ht
      rw [forward_bind]
      exact .bind (act_errsBy (hwork e (Arena.remove_get ha))) fun found w' _ =>
        ((handOver_complains found.2 w').mono complaints).bind fun _ _ _ => .ok _ _
  | runBatch requests =>
      refine ((takeEnvelopes_complains _ w).mono complaints).bind fun es w₁ ht => ?_
      obtain ⟨a, -, hgets, rfl⟩ := takeEnvelopes_removes ht
      rw [forward_bind]
      exact .bind (act_errsBy (hwork es (List.forall₂_map_left_iff.mp hgets))) fun found w' _ =>
        ((ErrsBy.mapM handOver_complains found.2).mono complaints).bind fun _ _ _ => .ok _ _

/-- A call fails with a complaint, in the way the context fails in its operation, or by a sort that
panics. -/
theorem Workspace.call_errsBy {P : Error → Prop} {w : Workspace} {c : Call}
    (complaints : ∀ e, e.isComplaint = true → P e)
    (panics : ∀ reason, w.session.Panics c reason → P (.panicked reason))
    (hg : ∀ g, w.session.context.group = .ok g → g.WellFormed ∧ g.Numbered)
    (hwork : ∀ operation, w.session.plan c = .ok operation → w.WorkErrsBy P operation) :
    ErrsBy P (Workspace.call c w) := by
  obtain ⟨hcomplains, hsure⟩ := Session.plan_orderly hg complaints panics
  unfold Workspace.call
  split
  next operation hplan =>
    exact Operation.perform_errsBy complaints (hsure operation hplan)
      (fun g hgroup => (hg g hgroup).1) (hwork operation hplan)
  next e hplan => exact .error (complaints e (hcomplains e hplan)) w

namespace Workspace

/-- A run comes back with a result of the form that its request asks for. -/
theorem call_run_shape {w w' : Workspace} {h : UInt64} {request : Request} {out : Outcome}
    (hc : Workspace.call (.run h request) w = .ok out w') :
    ∃ x, out.reply = .result x ∧ x.shape = request.shape := by
  have hp : (Operation.run h request).perform w = .ok out w' := hc
  simp only [Operation.perform_run, bind_run_ok, pure_run_ok, forward_run_ok, act_run_ok] at hp
  obtain ⟨e, w₁, -, -, _, rfl, ⟨v, response⟩, _, ⟨c, hrun, rfl⟩, x, w₂, hx, rfl, rfl⟩ := hp
  exact ⟨x, rfl, (handOver_shape hx).trans (Connection.runQuery_shape hrun)⟩

end Workspace

/-- Nothing that a context does in an operation fails for a fault of the library. -/
theorem Workspace.work_blameless {w : Workspace} (hpublish : w.connection.Publishable)
    (operation : Operation) : w.WorkErrsBy (·.isFault = false) operation := by
  have hcounted : w.counted.connection.Publishable := hpublish
  cases operation with
  | transact t => exact Connection.perform_blameless hcounted t
  | takeOver kind h => exact fun e _ => Connection.importAs_blameless kind e _
  | run h request => exact fun e _ => Connection.runQuery_blameless e request _
  | runBatch requests => exact fun es _ => Connection.runBatch_blameless _ _
  | _ => trivial

/-- No call fails for a fault of the library, but for sorts that panic. -/
theorem Workspace.call_faults {w : Workspace}
    (hg : ∀ g, w.session.context.group = .ok g → g.WellFormed ∧ g.Numbered)
    (hpublish : w.connection.Publishable) (c : Call) : ErrsBy (fun e => e.isFault = false ∨
      ∃ reason, e = .panicked reason ∧ w.session.Panics c reason) (Workspace.call c w) := by
  refine call_errsBy (fun _ he => .inl (Error.isFault_of_isComplaint he))
    (fun reason hpanics => .inr ⟨reason, rfl, hpanics⟩) hg fun operation _ => ?_
  exact (work_blameless hpublish operation).mono fun _ => .inl

end SnapshotStore
