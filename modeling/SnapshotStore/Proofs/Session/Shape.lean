import SnapshotStore.Proofs.Connection.Handover
import SnapshotStore.Session.Operation

/-!
Forms of answers. Whatever a query finds, and wherever it is put into envelopes and registered, it
comes back in the form that its request asks for, so that the check of the form at the end of a run
always passes.
-/

namespace SnapshotStore

def Request.Found.shape : Request.Found → Shape
  | row _ => .row
  | view _ => .view
  | count _ => .count
  | value _ => .value

def Response.shape : Response → Shape
  | row _ => .row
  | view _ => .view
  | count _ => .count
  | value _ => .value

theorem Request.evaluateOn_shape {r : Request} {q : Query} {t : Table} {f : Found}
    (h : r.evaluateOn q t = .ok f) : f.shape = r.shape := by
  cases r with
  | find | findAll | findAllSorted | distinct | count | aggregate =>
      simp only [evaluateOn, bind_eq_ok, pure_eq_ok] at h
      grind [Found.shape, shape]

namespace Connection
variable {c c' : Connection}

theorem handBack_shape {t : Table} {f : Request.Found} {x : Response}
    (h : c.handBack t f = .ok x) : x.shape = f.shape := by
  cases f with
  | row index? =>
      cases index? with
      | none => exact Except.ok.inj h ▸ rfl
      | some i =>
          obtain ⟨e, -, rfl⟩ := map_eq_ok.mp h
          rfl
  | view v =>
      obtain ⟨e, -, rfl⟩ := map_eq_ok.mp h
      rfl
  | count n | value v => exact Except.ok.inj h ▸ rfl

/-- A run answers in the form that its request asks for. -/
theorem runQuery_shape {e : Envelope} {r : Request} {v : Version} {x : Response}
    (h : runQuery e r c = .ok (v, x) c') : x.shape = r.shape := by
  obtain ⟨q, -, hq⟩ := runQuery_evaluates h
  simp only [evaluate, bind_eq_ok] at hq
  obtain ⟨g, -, t, -, f, hf, hx⟩ := hq
  exact (handBack_shape hx).trans (Request.evaluateOn_shape hf)

end Connection

namespace Workspace
variable {w w' : Workspace} {request : Request} {r : Response} {x : HandedResult}

theorem handOver_shape (h : handOver r w = .ok x w') : x.shape = r.shape := by
  cases r with
  | row e? =>
      cases e? with
      | none =>
          obtain ⟨rfl, -⟩ := pure_run_ok.mp h
          rfl
      | some e =>
          simp only [handOver, bind_run_ok, pure_run_ok] at h
          obtain ⟨raw, _, -, rfl, -⟩ := h
          rfl
  | view e =>
      simp only [handOver, bind_run_ok, pure_run_ok] at h
      obtain ⟨raw, _, -, rfl, -⟩ := h
      rfl
  | count n | value v =>
      obtain ⟨rfl, -⟩ := pure_run_ok.mp h
      rfl

theorem expect_of_shape (h : x.shape = request.shape) : expect request x w = .ok () w := by
  rw [expect, if_pos h]
  rfl

end Workspace

open Workspace in
/-- A run does not come to a result of another form than expected, so nothing depends on what the
check of the form does. -/
theorem Operation.perform_run (h : UInt64) (request : Request) :
    (Operation.run h request).perform =
      (do
        let e ← takeEnvelope .query h
        forward
        let (v, response) ← act (Connection.runQuery e request)
        return ⟨.result (← handOver response), some s!"evaluated at {Version.text v}"⟩) := by
  funext w
  refine bind_run_congr fun e w₁ _ => bind_run_congr fun _ w₂ _ =>
    bind_run_congr fun found w₃ hact => bind_run_congr fun x w₄ hx => ?_
  have hanswer : found.2.shape = request.shape := by
    unfold act at hact
    split at hact
    next _ _ _ hrun =>
      obtain ⟨rfl, -⟩ := EStateM.Result.ok.inj hact
      exact Connection.runQuery_shape hrun
    next => simp at hact
  exact bind_of_ok (expect_of_shape ((handOver_shape hx).trans hanswer))

end SnapshotStore
