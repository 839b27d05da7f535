import SnapshotStore.Proofs.Connection.Epoch
import SnapshotStore.Proofs.Session.Envelopes

/-!
Sessions that work for others. A call that hands work to a session takes its envelopes, has the
context do the work and registers the envelopes of the results. Up to the checks the transaction
of the session stays as it is; after them the session comes out reading the version that it
tells, or idle and with no result registered.
-/

namespace SnapshotStore

namespace Call

/-- The call hands work to the session. -/
def isRun : Call → Bool
  | .run .. | .runBatch .. => true
  | _ => false

/-- The answer tells the version that the work was done at. -/
def Tells (c : Call) (out : Outcome) (v : Version) : Prop :=
  match c with
  | .run .. => out.detail? = some s!"evaluated at {Version.text v}"
  | .runBatch .. => ∃ rs, out.reply = .results v rs
  | _ => False

end Call

namespace Connection

theorem checkBatch_congr {c : Connection} (c' : Connection) (h : c.store.id = c'.store.id)
    (items : List BatchItem) : c.checkBatch items = c'.checkBatch items := by
  have hitem : ∀ v position e, c.checkBatchItem v position e = c'.checkBatchItem v position e := by
    intro v position e
    simp only [checkBatchItem, checkEnvelope, h]
  have hfrom : ∀ v position, c.checkBatchFrom v position items =
      c'.checkBatchFrom v position items := by
    intro v position
    induction items generalizing position with
    | nil => rfl
    | cons item rest ih => simp only [checkBatchFrom, hitem, ih]
  cases items with
  | nil => rfl
  | cons first rest => simp only [checkBatch, hfrom]

end Connection

namespace Workspace
variable {w w₁ w' : Workspace} {c : Call} {out : Outcome} {e : Error}

def batchItems (es : List Envelope) (requests : List (UInt64 × Request)) : List BatchItem :=
  (es.zip requests).map fun (e, _, request) => ⟨e, request⟩

theorem batchItems_envelopes {es : List Envelope} {requests : List (UInt64 × Request)}
    (h : es.length = requests.length) : (batchItems es requests).map (·.envelope) = es := by
  rw [batchItems, List.map_map]
  exact List.map_fst_zip (Nat.le_of_eq h)

/-- The checks of the envelopes and of the batch, which come before the session gives anything
up for the work. -/
def screen (w : Workspace) : Call → Except Error Unit
  | .run h _ => (w.database.take h (w.connection.checkEnvelope .query)).map fun _ => ()
  | .runBatch requests => do
    let (es, _) ← w.database.takeAll (requests.map (·.1))
    let _ ← w.connection.checkBatch (batchItems es requests)
    return ()
  | _ => .ok ()

/-- The session gives its own read up for the work. -/
def lends (w : Workspace) (c : Call) : Bool :=
  c.isRun && (w.screen c).isOk && !w.session.context.isWriting

/-! Taking, working, delivering -/

section Hire
variable {α β γ : Type}

/-- Have the context work and deliver what comes of it. -/
def deliverWork (task : Action (Version × β)) (deliver : Version → β → Work Outcome) :
    Work Outcome :=
  act task >>= fun r => deliver r.1 r.2

/-- How a session comes out of work: reading the version that it tells, with another epoch if it
was a reader before, or idle, or as it was if it did not begin. -/
def ComesOut (context : Context) (begins : Prop) (tells : Outcome → Version → Prop) :
    EStateM.Result Error Workspace Outcome → Prop
  | .ok out w' => begins ∧ (context.isReading → context.epoch < w'.session.context.epoch) ∧
      ∃ v g, w'.session.context.state = .reading v g ∧ tells out v
  | .error _ w' => (begins → w'.session.context.state = .idle) ∧
      (¬begins → w'.session.context = context)

/-- Results are delivered whatever they are, and the session stays where it is. -/
structure Delivery (deliver : Version → β → Work Outcome) (tells : Outcome → Version → Prop) :
    Prop where
  ok : ∀ {v y w out w'}, deliver v y w = .ok out w' →
    w'.session.context = w.session.context ∧ tells out v
  error : ∀ {v y w e w'}, ¬deliver v y w = .error e w'

variable {deliver : Version → β → Work Outcome} {tells : Outcome → Version → Prop}

theorem deliverWork_comesOut (check : Connection → Except Error γ) (operation : String)
    {work : γ → Action (Version × β)}
    (hwork : ∀ z, Connection.ReadsOrRests (·.state = .idle) (work z))
    (hquiet : ∀ z, Connection.IsQuiet (work z))
    (htells : ∀ z, Connection.TellsVersion (work z)) (hd : Delivery deliver tells)
    (w : Workspace) : ComesOut w.session.context
      ((∃ z, check w.connection = .ok z) ∧ w.session.context.isWriting = false) tells
      (deliverWork (Connection.lend check operation work) deliver w) := by
  unfold deliverWork
  cases hcheck : check w.connection with
  | error e =>
      have hlend := Connection.lend_of_refused operation work hcheck
      rw [bind_of_error (act_run_error.mpr ⟨_, hlend, rfl⟩)]
      exact ⟨fun hbegins => absurd hbegins.1 (by simp), fun _ => rfl⟩
  | ok z =>
      cases hwriting : w.session.context.isWriting with
      | true =>
          obtain ⟨e, hlend⟩ := Connection.lend_of_writing operation work hcheck hwriting
          rw [bind_of_error (act_run_error.mpr ⟨_, hlend, rfl⟩)]
          exact ⟨fun hbegins => absurd hbegins.2 (by simp), fun _ => rfl⟩
      | false =>
          have hlend := Connection.lend_of_check operation hcheck hwriting (hwork z)
          cases hx : Connection.lend check operation work w.connection with
          | error e c =>
              rw [hx] at hlend
              rw [bind_of_error (act_run_error.mpr ⟨c, hx, rfl⟩)]
              exact ⟨fun _ => hlend, fun hnot => absurd ⟨⟨z, rfl⟩, rfl⟩ hnot⟩
          | ok r c =>
              rw [hx] at hlend
              have htold := Connection.lend_tellsVersion htells _ _ _ _ hx
              obtain ⟨g, hstate⟩ := Connection.reading_of_currentVersion htold hlend
              rw [bind_of_ok (act_run_ok.mpr ⟨c, hx, rfl⟩)]
              cases hy : deliver r.1 r.2 (w.withConnection c) with
              | error e w' => exact absurd hy hd.error
              | ok out w' =>
                  obtain ⟨hsame, htell⟩ := hd.ok hy
                  refine ⟨⟨⟨z, rfl⟩, rfl⟩, fun hreading => ?_, r.1, g, ?_, htell⟩
                  · have hlt := Connection.lend_epoch_lt operation hcheck hreading (hquiet z)
                    rw [Connection.after_ok hx] at hlt
                    exact hsame ▸ hlt
                  · exact (congrArg Context.state hsame).trans hstate

end Hire

/-! Delivering -/

theorem handOver_session {r : Response} {x : HandedResult} (h : handOver r w = .ok x w') :
    w'.session = w.session := by
  have hregister : ∀ {e raw w'}, register e w = .ok raw w' → w'.session = w.session :=
    fun h => (EStateM.Result.ok.inj h).2 ▸ rfl
  cases r with
  | row e? =>
      cases e? with
      | none =>
          obtain ⟨-, rfl⟩ := pure_run_ok.mp h
          rfl
      | some e =>
          obtain ⟨raw, _, hr, hx⟩ := bind_run_ok.mp h
          obtain ⟨-, rfl⟩ := pure_run_ok.mp hx
          exact hregister hr
  | view e =>
      obtain ⟨raw, _, hr, hx⟩ := bind_run_ok.mp h
      obtain ⟨-, rfl⟩ := pure_run_ok.mp hx
      exact hregister hr
  | count n | value v =>
      obtain ⟨-, rfl⟩ := pure_run_ok.mp h
      rfl

theorem handOver_all_session {rs : List Response} {xs : List HandedResult}
    (h : rs.mapM handOver w = .ok xs w') : w'.session = w.session := by
  induction rs generalizing w xs with
  | nil =>
      rw [List.mapM_nil] at h
      obtain ⟨-, rfl⟩ := pure_run_ok.mp h
      rfl
  | cons r rs ih =>
      rw [List.mapM_cons] at h
      simp only [bind_run_ok, pure_run_ok] at h
      obtain ⟨x, w₁, hx, xs', _, hxs, -, rfl⟩ := h
      exact (ih hxs).trans (handOver_session hx)

def deliverOne (v : Version) (r : Response) : Work Outcome := do
  return ⟨.result (← handOver r), some s!"evaluated at {Version.text v}"⟩

def deliverAll (v : Version) (rs : List Response) : Work Outcome := do
  let results ← rs.mapM handOver
  return ⟨.results v results, some s!"{results.length} results at {Version.text v}"⟩

theorem deliverOne_delivery (h : UInt64) (request : Request) :
    Delivery deliverOne (Call.run h request).Tells where
  ok hd := by
    obtain ⟨x, _, hx, hd⟩ := bind_run_ok.mp hd
    obtain ⟨rfl, rfl⟩ := pure_run_ok.mp hd
    exact ⟨congrArg Session.context (handOver_session hx), rfl⟩
  error hd := by
    rcases bind_run_error.mp hd with hx | ⟨x, _, -, hd⟩
    · exact handOver_run_error hx
    · exact pure_run_error hd

theorem deliverAll_delivery (requests : List (UInt64 × Request)) :
    Delivery deliverAll (Call.runBatch requests).Tells where
  ok hd := by
    obtain ⟨xs, _, hx, hd⟩ := bind_run_ok.mp hd
    obtain ⟨rfl, rfl⟩ := pure_run_ok.mp hd
    exact ⟨congrArg Session.context (handOver_all_session hx), xs, rfl⟩
  error hd := by
    rcases bind_run_error.mp hd with hx | ⟨xs, _, -, hd⟩
    · exact handOver_all_run_error hx
    · exact pure_run_error hd

/-! Calls that hand work to a session -/

theorem call_run (h : UInt64) (request : Request) : call (.run h request) =
    (do
      let e ← takeEnvelope .query h
      forward
      deliverWork (Connection.lend (·.checkEnvelope .query e) request.name
        fun _ => Connection.queryWork e request) deliverOne) :=
  Operation.perform_run h request

theorem call_runBatch (requests : List (UInt64 × Request)) : call (.runBatch requests) =
    (do
      let es ← takeEnvelopes (requests.map (·.1))
      forward
      deliverWork (Connection.lend (·.checkBatch (batchItems es requests)) "batch"
        (Connection.batchWork (batchItems es requests))) deliverAll) := rfl

theorem takeEnvelope_checks {kind : PayloadKind} {h : UInt64} {env : Envelope}
    (ht : takeEnvelope kind h w = .ok env w₁) :
    w₁.counted.connection.checkEnvelope kind env = .ok () := by
  obtain ⟨a, ha, rfl⟩ := takeEnvelope_removes ht
  obtain ⟨⟨env', d⟩, hd, he⟩ := map_eq_ok.mp (attempt_run_ok.mp ht)
  obtain ⟨rfl, -⟩ := Prod.mk.inj he
  simp only [Database.take, bind_eq_ok] at hd
  obtain ⟨env'', hget, u, hcheck, -⟩ := hd
  obtain rfl := Except.ok.inj (hget.symm.trans (Arena.remove_get ha))
  exact hcheck

theorem takeAll_store {d d' : Database} {raws : List UInt64} {es : List Envelope}
    (h : d.takeAll raws = .ok (es, d')) : d'.store = d.store := by
  obtain ⟨-, a, -, rfl⟩ := Database.takeAll_eq_ok.mp h
  rfl

theorem lends_iff (w : Workspace) (hc : c.isRun) :
    w.lends c ↔ (∃ u, w.screen c = .ok u) ∧ w.session.context.isWriting = false := by
  unfold lends
  rw [hc]
  cases w.screen c <;> simp [Except.isOk, Except.toBool]

theorem ComesOut.congr {context : Context} {begins begins' : Prop}
    {tells : Outcome → Version → Prop} {result : EStateM.Result Error Workspace Outcome}
    (h : ComesOut context begins tells result) (same : begins' ↔ begins) :
    ComesOut context begins' tells result := propext same ▸ h

theorem ComesOut.of_error {context : Context} {begins : Prop}
    {tells : Outcome → Version → Prop} (hb : ¬begins) (hw : w'.session.context = context) :
    ComesOut context begins tells (.error e w') :=
  ⟨fun hbegins => absurd hbegins hb, fun _ => hw⟩

theorem run_comesOut (w : Workspace) (h : UInt64) (request : Request) :
    ComesOut w.session.context (w.lends (.run h request)) (Call.run h request).Tells
      (call (.run h request) w) := by
  rw [call_run, lends_iff w rfl]
  cases ht : takeEnvelope .query h w with
  | error e w₁ =>
      obtain ⟨hd, rfl⟩ := attempt_run_error.mp ht
      rw [bind_of_error ht]
      have hscreen : w.screen (.run h request) = .error e :=
        map_eq_error.mpr (map_eq_error.mp hd)
      exact .of_error (by simp [hscreen]) rfl
  | ok env w₁ =>
      have hforward : forward w₁ = .ok () w₁.counted := rfl
      rw [bind_of_ok ht, bind_of_ok hforward]
      have hcheck := takeEnvelope_checks ht
      have hscreen : w.screen (.run h request) = .ok () := by
        obtain ⟨r, hr, -⟩ := map_eq_ok.mp (attempt_run_ok.mp ht)
        exact map_eq_ok.mpr ⟨r, hr, rfl⟩
      obtain ⟨a, -, rfl⟩ := takeEnvelope_removes ht
      refine (deliverWork_comesOut (·.checkEnvelope .query env) request.name
        (fun _ => Connection.queryWork_readsOrRests env request)
        (fun _ => Connection.queryWork_isQuiet env request)
        (fun _ => Connection.queryWork_tellsVersion env request)
        (deliverOne_delivery h request) _).congr ?_
      exact and_congr_left fun _ => iff_of_true ⟨(), hscreen⟩ ⟨(), hcheck⟩

theorem runBatch_comesOut (w : Workspace) (requests : List (UInt64 × Request)) :
    ComesOut w.session.context (w.lends (.runBatch requests)) (Call.runBatch requests).Tells
      (call (.runBatch requests) w) := by
  rw [call_runBatch, lends_iff w rfl]
  cases ht : takeEnvelopes (requests.map (·.1)) w with
  | error e w₁ =>
      obtain ⟨hd, rfl⟩ := attempt_run_error.mp ht
      rw [bind_of_error ht]
      have hscreen : w.screen (.runBatch requests) = .error e := by
        rw [screen, map_eq_error.mp hd]
        rfl
      exact .of_error (by simp [hscreen]) rfl
  | ok es w₁ =>
      have hforward : forward w₁ = .ok () w₁.counted := rfl
      rw [bind_of_ok ht, bind_of_ok hforward]
      obtain ⟨⟨es', d⟩, hd, he⟩ := map_eq_ok.mp (attempt_run_ok.mp ht)
      obtain ⟨rfl, rfl⟩ := Prod.mk.inj he
      have hid : d.store.id = w.database.store.id := congrArg Store.id (takeAll_store hd)
      refine (deliverWork_comesOut (·.checkBatch (batchItems es' requests)) "batch"
        (Connection.batchWork_readsOrRests _) (Connection.batchWork_isQuiet _)
        (Connection.batchWork_tellsVersion _)
        (deliverAll_delivery requests) _).congr (and_congr_left fun _ => ?_)
      rw [screen, hd, Connection.checkBatch_congr w.connection hid]
      cases hcheck : w.connection.checkBatch (batchItems es' requests) <;>
        simp [bind, Except.bind, hcheck, pure, Except.pure]

theorem isRun_of_lends (h : w.lends c) : c.isRun := by
  simp only [lends, Bool.and_eq_true] at h
  exact h.1.1

theorem deed_of_isRun (hc : c.isRun) : w.deed c = .rest := by
  cases c with
  | run h request =>
      change (match (Operation.run h request).perform w with | .ok _ _ | .error _ _ => _) = _
      cases (Operation.run h request).perform w <;> rfl
  | runBatch requests =>
      change (match (Operation.runBatch requests).perform w with | .ok _ _ | .error _ _ => _) = _
      cases (Operation.runBatch requests).perform w <;> rfl
  | _ => exact Bool.noConfusion hc

/-- A session that is given work comes out of it reading the version that it tells, or, if the
work fails, idle; a session that does not begin stays in its transaction. -/
theorem call_comesOut (hc : c.isRun) (w : Workspace) :
    ComesOut w.session.context (w.lends c) c.Tells (call c w) := by
  cases c with
  | run h request => exact run_comesOut w h request
  | runBatch requests => exact runBatch_comesOut w requests
  | _ => exact Bool.noConfusion hc

end Workspace
end SnapshotStore
