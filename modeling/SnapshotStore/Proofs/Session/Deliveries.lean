import SnapshotStore.Proofs.Session.Envelopes

/-!
Deliveries: what calls put into envelopes, what they make of the envelopes that they take, and
how they refuse handles whose envelopes are gone.
-/

namespace SnapshotStore

namespace Session
variable {s : Session} {raw : UInt64}

/-- The content of the payload stands under the handle, bound to the open transaction. -/
def Carries (s : Session) (raw : UInt64) : Payload → Prop
  | .query q => s.queries.get raw = .ok ⟨q, s.context.epoch⟩
  | .row l => s.rows.get raw = .ok ⟨l, s.context.epoch⟩
  | .view v => s.views.get raw = .ok ⟨v, s.context.epoch⟩

/-- How many slots there are for objects of the kind. -/
def slotCount (s : Session) : PayloadKind → Nat
  | .query => s.queries.slots.length
  | .row => s.rows.slots.length
  | .view => s.views.slots.length

theorem keep_context (s : Session) (item : Item) : (s.keep item).2.context = s.context := by
  cases item <;> rfl

theorem get_of_lookUp {α : Type} [Anchored α] {a : Arena (Bound α)} {x : α} {t : Table}
    (h : s.lookUp a raw = .ok (x, t)) : a.get raw = .ok ⟨x, s.context.epoch⟩ := by
  obtain ⟨b, hb, rfl, hr⟩ := lookUp_eq_ok h
  obtain ⟨-, hepoch, -⟩ := Bound.resolve_eq_ok hr
  exact hepoch ▸ hb

/-- What a handle gives for an export is what stands under it. -/
theorem portable_carries {kind : PayloadKind} {p : Payload} (h : s.portable kind raw = .ok p) :
    p.kind = kind ∧ s.Carries raw p := by
  cases kind with
  | query | row | view =>
      obtain ⟨⟨x, t⟩, hl, rfl⟩ := map_eq_ok.mp h
      exact ⟨rfl, get_of_lookUp hl⟩

end Session

namespace Workspace
variable {α β : Type} {w w' : Workspace} {h raw : UInt64} {out : Outcome} {c : Call}

/-! Handles whose envelopes were taken -/

theorem takeEnvelope_eq_error {kind : PayloadKind} {x : Error}
    (hlocate : w.database.envelopes.locate raw = .error x) :
    takeEnvelope kind raw w = .error x w := by
  refine attempt_run_error.mpr ⟨?_, rfl⟩
  simp [Database.take, Arena.get, hlocate, bind, Except.bind, Except.map]

theorem call_refused (hw : w.database.envelopes.Stocks .envelope)
    (hstale : w.database.envelopes.Stale raw) (hraw : raw ∈ c.named) : ∃ e,
      call c w = .error e w ∧
        (c.named = [raw] → ∃ k, Handle.decode? raw = some k ∧ e = .alreadyConsumed k.text) := by
  obtain ⟨k, hdecode, hlocate⟩ := hstale
  have hconsumes : w.database.envelopes.stale k = .alreadyConsumed k.text := by
    unfold Arena.stale
    rw [hw.kind]
  rw [hconsumes] at hlocate
  have hconsumed : ∀ x, x = Error.alreadyConsumed k.text → ∃ k', Handle.decode? raw = some k' ∧
      x = .alreadyConsumed k'.text := fun x hx => ⟨k, hdecode, hx⟩
  cases c with
  | close kind h =>
      cases kind with
      | envelope =>
          obtain rfl := List.mem_singleton.mp hraw
          refine ⟨_, bind_of_error (attempt_run_error.mpr ⟨?_, rfl⟩), fun _ => hconsumed _ rfl⟩
          simp [Arena.remove, hlocate, Except.map]
      | table | row | query | view | linkList => exact absurd hraw List.not_mem_nil
  | importObject kind h =>
      obtain rfl := List.mem_singleton.mp hraw
      exact ⟨_, bind_of_error (takeEnvelope_eq_error hlocate), fun _ => hconsumed _ rfl⟩
  | run h request =>
      obtain rfl := List.mem_singleton.mp hraw
      exact ⟨_, bind_of_error (takeEnvelope_eq_error hlocate), fun _ => hconsumed _ rfl⟩
  | runBatch requests =>
      have hcheck : w.database.envelopes.check raw = .error (.alreadyConsumed k.text) := by
        simp [Arena.check, hlocate, Except.map]
      obtain ⟨y, hy⟩ : ∃ y, w.database.checkDistinct [] (requests.map (·.1)) = .error y :=
        Database.checkDistinct_eq_error hraw hcheck
      refine ⟨y, bind_of_error (attempt_run_error.mpr ⟨?_, rfl⟩), fun hnamed => hconsumed y ?_⟩
      · simp only [Database.takeAll, hy]
        rfl
      · have hone : requests.map (·.1) = [raw] := hnamed
        rw [hone] at hy
        simp only [Database.checkDistinct, hcheck, Except.error.injEq] at hy
        exact hy.symm
  | _ => exact absurd hraw List.not_mem_nil

/-! What is registered -/

theorem register_get {env : Envelope} (hw : w.database.envelopes.Stocks .envelope)
    (hr : register env w = .ok raw w')
    (room : w'.database.envelopes.slots.length ≤ 0x100000000) :
    w'.database.envelopes.get raw = .ok env := by
  obtain ⟨rfl, rfl⟩ := EStateM.Result.ok.inj hr
  exact (hw.insert_get env room).mpr (.inl ⟨rfl, rfl⟩)

theorem handOver_registers (hw : w.database.envelopes.Stocks .envelope) {r : Response}
    {x : HandedResult} (hr : handOver r w = .ok x w')
    (room : w'.database.envelopes.slots.length ≤ 0x100000000) :
    x.handle?.map w'.database.envelopes.get = r.envelope?.map .ok := by
  cases r with
  | row env? =>
      cases env? with
      | none =>
          obtain ⟨rfl, -⟩ := pure_run_ok.mp hr
          rfl
      | some env =>
          simp only [handOver, bind_run_ok, pure_run_ok] at hr
          obtain ⟨raw, _, hr, rfl, rfl⟩ := hr
          exact congrArg some (register_get hw hr room)
  | view env =>
      simp only [handOver, bind_run_ok, pure_run_ok] at hr
      obtain ⟨raw, _, hr, rfl, rfl⟩ := hr
      exact congrArg some (register_get hw hr room)
  | count n | value v =>
      obtain ⟨rfl, -⟩ := pure_run_ok.mp hr
      rfl

/-- The envelopes of responses stand under the handles that are answered for them. -/
theorem handOver_all_registers (hw : w.database.envelopes.Stocks .envelope)
    {rs : List Response} {xs : List HandedResult} (hr : rs.mapM handOver w = .ok xs w')
    (room : w'.database.envelopes.slots.length ≤ 0x100000000) :
    xs.map (·.handle?.map w'.database.envelopes.get) = rs.map (·.envelope?.map .ok) := by
  induction rs generalizing w xs with
  | nil =>
      rw [List.mapM_nil] at hr
      obtain ⟨rfl, -⟩ := pure_run_ok.mp hr
      rfl
  | cons r rs ih =>
      rw [List.mapM_cons] at hr
      simp only [bind_run_ok, pure_run_ok] at hr
      obtain ⟨x, w₁, hx, xs', _, hxs, rfl, rfl⟩ := hr
      have hfirst := handOver_gains hx
      have hrest := handOver_all_gains hxs
      have hw₁ := hfirst.stocks hw
      have hregistered := handOver_registers hw hx (Nat.le_trans hrest.length_le room)
      rw [List.map_cons, List.map_cons, ih hw₁ hxs, ← hregistered]
      congr 1
      -- What the first response left registered, the others leave as it is.
      cases hhandle : x.handle? with
      | none => rfl
      | some raw =>
          rw [hhandle] at hregistered
          obtain ⟨env, -, henv⟩ := Option.map_eq_some_iff.mp hregistered.symm
          rw [Option.map_some, Option.map_some, ← henv, hrest.keeps room hw₁ henv.symm]

theorem enclose_run_ok {kind : PayloadKind} {p : Payload} {policy : HandoverPolicy}
    (hp : (Operation.enclose kind h p policy).perform w = .ok out w') : ∃ env w₁ raw,
      w.connection.enclose p policy = .ok env ∧
      w₁.database.envelopes = w.database.envelopes ∧ register env w₁ = .ok raw w' ∧
      out = ⟨.handle raw, none⟩ := by
  simp only [Operation.perform, bind_run_ok, forward_run_ok, act_run_ok,
    Connection.ask_run_ok] at hp
  obtain ⟨-, _, rfl, env, _, ⟨_, ⟨henv, rfl⟩, rfl⟩, hp⟩ := hp
  split at hp
  · simp only [bind_run_ok, pure_run_ok] at hp
    obtain ⟨_, w₁, hr, raw, _, hput, rfl, rfl⟩ := hp
    have hcalm := (Calm.release (handleKind_ne kind) h).ok hr
    exact ⟨env, w₁, raw, henv, hcalm, hput, rfl⟩
  · simp only [bind_run_ok, pure_run_ok] at hp
    obtain ⟨raw, w₁, hput, rfl, rfl⟩ := hp
    exact ⟨env, w.counted.withConnection w.counted.connection, raw, henv, rfl, hput, rfl⟩

/-- An export registers the object under the handle, at the version that is read. -/
theorem call_export_registers {kind : PayloadKind} {policy : HandoverPolicy}
    (hw : w.database.envelopes.Stocks .envelope)
    (room : w'.database.envelopes.slots.length ≤ 0x100000000)
    (hc : call (.exportObject kind h policy) w = .ok out w') : ∃ raw p v g,
      out.reply = .handle raw ∧ p.kind = kind ∧ w.session.Carries h p ∧
      w.session.context.state = .reading v g ∧
      w'.database.envelopes.get raw = .ok ⟨p, v, w.database.store.id, policy⟩ := by
  obtain ⟨operation, hplan, hp⟩ := call_ok_iff.mp hc
  simp only [Session.plan, bind_eq_ok, pure_eq_ok] at hplan
  obtain ⟨p, hportable, rfl⟩ := hplan
  obtain ⟨env, w₁, raw, henv, hsame, hput, rfl⟩ := enclose_run_ok hp
  obtain ⟨v, g, hstate, -, rfl⟩ := Connection.enclose_cases henv
  obtain ⟨hkind, hcarries⟩ := Session.portable_carries hportable
  exact ⟨raw, p, v, g, rfl, hkind, hcarries, hstate, register_get (hsame ▸ hw) hput room⟩

/-! What is made of an envelope -/

/-- What a call that succeeds makes of an envelope that it names. An import leaves the session in
a read of the version of the envelope, where the payload stands under the new handle; no handle can
name a slot beyond the first 2^32. A run works on the envelope as it is, and so does a batch on
all that it names, in their order. Their responses are to the very queries in the envelopes, as the
session evaluates them in the version that it then reads, and the envelopes of the responses stand
under the handles that they answer. -/
inductive Serves (w w' : Workspace) (out : Outcome) (raw : UInt64) (e : Envelope) : Call → Prop
  | close : Serves w w' out raw e (.close .envelope raw)
  | importObject {h : UInt64} {g : Group}
      (reading : w'.session.context.state = .reading e.version g)
      (held : w'.session.slotCount e.kind ≤ 0x100000000 → w'.session.Carries h e.payload)
      (reply : out.reply = .handle h) : Serves w w' out raw e (.importObject e.kind raw)
  | run {request : Request} {v : Version} {response : Response} {c : Connection}
      {x : HandedResult} {q : Query}
      (ran : Connection.runQuery e request w.counted.connection = .ok (v, response) c)
      (query : e.payload = .query q) (evaluated : w'.connection.evaluate q request = .ok response)
      (registered : x.handle?.map w'.database.envelopes.get = response.envelope?.map .ok)
      (reply : out.reply = .result x) : Serves w w' out raw e (.run raw request)
  | runBatch {requests : List (UInt64 × Request)} {request : Request} {items : List BatchItem}
      {v : Version} {responses : List Response} {c : Connection} {xs : List HandedResult}
      (named : (raw, request) ∈ requests) (item : ⟨e, request⟩ ∈ items)
      (asked : List.Forall₂ (fun request item =>
        w.database.envelopes.get request.1 = .ok item.envelope ∧ request.2 = item.request)
        requests items)
      (ran : Connection.runBatch items w.counted.connection = .ok (v, responses) c)
      (evaluated : List.Forall₂ (fun item response => ∃ q, item.envelope.payload = .query q ∧
        w'.connection.evaluate q item.request = .ok response) items responses)
      (registered : xs.map (·.handle?.map w'.database.envelopes.get) =
        responses.map (·.envelope?.map .ok))
      (reply : out.reply = .results v xs) : Serves w w' out raw e (.runBatch requests)

theorem keep_context {item : Item} (hk : keep item w = .ok raw w') :
    w'.session.context = w.session.context := by
  obtain ⟨rfl, rfl⟩ := EStateM.Result.ok.inj hk
  exact w.session.keep_context item

/-- What is kept stands under the handle that it is given. -/
theorem keep_carries (hw : w.Stocked) {p : Payload} (hk : keep (itemOf p) w = .ok raw w')
    (room : w'.session.slotCount p.kind ≤ 0x100000000) : w'.session.Carries raw p := by
  obtain ⟨rfl, rfl⟩ := EStateM.Result.ok.inj hk
  cases p with
  | query q => exact (hw.queries.insert_get _ room).mpr (.inl ⟨rfl, rfl⟩)
  | row l => exact (hw.rows.insert_get _ room).mpr (.inl ⟨rfl, rfl⟩)
  | view v => exact (hw.views.insert_get _ room).mpr (.inl ⟨rfl, rfl⟩)

theorem Stocked.forwarded (h : w.Stocked) (c : Connection) :
    (w.counted.withConnection c).Stocked :=
  (w.counted_settles.stocked h).withConnection c

/-- The items of a batch are its requests, each with the envelope that it names. -/
theorem forall₂_items {R : UInt64 → Envelope → Prop} {requests : List (UInt64 × Request)}
    {es : List Envelope} (h : List.Forall₂ (fun request e => R request.1 e) requests es) :
    List.Forall₂ (fun request item => R request.1 item.envelope ∧ request.2 = item.request)
      requests ((es.zip requests).map fun (e, _, request) => BatchItem.mk e request) := by
  induction h with
  | nil => exact .nil
  | cons hget _ ih => exact .cons ⟨hget, rfl⟩ ih

theorem call_serves {env : Envelope} (hw : w.Stocked)
    (room : w'.database.envelopes.slots.length ≤ 0x100000000)
    (hget : w.database.envelopes.get raw = .ok env) (hraw : raw ∈ c.named)
    (hc : call c w = .ok out w') : w.Serves w' out raw env c := by
  -- The envelope that is taken is the one that is there.
  have htaken : ∀ {kind : PayloadKind} {taken : Envelope} {w₁ : Workspace},
      takeEnvelope kind raw w = .ok taken w₁ → taken = env ∧ w₁.Stocked ∧ ∃ a,
        w₁ = { w with database := { w.database with envelopes := a } } := by
    intro kind taken w₁ ht
    have hstocked := ((takeEnvelope_settling kind raw).ok ht).stocked hw
    obtain ⟨a, ha, rfl⟩ := takeEnvelope_removes ht
    exact ⟨Except.ok.inj ((Arena.remove_get ha).symm.trans hget), hstocked, a, rfl⟩
  cases c with
  | close kind h =>
      cases kind with
      | envelope =>
          obtain rfl := List.mem_singleton.mp hraw
          exact .close
      | table | row | query | view | linkList => exact absurd hraw List.not_mem_nil
  | importObject kind h =>
      obtain rfl := List.mem_singleton.mp hraw
      have hp : (Operation.takeOver kind raw).perform w = .ok out w' := hc
      simp only [Operation.perform, bind_run_ok, pure_run_ok, forward_run_ok, act_run_ok] at hp
      obtain ⟨taken, w₁, ht, -, _, rfl, p, _, ⟨c, hc, rfl⟩, h, w₂, hk, rfl, rfl⟩ := hp
      obtain ⟨rfl, hstocked, a, rfl⟩ := htaken ht
      obtain ⟨rfl, rfl, g, hstate, -⟩ := Connection.importAs_run_ok hc
      have hcontext : w₂.session.context = c.context := keep_context hk
      exact .importObject (hcontext ▸ hstate) (keep_carries (hstocked.forwarded c) hk) rfl
  | run h request =>
      obtain rfl := List.mem_singleton.mp hraw
      have hp : (Operation.run raw request).perform w = .ok out w' := hc
      simp only [Operation.perform_run, bind_run_ok, pure_run_ok, forward_run_ok, act_run_ok] at hp
      obtain ⟨taken, w₁, ht, -, _, rfl, ⟨v, response⟩, _, ⟨c, hc, rfl⟩, x, w₂, hx, rfl, rfl⟩ := hp
      obtain ⟨rfl, hstocked, a, rfl⟩ := htaken ht
      have hforwarded := hstocked.forwarded c
      have hconnection : w₂.connection = c :=
        (handOver_delivers (P := fun _ => True) hforwarded hx fun _ _ _ => trivial).connection
      obtain ⟨q, hquery, hevaluated⟩ := Connection.runQuery_evaluates hc
      exact .run hc hquery (hconnection ▸ hevaluated)
        (handOver_registers hforwarded.envelopes hx room) rfl
  | runBatch requests =>
      have hp : (Operation.runBatch requests).perform w = .ok out w' := hc
      simp only [Operation.perform, bind_run_ok, pure_run_ok, forward_run_ok, act_run_ok] at hp
      obtain ⟨es, w₁, ht, -, _, rfl, ⟨v, responses⟩, _, ⟨c, hc, rfl⟩, xs, w₂, hx, rfl, rfl⟩ := hp
      have hforwarded := (((takeEnvelopes_settling _).ok ht).stocked hw).forwarded c
      have hdelivers := handOver_all_delivers (P := fun _ => True) hforwarded hx
        fun _ _ _ _ _ => trivial
      have hconnection : w₂.connection = c := hdelivers.connection
      have hregistered := handOver_all_registers hforwarded.envelopes hx room
      obtain ⟨a, -, hgets, rfl⟩ := takeEnvelopes_removes ht
      have hasked := forall₂_items (List.forall₂_map_left_iff.mp hgets)
      obtain ⟨⟨raw', request⟩, hrequest, rfl⟩ := List.mem_map.mp hraw
      obtain ⟨⟨env', _⟩, hitem, hget', rfl⟩ := exists_of_forall₂ hasked _ hrequest
      obtain rfl := Except.ok.inj (hget.symm.trans hget')
      have hevaluated := Connection.runBatch_evaluates hc
      exact .runBatch hrequest hitem hasked hc (hconnection ▸ hevaluated) hregistered rfl
  | _ => exact absurd hraw List.not_mem_nil

end Workspace
end SnapshotStore
