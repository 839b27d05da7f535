import SnapshotStore.Handover.Batch
import SnapshotStore.Session
import SnapshotStore.Session.Call

/-!
Operations: what is left of a call once its handles are resolved and its arguments are
checked, and how each operation acts on the session and its database. Operations that
reach the store count as one engine call each.
-/

namespace SnapshotStore

inductive Operation
  | answer (reply : Reply)
  | release (kind : HandleKind) (h : UInt64)
  | transact (t : Transition)
  /-- Read from the group that the context sees. -/
  | read (result : Except Error Reply)
  | edit (e : Edit)
  | createTable (name : String)
  | keep (found : Except Error Item)
  | replaceQuery (h : UInt64) (q : Query)
  /-- Put a view in the place of the one it was made from, and answer how that went. -/
  | replaceView (h : UInt64) (outcome : Except Error Unit) (v : View)
  /-- Put an object into an envelope and register it; a move lets go of the object. -/
  | enclose (kind : PayloadKind) (h : UInt64) (p : Payload) (policy : HandoverPolicy)
  | takeOver (kind : PayloadKind) (h : UInt64)
  | run (h : UInt64) (request : Request)
  | runBatch (requests : List (UInt64 × Request))

/-- What an operation answers, and a remark on the way there for those who trace. -/
structure Outcome where
  reply : Reply
  detail? : Option String := none
  deriving DecidableEq

structure Workspace where
  database : Database
  session : Session

abbrev Work (α : Type) := EStateM Error Workspace α

namespace Workspace

def connection (w : Workspace) : Connection := ⟨w.database.store, w.session.context⟩

def withConnection (w : Workspace) (c : Connection) : Workspace where
  database := { w.database with store := c.store }
  session := { w.session with context := c.context }

def forward : Work Unit := fun w =>
  .ok () { w with database.store := w.database.store.recordCall }

def act {α : Type} (a : Action α) : Work α := fun w =>
  match a w.connection with
  | .ok x c => .ok x (w.withConnection c)
  | .error e c => .error e (w.withConnection c)

/-- Take something out of the workspace, or fail and leave it as it is. -/
def attempt {α : Type} (f : Workspace → Except Error (α × Workspace)) : Work α := fun w =>
  match f w with
  | .ok (x, w) => .ok x w
  | .error e => .error e w

def keep (item : Item) : Work UInt64 := fun w =>
  let (h, session) := w.session.keep item
  .ok h { w with session }

def register (e : Envelope) : Work UInt64 := fun w =>
  let (h, database) := w.database.register e
  .ok h { w with database }

def release (kind : HandleKind) (h : UInt64) : Work Unit := attempt fun w =>
  let s := w.session
  match kind with
  | .table => (s.tables.remove h).map fun (_, tables) =>
    ((), { w with session := { s with tables } })
  | .row => (s.rows.remove h).map fun (_, rows) => ((), { w with session := { s with rows } })
  | .query => (s.queries.remove h).map fun (_, queries) =>
    ((), { w with session := { s with queries } })
  | .view => (s.views.remove h).map fun (_, views) =>
    ((), { w with session := { s with views } })
  | .linkList => (s.lists.remove h).map fun (_, lists) =>
    ((), { w with session := { s with lists } })
  | .envelope => (w.database.envelopes.remove h).map fun (_, envelopes) =>
    ((), { w with database := { w.database with envelopes } })

/-- Take an envelope that the connection can import as the given kind. -/
def takeEnvelope (kind : PayloadKind) (h : UInt64) : Work Envelope := attempt fun w =>
  (w.database.take h (w.connection.checkEnvelope kind)).map fun (e, database) =>
    (e, { w with database })

def takeEnvelopes (hs : List UInt64) : Work (List Envelope) := attempt fun w =>
  (w.database.takeAll hs).map fun (es, database) => (es, { w with database })

/-- Register the envelopes of a response. -/
def handOver : Response → Work HandedResult
  | .row none => return .row none
  | .row (some e) => return .row (some (← register e))
  | .view e => return .view (← register e)
  | .count n => return .count n
  | .value v => return .value v

/-- Fail if a run came to a result of another form than its request is to be answered in. The
report names the form of the result and leaves out what it holds. -/
def expect (request : Request) (x : HandedResult) : Work Unit :=
  if x.shape = request.shape then return ()
  else throw (.internal s!"{request.name}_with_handover produced {x.shape.text}")

def setQuery (h : UInt64) (q : Query) : Work Unit := attempt fun w =>
  (w.session.queries.modify h fun b => { b with object := q }).map fun queries =>
    ((), { w with session := { w.session with queries } })

def setView (h : UInt64) (v : View) : Work Unit := attempt fun w =>
  (w.session.views.modify h fun b => { b with object := v }).map fun views =>
    ((), { w with session := { w.session with views } })

def handleKind : PayloadKind → HandleKind
  | .query => .query
  | .row => .row
  | .view => .view

def itemOf : Payload → Item
  | .query q => .query q
  | .row l => .row l
  | .view v => .view v

def pass {α : Type} (result : Except Error α) : Work α := fun w =>
  match result with
  | .ok x => .ok x w
  | .error e => .error e w

end Workspace

namespace Transition.Answer

def outcome : Transition → Answer → Outcome
  | _, done => ⟨.nothing, none⟩
  | _, arrived v => ⟨.version v, none⟩
  | .advance _, advanced a => ⟨.version a.after, some
      (s!"{Version.text a.before} -> {Version.text a.after} " ++
        s!"({a.changes.removed.size} removed, {a.changes.reshaped.size} reshaped)")⟩
  | _, advanced a =>
    ⟨.version a.after, some s!"{Version.text a.before} -> {Version.text a.after}"⟩

end Transition.Answer

open Workspace in
def Operation.perform : Operation → Work Outcome
  | answer reply => return ⟨reply, none⟩
  | release kind h => do
    Workspace.release kind h
    return ⟨.nothing, none⟩
  | transact t => do
    forward
    return (← act t.perform).outcome t
  | read result => do
    forward
    return ⟨← pass result, none⟩
  | edit e => do
    forward
    match ← act (Connection.edit e) with
    | some made => return ⟨.number made, none⟩
    | none => return ⟨.nothing, none⟩
  | createTable name => do
    forward
    match ← act (Connection.edit (.addTable name)) with
    | some key => return ⟨.handle (← Workspace.keep (.table ⟨key⟩)), none⟩
    | none => return ⟨.nothing, none⟩
  | keep found => do
    forward
    return ⟨.handle (← Workspace.keep (← pass found)), none⟩
  | replaceQuery h q => do
    forward
    setQuery h q
    return ⟨.nothing, none⟩
  | replaceView h outcome v => do
    forward
    setView h v
    pass outcome
    return ⟨.nothing, none⟩
  | enclose kind h p policy => do
    forward
    let e ← act (Connection.ask (·.enclose p policy))
    if policy = .move then
      Workspace.release (handleKind kind) h
    return ⟨.handle (← register e), none⟩
  | takeOver kind h => do
    let e ← takeEnvelope kind h
    forward
    let p ← act (Connection.importAs kind e)
    return ⟨.handle (← Workspace.keep (itemOf p)), none⟩
  | run h request => do
    let e ← takeEnvelope .query h
    forward
    let (v, response) ← act (Connection.runQuery e request)
    let result ← handOver response
    expect request result
    return ⟨.result result, some s!"evaluated at {Version.text v}"⟩
  | runBatch requests => do
    let es ← takeEnvelopes (requests.map (·.1))
    forward
    let items := (es.zip requests).map fun (e, _, request) => ⟨e, request⟩
    let (v, responses) ← act (Connection.runBatch items)
    let results ← responses.mapM handOver
    return ⟨.results v results, some s!"{results.length} results at {Version.text v}"⟩

end SnapshotStore
