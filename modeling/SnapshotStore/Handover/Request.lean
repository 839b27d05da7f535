import SnapshotStore.Access
import SnapshotStore.Envelope

/-!
Requests: what to compute with a query that was handed over. A worker reads the version
of the export, takes the query over, moves on to the latest version and evaluates the
request there.
-/

namespace SnapshotStore

inductive Request
  | find (start : Int)
  | findAll (start stop limit : Int)
  /-- Keys are columns, each with whether it sorts upwards. -/
  | findAllSorted (start stop limit : Int) (keys : List (Int × Bool))
  | distinct (column : Int)
  | count (start stop limit : Int)
  | aggregate (kind : Aggregate) (column : Int)
  deriving DecidableEq, Repr

/-- The form that an answer takes. -/
inductive Shape
  | row
  | view
  | count
  | value
  deriving DecidableEq

def Shape.text : Shape → String
  | row => "Row"
  | view => "View"
  | count => "Count"
  | value => "Value"

namespace Request

/-- The form in which the request is to be answered. -/
def shape : Request → Shape
  | find _ => .row
  | findAll .. | findAllSorted .. | distinct _ => .view
  | count .. => .count
  | aggregate .. => .value

def name : Request → String
  | find .. => "find"
  | findAll .. => "find_all"
  | findAllSorted .. => "find_all_sorted"
  | distinct .. => "distinct"
  | count .. => "count"
  | aggregate .. => "aggregate"

/-- What a request yields on a table: rows and views are still to be handed back. -/
inductive Found
  | row (index? : Option Nat)
  | view (v : View)
  | count (n : Nat)
  | value (v : Value)

def checkKeys (t : Table) (keys : List (Int × Bool)) : Except Error (List SortKey) := do
  let keys ← keys.mapM fun (column, ascending) => return ⟨← t.checkColumn column, ascending⟩
  SortKey.check t keys
  return keys

def evaluateOn (q : Query) (t : Table) : Request → Except Error Found
  | find start => do
    q.check t
    return .row (← q.find t (← t.checkRow start true))
  | findAll start stop limit => do
    q.check t
    let w ← Window.ofBounds t.size start stop limit
    return .view (← View.ofQuery t q w)
  | findAllSorted start stop limit keys => do
    q.check t
    let w ← Window.ofBounds t.size start stop limit
    let keys ← checkKeys t keys
    let v ← View.ofQuery t q w
    let (outcome, v) := v.sort t keys .panic
    outcome
    return .view v
  | distinct column => do
    q.check t
    let column ← t.checkColumn column
    t.checkDistinct column
    let v ← View.ofQuery t q .all
    return .view (← v.distinct t column)
  | count start stop limit => do
    q.check t
    let w ← Window.ofBounds t.size start stop limit
    return .count (← q.count t w)
  | aggregate kind column => do
    q.check t
    let column ← t.checkColumn column
    return .value (← q.aggregate t kind column .all)

end Request

/-- The answer to a request, rows and views in envelopes. -/
inductive Response
  | row (envelope? : Option Envelope)
  | view (envelope : Envelope)
  | count (n : Nat)
  | value (v : Value)

namespace Connection

/-- Put what was found into envelopes where it has to travel. -/
def handBack (c : Connection) (t : Table) : Request.Found → Except Error Response
  | .row none => .ok (.row none)
  | .row (some index) =>
    (c.enclose (.row (.ofRow t index)) .move).map fun e => .row (some e)
  | .view v => (c.enclose (.view v) .move).map .view
  | .count n => .ok (.count n)
  | .value v => .ok (.value v)

def evaluate (c : Connection) (q : Query) (r : Request) : Except Error Response := do
  let g ← c.context.group
  let t ← g.requireTable q.table
  c.handBack t (← r.evaluateOn q t)

/-- Give up an open read. A context that writes cannot work for others. -/
def releaseRead (operation : String) : Action Unit := fun c =>
  match c.context.state with
  | .idle => .ok () c
  | .reading _ _ => endRead c
  | .writing _ _ => .error (.invalidState
    s!"Cannot run {operation} on a context with an open write transaction") c

/-- Start reading the version of an export; answers whether it is behind the latest. A
read of the latest version that lands on it is kept. -/
def pinExported (target : Version) : Action Bool := do
  let fresh ← beginRead none
  if fresh = target then
    return false
  else
    endRead
    let _ ← beginRead (some target)
    return true

/-- Fail if the table of the query was removed or reshaped on the way. -/
def checkStillValid (c : Connection) (q : Query) (a : Advance) : Except Error Unit := do
  if a.invalidates q.table then
    let g ← c.context.group
    let name := ((g.table? q.table).map (·.name)).getD (TableKey.text q.table)
    throw (.schemaChanged "Query" name)

def importQuery (e : Envelope) : Action Query := do
  match ← importAs .query e with
  | .query q => return q
  | other => throw (.internal s!"{other.kind.name} payload passed the kind check")

def currentVersion (c : Connection) : Except Error Version :=
  match c.context.version? with
  | some v => .ok v
  | none => .error (.internal "worker lost its read transaction")

/-- Do the work of a run; if it fails, end the read it was done in. -/
def endReadOnError {α : Type} (body : Action α) : Action α := fun c =>
  match body c with
  | .ok a c => .ok a c
  | .error e c =>
    match endRead c with
    | .ok () c => .error e c
    | .error _ c => .error e c

/-- Run one request. Answers the version of the evaluation and the response. -/
def runQuery (e : Envelope) (r : Request) : Action (Version × Response) := do
  ask (·.checkEnvelope .query e)
  releaseRead r.name
  let historical ← pinExported e.version
  endReadOnError do
    let q ← importQuery e
    if historical then
      let a ← advance none
      ask (·.checkStillValid q a)
    let response ← ask (·.evaluate q r)
    return (← ask (·.currentVersion), response)

end Connection
end SnapshotStore
