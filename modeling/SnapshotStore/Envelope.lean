import SnapshotStore.Context
import SnapshotStore.View

/-!
Envelopes: queries, rows and views on their way from one context to another. An envelope
records the version and the store its content was exported from. It pins nothing, so the
version may be gone by the time of the import.
-/

namespace SnapshotStore

/-- A row, to be found again by its identity for as long as its table keeps its columns. -/
structure RowLocator where
  table : TableKey
  schemaEpoch : Nat
  id : RowId
  /-- Where the row stood when it was located. -/
  hint : Nat
  deriving DecidableEq, Repr

namespace RowLocator

/-- An identity that no row has. -/
def noRow : RowId := 0xffffffffffffffff

def ofRow (t : Table) (row : Nat) : RowLocator :=
  ⟨t.key, t.schemaEpoch, (t.rowId? row).getD noRow, row⟩

def indexIn? (l : RowLocator) (t : Table) : Option Nat :=
  if t.key ≠ l.table || t.schemaEpoch ≠ l.schemaEpoch then none else t.findRow? l.id l.hint

/-- Whether the group still has the row, in a table with the same columns. -/
def isAttached (l : RowLocator) (g : Group) : Bool :=
  ((g.table? l.table).bind l.indexIn?).isSome

end RowLocator

inductive PayloadKind
  | query
  | row
  | view
  deriving DecidableEq, Repr

def PayloadKind.name : PayloadKind → String
  | query => "Query"
  | row => "Row"
  | view => "TableView"

inductive Payload
  | query (q : Query)
  | row (l : RowLocator)
  | view (v : View)

namespace Payload

def kind : Payload → PayloadKind
  | query _ => .query
  | row _ => .row
  | view _ => .view

def table : Payload → TableKey
  | query q => q.table
  | row l => l.table
  | view v => v.table

def schemaEpoch : Payload → Nat
  | query q => q.schemaEpoch
  | row l => l.schemaEpoch
  | view v => v.schemaEpoch

/-- Whether the table of the payload still suits it. -/
def suits (p : Payload) (t : Table) : Bool :=
  t.schemaEpoch = p.schemaEpoch &&
    match p with
    | row l => (l.indexIn? t).isSome
    | _ => true

/-- Check the payload against a group: its table is there with the same columns and, for a
row, the row is too. -/
def check (p : Payload) (g : Group) : Except Error Unit :=
  if (g.table? p.table).any p.suits then .ok () else .error (.detached p.kind.name)

end Payload

/-- What an export does with the object it exports. -/
inductive HandoverPolicy
  | copy
  | move
  deriving DecidableEq, Repr

namespace HandoverPolicy

def all : List HandoverPolicy := [copy, move]

def name : HandoverPolicy → String
  | copy => "Copy"
  | move => "Move"

end HandoverPolicy

structure Envelope where
  payload : Payload
  version : Version
  /-- The identity of the store of origin. -/
  store : String
  policy : HandoverPolicy

namespace Envelope

def kind (e : Envelope) : PayloadKind := e.payload.kind

def isQuery (e : Envelope) : Bool := e.kind = .query

end Envelope

namespace Connection

/-- Put an object of the open read into an envelope. -/
def enclose (c : Connection) (p : Payload) (policy : HandoverPolicy) : Except Error Envelope :=
  match c.context.state with
  | .reading v g => do
    p.check g
    return ⟨p, v, c.store.id, policy⟩
  | state => .error (.invalidState
    s!"Can only export {p.kind.name} from a read transaction (context is {state.text})")

/-- Check that an envelope comes from the connection's store and holds the kind wanted. -/
def checkEnvelope (c : Connection) (kind : PayloadKind) (e : Envelope) : Except Error Unit := do
  if e.store ≠ c.store.id then
    throw (.illegalArgument
      s!"Handover from store {e.store} cannot be imported into store {c.store.id}")
  if e.kind ≠ kind then
    throw (.illegalArgument s!"Handover holds a {e.kind.name}, not a {kind.name}")

/-- Bring the context to a version: an idle one starts reading there, one that reads an
older version moves on to it. -/
def syncTo (v : Version) : Action Unit := fun c =>
  match c.context.state with
  | .idle => (do let _ ← beginRead (some v); return () : Action Unit) c
  | .reading current _ =>
    if current < v then (do let _ ← advance (some v); return () : Action Unit) c
    else if current = v then .ok () c
    else .error (.badVersion v
      s!"{ContextId.text c.context.id} is already reading at {Version.text current}") c
  | .writing _ _ =>
    .error (.invalidState "Cannot import a handover into a write transaction") c

/-- A check that reads the connection and leaves it alone. -/
def ask {α : Type} (f : Connection → Except Error α) : Action α := fun c =>
  match f c with
  | .ok a => .ok a c
  | .error e => .error e c

def importAs (kind : PayloadKind) (e : Envelope) : Action Payload := do
  ask (·.checkEnvelope kind e)
  syncTo e.version
  ask fun c => c.context.group >>= e.payload.check
  return e.payload

end Connection
end SnapshotStore
