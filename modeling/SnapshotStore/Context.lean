import SnapshotStore.Group.Edit
import SnapshotStore.Store

/-!
Transaction contexts: at most one open read or write transaction each. A context moves
by transitions; the ones that fail leave it where it was, except that a write which cannot
be finished is given up.
-/

namespace SnapshotStore

inductive TransactionState
  | idle
  | reading (version : Version) (snapshot : Group)
  | writing (base : Version) (working : Group)
  deriving DecidableEq

namespace TransactionState

def text : TransactionState → String
  | idle => "idle"
  | reading v _ => s!"reading at {Version.text v}"
  | writing v _ => s!"writing on {Version.text v}"

/-- The version read, or the one that is being written on. -/
def version? : TransactionState → Option Version
  | idle => none
  | reading v _ => some v
  | writing v _ => some v

end TransactionState

structure Context where
  id : ContextId
  state : TransactionState
  /-- Raised whenever a transaction starts or ends. -/
  epoch : Nat
  lastVersion? : Option Version
  deriving DecidableEq

namespace Context

def new (id : ContextId) : Context := ⟨id, .idle, 0, none⟩

/-- The version of the open transaction, or of the last one. -/
def version? (c : Context) : Option Version := c.state.version?.or c.lastVersion?

def isInTransaction (c : Context) : Bool := c.state.version?.isSome

def isWriting (c : Context) : Bool :=
  match c.state with
  | .writing _ _ => true
  | _ => false

/-- The group that the open transaction sees. -/
def group (c : Context) : Except Error Group :=
  match c.state with
  | .reading _ g | .writing _ g => .ok g
  | .idle => .error (.invalidState "No transaction is open")

def notWriting : Error :=
  .invalidState "Cannot modify managed objects outside of a write transaction."

def requireWriting (c : Context) : Except Error Unit :=
  if c.isWriting then .ok () else .error notWriting

/-- The failure of an operation that the state does not allow. -/
def refusal (c : Context) (operation : String) : Error :=
  .invalidTransition operation c.state.text

def enterRead (c : Context) (v : Version) (g : Group) : Context :=
  { c with state := .reading v g, lastVersion? := some v }

/-- Enter a write transaction on a version, with a copy of its group to work on. -/
def enterWrite (c : Context) (base : Version) (g : Group) : Context :=
  { c with state := .writing base { g with revision := base + 1 }, lastVersion? := some base }

def enterIdle (c : Context) : Context := { c with state := .idle, epoch := c.epoch + 1 }

def newEpoch (c : Context) : Context := { c with epoch := c.epoch + 1 }

end Context

structure Advance where
  before : Version
  after : Version
  changes : ChangeSummary
  deriving DecidableEq

namespace Advance

def moved (a : Advance) : Bool := a.before ≠ a.after

def invalidates (a : Advance) (key : TableKey) : Bool := a.changes.invalidates key

end Advance

structure Connection where
  store : Store
  context : Context
  deriving DecidableEq

/-- A step of a connection that may fail; a failure says what became of the connection. -/
abbrev Action (α : Type) := EStateM Error Connection α

namespace Connection

def new (s : Store) : Connection :=
  let (id, s) := s.newContextId
  ⟨s, .new id⟩

/-- Whether the store has a version newer than the context has seen. -/
def hasChanged (c : Connection) : Bool :=
  match c.context.version? with
  | some v => v < c.store.latest
  | none => true

def refuse {α : Type} (operation : String) : Action α := fun c =>
  .error (c.context.refusal operation) c

/-- Start reading a version, or the latest. -/
def beginRead (at? : Option Version) : Action Version := fun c =>
  match c.context.state with
  | .idle =>
    match c.store.pin at? with
    | .ok ((v, g), store) => .ok v ⟨store, (c.context.enterRead v g).newEpoch⟩
    | .error e => .error e c
  | _ => refuse "begin_read" c

def endRead : Action Unit := fun c =>
  match c.context.state with
  | .reading v _ => .ok () ⟨c.store.unpin v, c.context.enterIdle⟩
  | _ => refuse "end_read" c

/-- Move the open read to a later version, or to the latest. -/
def advance (to? : Option Version) : Action Advance := fun c =>
  match c.context.state with
  | .reading current _ =>
    let target := to?.getD c.store.latest
    if target < current then
      .error (.badVersion target
        s!"{ContextId.text c.context.id} is already reading at {Version.text current}") c
    else if target = current then .ok ⟨current, current, .empty⟩ c
    else
      match c.store.changesBetween current target with
      | .error e => .error e c
      | .ok changes =>
        match c.store.pin (some target) with
        | .error e => .error e c
        | .ok ((v, g), store) =>
          .ok ⟨current, v, .collect changes⟩ ⟨store.unpin current, c.context.enterRead v g⟩
  | _ => refuse "advance_read" c

def beginWrite : Action Version := fun c =>
  match c.context.state with
  | .idle =>
    match c.store.acquireWriter c.context.id c.store.settings.writeTimeout? with
    | .error e => .error e c
    | .ok store =>
      match store.snapshot store.latest with
      | .error e => .error e ⟨store.releaseWriter c.context.id, c.context⟩
      | .ok g => .ok store.latest ⟨store, (c.context.enterWrite store.latest g).newEpoch⟩
  | _ => refuse "begin_write" c

/-- Turn the open read into a write on the latest version. -/
def promote : Action Advance := fun c =>
  match c.context.state with
  | .reading current _ =>
    match c.store.acquireWriter c.context.id c.store.settings.writeTimeout? with
    | .error e => .error e c
    | .ok store =>
      match store.changesBetween current store.latest, store.snapshot store.latest with
      | .ok changes, .ok g =>
        .ok ⟨current, store.latest, .collect changes⟩
          ⟨store.unpin current, c.context.enterWrite store.latest g⟩
      | .error e, _ | _, .error e => .error e ⟨store.releaseWriter c.context.id, c.context⟩
  | _ => refuse "promote_to_write" c

/-- Publish the open write and give the write lock back. A write that cannot be published
is given up. -/
def finishWrite (operation : String) (keepPinned : Bool) : Action Version := fun c =>
  match c.context.state with
  | .writing base g =>
    match c.store.commit c.context.id base g keepPinned with
    | .ok (v, store) =>
      .ok v ⟨store.releaseWriter c.context.id, { c.context with lastVersion? := some v }⟩
    | .error e => .error e ⟨c.store.releaseWriter c.context.id, c.context.enterIdle⟩
  | _ => refuse operation c

def commit : Action Version := fun c =>
  match finishWrite "commit" false c with
  | .ok v c => .ok v { c with context := c.context.enterIdle }
  | .error e c => .error e c

/-- Publish the open write and go on reading the new version. -/
def commitAndRead : Action Version := fun c =>
  match finishWrite "commit_and_continue_as_read" true c with
  | .error e c => .error e c
  | .ok v c =>
    match c.store.snapshot v with
    | .ok g => .ok v { c with context := c.context.enterRead v g }
    | .error e => .error e ⟨c.store.unpin v, c.context.enterIdle⟩

def rollback : Action Unit := fun c =>
  match c.context.state with
  | .writing _ _ => .ok () ⟨c.store.releaseWriter c.context.id, c.context.enterIdle⟩
  | _ => refuse "rollback" c

/-- Give up the open write and go on reading the version it was based on. -/
def rollbackAndRead : Action Version := fun c =>
  match c.context.state with
  | .writing base _ =>
    match c.store.pin (some base) with
    | .ok ((v, g), store) =>
      .ok v ⟨store.releaseWriter c.context.id, c.context.enterRead v g⟩
    | .error e => .error e ⟨c.store.releaseWriter c.context.id, c.context.enterIdle⟩
  | _ => refuse "rollback_and_continue_as_read" c

def edit (e : Edit) : Action (Option Nat) := fun c =>
  match c.context.state with
  | .writing base g =>
    match g.edit e with
    | (.ok made, g) => .ok made { c with context.state := .writing base g }
    | (.error e, g) => .error e { c with context.state := .writing base g }
  | _ => .error Context.notWriting c

/-- Leave the store, ending whatever transaction is open. -/
def close (c : Connection) : Store :=
  match c.context.state with
  | .idle => c.store
  | .reading v _ => c.store.unpin v
  | .writing _ _ => c.store.releaseWriter c.context.id

end Connection

inductive Transition
  | beginRead (at? : Option Version)
  | endRead
  | advance (to? : Option Version)
  | beginWrite
  | promote
  | commit
  | commitAndRead
  | rollback
  | rollbackAndRead
  deriving DecidableEq, Repr

namespace Transition

inductive Answer
  | done
  | arrived (version : Version)
  | advanced (advance : Advance)
  deriving DecidableEq

open Connection in
def perform : Transition → Action Answer
  | .beginRead at? => return .arrived (← Connection.beginRead at?)
  | .endRead => do Connection.endRead; return .done
  | .advance to? => return .advanced (← Connection.advance to?)
  | .beginWrite => return .arrived (← Connection.beginWrite)
  | .promote => return .advanced (← Connection.promote)
  | .commit => return .arrived (← Connection.commit)
  | .commitAndRead => return .arrived (← Connection.commitAndRead)
  | .rollback => do Connection.rollback; return .done
  | .rollbackAndRead => return .arrived (← Connection.rollbackAndRead)

end Transition
end SnapshotStore
