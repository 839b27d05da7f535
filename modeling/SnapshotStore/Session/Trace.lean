import SnapshotStore.Error.Boundary
import SnapshotStore.Session.Plan

/-!
Traces: the events that a call leaves behind. Failures are always reported; the entry, the
remark on the way and the exit depend on the level.
-/

namespace SnapshotStore

inductive Event
  | enter (operation : String)
  | detail (operation text : String)
  | leave (operation : String)
  | failed (operation : String) (error : BoundaryError)
  deriving DecidableEq

inductive Severity
  | trace
  | debug
  | warn
  deriving DecidableEq, Repr

def Severity.name : Severity → String
  | trace => "TRACE"
  | debug => "DEBUG"
  | warn => "WARN"

namespace Event

def severity : Event → Severity
  | failed _ e =>
    match e.kind with
    | .fatalError | .outOfMemory => .warn
    | _ => .debug
  | _ => .trace

def message : Event → String
  | enter _ => "enter"
  | detail .. => "detail"
  | leave _ => "leave"
  | failed .. => "Boundary operation failed"

/-- What an event says beside its message. -/
def fields : Event → List (String × String)
  | enter operation | leave operation => [("operation", operation)]
  | detail operation text => [("operation", operation), ("detail", text)]
  | failed operation e =>
    [("operation", operation), ("kind", e.kind.text), ("code", e.code), ("error", e.message)]

end Event

/-- The operation that a call's remark is about: both ways to move a read forward share it. -/
def Call.detailName : Call → String
  | .transact (.advance _) => "advance_read"
  | c => c.name

/-- The events of a call, in order. -/
def TraceLevel.events (level : TraceLevel) (c : Call) (result : Except Error Outcome) :
    List Event :=
  let entry := if level.includes .enter then [.enter c.name] else []
  match result with
  | .error e => entry ++ [.failed c.name (e.atBoundary c.name)]
  | .ok outcome =>
    let remark := if level.includes .detail then outcome.detail?.toList else []
    let exit := if level.includes .leave then [.leave c.name] else []
    entry ++ remark.map (.detail c.detailName) ++ exit

end SnapshotStore
