import SnapshotStore.ColumnType
import SnapshotStore.Handle
import SnapshotStore.Version

/-!
Everything that can go wrong inside the library, and how each failure reads.
-/

namespace SnapshotStore

inductive FileCause
  | notFound
  | permissionDenied
  | alreadyExists
  | timedOut
  | other
  deriving DecidableEq, Repr

namespace FileCause

def all : List FileCause := [notFound, permissionDenied, alreadyExists, timedOut, other]

def name : FileCause → String
  | notFound => "NotFound"
  | permissionDenied => "PermissionDenied"
  | alreadyExists => "AlreadyExists"
  | timedOut => "TimedOut"
  | other => "Other"

end FileCause

inductive FileErrorKind
  | accessError
  | permissionDenied
  | alreadyExists
  | notFound
  | incompatibleLockFile
  | formatUpgradeRequired
  deriving DecidableEq, Repr

namespace FileErrorKind

def all : List FileErrorKind :=
  [accessError, permissionDenied, alreadyExists, notFound, incompatibleLockFile,
    formatUpgradeRequired]

def name : FileErrorKind → String
  | accessError => "AccessError"
  | permissionDenied => "PermissionDenied"
  | alreadyExists => "Exists"
  | notFound => "NotFound"
  | incompatibleLockFile => "IncompatibleLockFile"
  | formatUpgradeRequired => "FormatUpgradeRequired"

def ofCause : FileCause → FileErrorKind
  | .notFound => notFound
  | .permissionDenied => permissionDenied
  | .alreadyExists => alreadyExists
  | .timedOut | .other => accessError

end FileErrorKind

inductive Error
  /-- The object belongs to a transaction or schema that is over. -/
  | detached (subject : String)
  | invalidState (reason : String)
  | invalidTransition (operation state : String)
  /-- The table an object depends on was removed or has other columns now. -/
  | schemaChanged (subject table : String)
  | alreadyConsumed (handle : String)
  /-- Another context kept the write lock for as long as the caller waited. -/
  | writerBusy (waitedMillis : Nat)
  | columnOutOfRange (index : Int) (count : Nat)
  /-- With `allowEnd`, the position after the last row was allowed too. -/
  | rowOutOfRange (index : Int) (size : Nat) (allowEnd : Bool)
  | invalidRange (reason : String)
  | typeMismatch (column : Nat) (expected : ColumnType) (actual : String)
  | badVersion (requested : Version) (reason : String)
  | wrongHandleKind (raw : UInt64) (expected : HandleKind)
  | illegalArgument (reason : String)
  | unsupported (reason : String)
  | outOfMemory (reason : String)
  | io (cause : FileCause) (reason : String)
  | file (kind : FileErrorKind) (path reason : String)
  | invalidConfig (reason : String)
  | internal (reason : String)
  /-- The call panicked, which is caught at the boundary. -/
  | panicked (reason : String)
  deriving DecidableEq

namespace Error

def name : Error → String
  | detached .. => "Detached"
  | invalidState .. => "InvalidState"
  | invalidTransition .. => "InvalidTransition"
  | schemaChanged .. => "SchemaChanged"
  | alreadyConsumed .. => "AlreadyConsumed"
  | writerBusy .. => "WriterBusy"
  | columnOutOfRange .. => "ColumnOutOfRange"
  | rowOutOfRange .. => "RowOutOfRange"
  | invalidRange .. => "InvalidRange"
  | typeMismatch .. => "TypeMismatch"
  | badVersion .. => "BadVersion"
  | wrongHandleKind .. => "WrongHandleKind"
  | illegalArgument .. => "IllegalArgument"
  | unsupported .. => "Unsupported"
  | outOfMemory .. => "OutOfMemory"
  | io .. => "Io"
  | file .. => "File"
  | invalidConfig .. => "InvalidConfig"
  | internal .. => "Internal"
  | panicked .. => "Panic"

def columnBound (index : Int) : String :=
  if index < 0 then "columnIndex is less than 0." else "columnIndex > available columns."

def rowBound (index : Int) (size : Nat) (allowEnd : Bool) : String :=
  if index < 0 then "rowIndex is less than 0."
  else if allowEnd then s!"rowIndex {index} > available rows ({size})."
  else s!"rowIndex {index} >= available rows ({size})."

def message : Error → String
  | detached subject => s!"{subject} is no longer valid to operate on"
  | invalidState reason => reason
  | invalidTransition operation state => s!"cannot {operation} while {state}"
  | schemaChanged subject table =>
    s!"{subject} depends on {table}, which was removed or changed its schema"
  | alreadyConsumed handle => s!"handover {handle} has already been consumed"
  | writerBusy waited => s!"write lock is held by another context (waited {waited}ms)"
  | columnOutOfRange index _ => columnBound index
  | rowOutOfRange index size allowEnd => rowBound index size allowEnd
  | invalidRange reason => reason
  | typeMismatch column expected actual =>
    s!"column {column} has type {actual}, expected {expected.name}"
  | badVersion requested reason =>
    s!"version {Version.text requested} is not available: {reason}"
  | wrongHandleKind raw expected =>
    s!"handle {Handle.rawText raw} does not refer to a {expected.name}"
  | illegalArgument reason => reason
  | unsupported reason => reason
  | outOfMemory reason => reason
  | io _ reason => s!"I/O error: {reason}"
  | file kind path reason => s!"{kind.name} on '{path}': {reason}"
  | invalidConfig reason => s!"invalid configuration: {reason}"
  | internal reason => s!"internal error: {reason}"
  | panicked reason => reason

def isDetached : Error → Bool
  | detached _ => true
  | _ => false

def isBadVersion : Error → Bool
  | badVersion .. => true
  | _ => false

def isOutOfRange : Error → Bool
  | columnOutOfRange .. | rowOutOfRange .. | invalidRange _ => true
  | _ => false

/-- A position as callers see it: a signed 64-bit number. -/
def signed (index : Nat) : Int := (index : Int).bmod 0x10000000000000000

end Error
end SnapshotStore
