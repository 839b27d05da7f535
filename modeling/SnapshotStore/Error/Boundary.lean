import SnapshotStore.Error
import SnapshotStore.Text.Quoted

/-!
Failures as callers of the boundary see them: a closed set of kinds, a code that names
the cause inside its kind, the object concerned and a table of details.
-/

namespace SnapshotStore

namespace BoundaryError

inductive Kind
  | illegalState
  | indexOutOfBounds
  | typeMismatch
  | badVersion
  | illegalArgument
  | unsupportedOperation
  | outOfMemory
  | fileError (kind : FileErrorKind)
  | runtimeError
  | fatalError
  deriving DecidableEq, Repr

namespace Kind

def all : List Kind :=
  [illegalState, indexOutOfBounds, typeMismatch, badVersion, illegalArgument,
    unsupportedOperation, outOfMemory, runtimeError, fatalError] ++
  FileErrorKind.all.map fileError

def name : Kind → String
  | illegalState => "IllegalState"
  | indexOutOfBounds => "IndexOutOfBounds"
  | typeMismatch => "TypeMismatch"
  | badVersion => "BadVersion"
  | illegalArgument => "IllegalArgument"
  | unsupportedOperation => "UnsupportedOperation"
  | outOfMemory => "OutOfMemory"
  | fileError _ => "FileError"
  | runtimeError => "RuntimeError"
  | fatalError => "FatalError"

/-- The name, with the cause of a file error beside it. -/
def text : Kind → String
  | fileError kind => s!"FileError({kind.name})"
  | kind => kind.name

end Kind

/-- Named details in the order of their names, each name once. -/
abbrev Details := List (String × String)

def Details.insert (key value : String) : Details → Details
  | [] => [(key, value)]
  | (k, v) :: rest =>
    if key < k then (key, value) :: (k, v) :: rest
    else if key = k then (key, value) :: rest
    else (k, v) :: Details.insert key value rest

end BoundaryError

structure BoundaryError where
  kind : BoundaryError.Kind
  code : String
  /-- The object or operation concerned; empty when there is none to name. -/
  subject : String
  message : String
  details : BoundaryError.Details
  deriving DecidableEq

namespace BoundaryError

/-- A failure whose code is the name of its kind. -/
def ofKind (kind : Kind) (subject message : String) : BoundaryError :=
  { kind, code := kind.name, subject, message, details := [] }

def withCode (e : BoundaryError) (code : String) : BoundaryError := { e with code }

def withDetail (e : BoundaryError) (key value : String) : BoundaryError :=
  { e with details := Details.insert key value e.details }

/-- A failure after which the operation cannot be trusted to have kept its promises. -/
def fatal (operation reason : String) : BoundaryError :=
  (ofKind .fatalError operation ("Unrecoverable error: " ++ reason)).withCode "Panic"

def isDetached (e : BoundaryError) : Bool := e.code = "Detached"

/-- The details as they are sent: with the subject, and with the cause of a file error. -/
def sentDetails (e : BoundaryError) : Details :=
  let details :=
    if e.subject.isEmpty then e.details else Details.insert "subject" e.subject e.details
  match e.kind with
  | .fileError kind => Details.insert "file_error" kind.name details
  | _ => details

def text (e : BoundaryError) : String := s!"{e.kind.text} [{e.code}]: {e.message}"

def detachedMessage (subject : String) : String :=
  if subject = "Row" then
    "Object is no longer valid to operate on. Was it deleted by another thread?"
  else s!"{subject} is no longer valid to operate on."

def member (name value : String) : String := Text.quote name ++ ":" ++ Text.quote value

/-- The JSON object of a failure; an empty table of details is left out. -/
def json (e : BoundaryError) : String :=
  let members := [member "kind" e.kind.name, member "code" e.code, member "message" e.message]
  let details := e.sentDetails.map fun (key, value) => member key value
  let members :=
    if details.isEmpty then members
    else members ++ ["\"details\":\x7b" ++ ",".intercalate details ++ "\x7d"]
  "\x7b" ++ ",".intercalate members ++ "\x7d"

end BoundaryError

/-- The failure of an operation as it leaves the boundary. -/
def Error.atBoundary (operation : String) (e : Error) : BoundaryError :=
  let report (kind : BoundaryError.Kind) (subject : String) : BoundaryError :=
    .ofKind kind subject e.message
  match e with
  | .detached subject =>
    (BoundaryError.ofKind .illegalState subject (BoundaryError.detachedMessage subject)).withCode
      "Detached"
  | .invalidState _ => (report .illegalState "transaction").withCode "StateInvalid"
  | .invalidTransition operation state =>
    (((report .illegalState "transaction").withCode "StateInvalid").withDetail
      "operation" operation).withDetail "state" state
  | .schemaChanged subject table =>
    ((report .illegalState subject).withCode "SchemaChanged").withDetail "table" table
  | .alreadyConsumed handle =>
    ((report .illegalState "Handover").withCode "AlreadyConsumed").withDetail "handle" handle
  | .writerBusy waited =>
    ((report .runtimeError "transaction").withCode "WriterBusy").withDetail
      "waited_ms" (toString waited)
  | .columnOutOfRange index count =>
    (((report .indexOutOfBounds "column").withCode "ColumnOutOfRange").withDetail
      "index" (toString index)).withDetail "count" (toString count)
  | .rowOutOfRange index size _ =>
    (((report .indexOutOfBounds "row").withCode "RowOutOfRange").withDetail
      "index" (toString index)).withDetail "size" (toString size)
  | .invalidRange _ => (report .indexOutOfBounds "range").withCode "InvalidRange"
  | .typeMismatch column expected actual =>
    (((report .typeMismatch "column").withDetail "column" (toString column)).withDetail
      "expected" expected.name).withDetail "actual" actual
  | .badVersion requested _ =>
    (report .badVersion "version").withDetail "requested" (Version.text requested)
  | .wrongHandleKind raw expected =>
    ((report .illegalArgument expected.name).withCode "WrongHandleKind").withDetail
      "handle" (Handle.rawText raw)
  | .illegalArgument _ => report .illegalArgument "argument"
  | .unsupported _ => (report .unsupportedOperation "operation").withCode "Unsupported"
  | .outOfMemory _ => report .outOfMemory "memory"
  | .io cause _ => (report (.fileError (.ofCause cause)) "file").withCode "Io"
  | .file kind path _ =>
    ((report (.fileError kind) "file").withCode kind.name).withDetail "path" path
  | .invalidConfig _ => (report .illegalArgument "configuration").withCode "InvalidConfig"
  | .internal _ => (report .fatalError "engine").withCode "Internal"
  | .panicked reason => .fatal operation reason

/-- Failures of the outermost layer: those of the boundary, and settings that cannot be
used before there is a database at all. -/
inductive OpenError
  | boundary (error : BoundaryError)
  | settings (reason : String)
  deriving DecidableEq

namespace OpenError

def ofError : Error → OpenError
  | .invalidConfig reason => settings reason
  | e => boundary (e.atBoundary "open")

def kind? : OpenError → Option BoundaryError.Kind
  | boundary e => some e.kind
  | settings _ => none

def isDetached : OpenError → Bool
  | boundary e => e.isDetached
  | settings _ => false

def isBadVersion (e : OpenError) : Bool := e.kind? = some .badVersion

/-- Whether the failure is beyond recovery. -/
def isSerious (e : OpenError) : Bool := e.kind? = some .fatalError

def text : OpenError → String
  | boundary e => e.text
  | settings reason => s!"configuration error: {reason}"

end OpenError
end SnapshotStore
