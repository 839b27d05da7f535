import SnapshotStore.Error

/-!
Settings of a database: given once, when it is opened.
-/

namespace SnapshotStore

inductive Durability
  | full
  | memOnly
  | async
  deriving DecidableEq, Repr

namespace Durability

def all : List Durability := [full, memOnly, async]

def name : Durability → String
  | full => "Full"
  | memOnly => "MemOnly"
  | async => "Async"

end Durability

/-- How much of its work a session reports. Each level includes those below it. -/
inductive TraceLevel
  | errors
  | enter
  | detail
  | leave
  deriving DecidableEq, Repr

namespace TraceLevel

def all : List TraceLevel := [errors, enter, detail, leave]

def name : TraceLevel → String
  | errors => "Errors"
  | enter => "Enter"
  | detail => "Detail"
  | leave => "Leave"

def rank : TraceLevel → Nat
  | errors => 0
  | enter => 1
  | detail => 2
  | leave => 3

def includes (level other : TraceLevel) : Bool := other.rank ≤ level.rank

def order (a b : TraceLevel) : Ordering := Ord.compare a.rank b.rank

end TraceLevel

structure Settings where
  path? : Option String := none
  encryptionKey? : Option (List UInt8) := none
  durability : Durability := .full
  traceLevel : TraceLevel := .errors
  /-- How many of the most recent versions are always kept. -/
  historyRetention : Nat := 16
  /-- How long a writer waits for its turn, in milliseconds; without a limit if absent. -/
  writeTimeout? : Option Nat := none
  deriving DecidableEq, Repr

namespace Settings

def keyLength : Nat := 64

/-- Settings of a database that keeps nothing on disk. -/
def inMemory : Settings := { durability := .memOnly }

/-- Check that a database can be opened with the settings. -/
def check (s : Settings) : Except Error Unit := do
  if let some key := s.encryptionKey? then
    if key.length ≠ keyLength then
      throw (.illegalArgument s!"Encryption key must be {keyLength} bytes, got {key.length}")
  if s.historyRetention = 0 then
    throw (.invalidConfig "history_retention must be at least 1")

end Settings
end SnapshotStore
