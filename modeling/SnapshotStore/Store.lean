import SnapshotStore.Changeset
import SnapshotStore.Settings

/-!
Stores: the committed versions that are still kept, the changes between them, the pins
of readers and the single write lock. A version is dropped once it is not the latest,
not among the most recent ones to keep and not pinned.
-/

namespace SnapshotStore

structure Usage where
  /-- Calls that sessions forwarded to the store. -/
  engineCalls : Nat := 0
  commits : Nat := 0
  versionsDropped : Nat := 0
  deriving DecidableEq, Repr

structure Store where
  /-- Tells the envelopes of this store from those of others. -/
  id : String
  settings : Settings
  snapshots : NatMap Group
  /-- For each version, what its commit changed. -/
  changes : NatMap Changeset
  /-- How many readers hold each version. -/
  pins : NatMap Nat
  latest : Version
  writer? : Option ContextId
  nextContext : ContextId
  usage : Usage
  deriving DecidableEq

namespace Store

def openNew (id : String) (settings : Settings) : Except Error Store := do
  settings.check
  return {
    id, settings
    snapshots := NatMap.empty.insert Version.initial Group.empty
    changes := ∅
    pins := ∅
    latest := Version.initial
    writer? := none
    nextContext := 1
    usage := {} }

def oldest (s : Store) : Version := s.snapshots.firstKey?.getD s.latest

def retained (s : Store) : List Version := s.snapshots.keys

def isRetained (s : Store) (v : Version) : Bool := s.snapshots.contains v

def pinCount (s : Store) (v : Version) : Nat := (s.pins.get? v).getD 0

/-- The failure of reading a version that is not kept. -/
def unavailable (s : Store) (v : Version) : Error :=
  if s.latest < v then .badVersion v s!"latest version is {Version.text s.latest}"
  else .badVersion v
    s!"it has been compacted (oldest retained is {Version.text s.oldest})"

def snapshot (s : Store) (v : Version) : Except Error Group :=
  match s.snapshots.get? v with
  | some g => .ok g
  | none => .error (s.unavailable v)

def addPin (s : Store) (v : Version) : Store :=
  { s with pins := s.pins.insert v (s.pinCount v + 1) }

/-- Pin a version, or the latest, for reading. -/
def pin (s : Store) (at? : Option Version) : Except Error ((Version × Group) × Store) :=
  let v := at?.getD s.latest
  (s.snapshot v).map fun g => ((v, g), s.addPin v)

/-- The smallest version that is kept for being recent. -/
def recentFloor (s : Store) : Version := s.latest - (max s.settings.historyRetention 1 - 1)

def mustKeep (s : Store) (v : Version) : Bool :=
  s.recentFloor ≤ v || v = s.latest || s.pins.contains v

/-- Drop every version that need not be kept, and the changes that led up to the oldest one
left; answers how many versions went. -/
def compact (s : Store) : Nat × Store :=
  let kept := s.snapshots.filterKeys s.mustKeep
  let dropped := s.snapshots.size - kept.size
  let changes :=
    match kept.firstKey? with
    | some oldest => s.changes.filterKeys fun v => decide (oldest < v)
    | none => s.changes
  (dropped, { s with
    snapshots := kept
    changes
    usage := { s.usage with versionsDropped := s.usage.versionsDropped + dropped } })

/-- Give up one pin of a version. A version without pins is left alone. -/
def unpin (s : Store) (v : Version) : Store :=
  match s.pins.get? v with
  | none => s
  | some n =>
    let pins := if n ≤ 1 then s.pins.erase v else s.pins.insert v (n - 1)
    { s with pins }.compact.2

/-- Take the write lock. While another context holds it, the caller waits for as long as it
may and then fails; nobody else runs meanwhile, so the wait does not end earlier. The failure
tells how long the caller was to wait, not the time that it took. A caller with no limit would
wait for ever; here it fails like one that may not wait at all. -/
def acquireWriter (s : Store) (context : ContextId) (timeout? : Option Nat) :
    Except Error Store :=
  match s.writer? with
  | none => .ok { s with writer? := some context }
  | some holder =>
    if holder = context then
      .error (.invalidState s!"{ContextId.text context} already holds the write lock")
    else .error (.writerBusy (timeout?.getD 0))

/-- Give the write lock back, if the context holds it. -/
def releaseWriter (s : Store) (context : ContextId) : Store :=
  if s.writer? = some context then { s with writer? := none } else s

/-- The store after a group was published as the version after the latest. -/
def publish (s : Store) (g : Group) (previous : Group) (keepPinned : Bool) : Store :=
  let v := s.latest + 1
  let s := { s with
    snapshots := s.snapshots.insert v g
    changes := s.changes.insert v (.between v previous g)
    latest := v
    usage := { s.usage with commits := s.usage.commits + 1 } }
  (if keepPinned then s.addPin v else s).compact.2

/-- Publish a group as the next version. The context must hold the write lock and have
started from the latest version. -/
def commit (s : Store) (context : ContextId) (base : Version) (g : Group)
    (keepPinned : Bool) : Except Error (Version × Store) :=
  if s.writer? ≠ some context then
    .error (.invalidState s!"{ContextId.text context} does not hold the write lock")
  else if base ≠ s.latest then
    .error (.internal
      s!"write transaction based on {Version.text base} but latest is {Version.text s.latest}")
  else
    match s.snapshots.get? base with
    | none => .error (.internal s!"latest version {Version.text base} missing")
    | some previous => .ok (base + 1, s.publish g previous keepPinned)

/-- The changes of every commit after one version up to another, oldest first. -/
def changesBetween (s : Store) (start stop : Version) : Except Error (List Changeset) :=
  if stop < start then
    .error (.badVersion stop s!"cannot move back from {Version.text start}")
  else if stop = start then .ok []
  else
    let found := (s.changes.filterKeys fun v => decide (start < v ∧ v ≤ stop)).values
    if found.length ≠ stop - start then
      .error (.badVersion start "its change log has been compacted")
    else .ok found

def newContextId (s : Store) : ContextId × Store :=
  (s.nextContext, { s with nextContext := s.nextContext + 1 })

def recordCall (s : Store) : Store :=
  { s with usage := { s.usage with engineCalls := s.usage.engineCalls + 1 } }

end Store
end SnapshotStore
