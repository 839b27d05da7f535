import SnapshotStore.Handover.Request

/-!
Batches: several requests evaluated against one and the same version. The envelopes must
all have been exported at one version, and every query is taken over and checked before
the first one is evaluated.
-/

namespace SnapshotStore

structure BatchItem where
  envelope : Envelope
  request : Request

namespace Connection

/-- Check one entry of a batch whose first entry was exported at the given version. -/
def checkBatchItem (c : Connection) (version : Version) (position : Nat) (e : Envelope) :
    Except Error Unit := do
  if !e.isQuery then
    throw (.illegalArgument s!"Batch entry {position} holds a {e.kind.name}, not a Query")
  c.checkEnvelope .query e
  if e.version ≠ version then
    throw (.badVersion e.version
      (s!"batch entry {position} was exported at a different version than entry 0 " ++
        s!"({Version.text version})"))

def checkBatchFrom (c : Connection) (version : Version) (position : Nat) :
    List BatchItem → Except Error Unit
  | [] => .ok ()
  | item :: rest =>
    match c.checkBatchItem version position item.envelope with
    | .ok () => c.checkBatchFrom version (position + 1) rest
    | .error e => .error e

/-- Check a batch as a whole; answers the version of its exports. -/
def checkBatch (c : Connection) (items : List BatchItem) : Except Error Version :=
  match items with
  | [] => .error (.illegalArgument "Batch must contain at least one query")
  | first :: _ => (c.checkBatchFrom first.envelope.version 0 items).map fun () =>
    first.envelope.version

/-- Run a batch. Answers the version of the evaluation and the responses in order. -/
def runBatch (items : List BatchItem) : Action (Version × List Response) := do
  let exportedAt ← ask (·.checkBatch items)
  releaseRead "batch"
  let _ ← beginRead (some exportedAt)
  endReadOnError do
    let queries ← items.mapM fun item => return (← importQuery item.envelope, item.request)
    let a ← advance none
    ask fun c => queries.forM fun (q, _) => c.checkStillValid q a
    let responses ← ask fun c => queries.mapM fun (q, r) => c.evaluate q r
    return (← ask (·.currentVersion), responses)

end Connection
end SnapshotStore
