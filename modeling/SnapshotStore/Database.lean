import SnapshotStore.Arena
import SnapshotStore.Envelope

/-!
Databases: a store together with the envelopes that are on their way between sessions.
-/

namespace SnapshotStore

structure Database where
  store : Store
  envelopes : Arena Envelope

namespace Database

def openNew (id : String) (settings : Settings) : Except Error Database :=
  (Store.openNew id settings).map fun store => ⟨store, .empty .envelope⟩

/-- The number of envelopes that nobody has taken yet. -/
def pendingEnvelopes (d : Database) : Nat := d.envelopes.size

def register (d : Database) (e : Envelope) : UInt64 × Database :=
  let (raw, envelopes) := d.envelopes.insert e
  (raw, { d with envelopes })

/-- Take an envelope if it passes the check; otherwise it stays registered. -/
def take (d : Database) (raw : UInt64) (check : Envelope → Except Error Unit) :
    Except Error (Envelope × Database) := do
  check (← d.envelopes.get raw)
  let (e, envelopes) ← d.envelopes.remove raw
  return (e, { d with envelopes })

/-- Check that the handles name registered envelopes, none of them twice and none of those
seen before. -/
def checkDistinct (d : Database) (seen : List UInt64) : List UInt64 → Except Error Unit
  | [] => .ok ()
  | raw :: rest =>
    match d.envelopes.check raw with
    | .error e => .error e
    | .ok () =>
      if raw ∈ seen then
        .error (.illegalArgument s!"Handover {Handle.rawText raw} appears more than once")
      else d.checkDistinct (raw :: seen) rest

/-- Take envelopes one after the other. -/
def removeAll (a : Arena Envelope) : List UInt64 → Except Error (List Envelope × Arena Envelope)
  | [] => .ok ([], a)
  | raw :: rest => do
    let (e, a) ← a.remove raw
    let (es, a) ← removeAll a rest
    return (e :: es, a)

/-- Take several envelopes, or none of them if one of the handles is no good. -/
def takeAll (d : Database) (raws : List UInt64) : Except Error (List Envelope × Database) := do
  d.checkDistinct [] raws
  let (es, envelopes) ← removeAll d.envelopes raws
  return (es, { d with envelopes })

end Database

structure Metrics where
  usage : Usage
  pendingEnvelopes : Nat
  latest : Version
  oldest : Version
  deriving DecidableEq, Repr

def Database.metrics (d : Database) : Metrics :=
  ⟨d.store.usage, d.pendingEnvelopes, d.store.latest, d.store.oldest⟩

end SnapshotStore
