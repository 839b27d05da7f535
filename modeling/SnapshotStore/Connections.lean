import SnapshotStore.Context

/-!
Connections: a store and every context that works on it. The contexts take turns; each
acts on the store as the others have left it.
-/

namespace SnapshotStore

/-- A store and its contexts. They interleave by whole operations only: each is over before another
context begins one. The locks of the store itself are held for one access at a time, so operations
that run at once may interleave in more ways than these. -/
structure Connections where
  store : Store
  /-- The live contexts by their identities. -/
  contexts : NatMap Context
  deriving DecidableEq

namespace Connections

def new (store : Store) : Connections := ⟨store, ∅⟩

/-- Connect a new context; answers its identity. -/
def connect (cs : Connections) : ContextId × Connections :=
  let c := Connection.new cs.store
  (c.context.id, ⟨c.store, cs.contexts.insert c.context.id c.context⟩)

/-- A context together with the store. -/
def get? (cs : Connections) (id : ContextId) : Option Connection :=
  (cs.contexts.get? id).map fun context => ⟨cs.store, context⟩

def put (cs : Connections) (c : Connection) : Connections :=
  ⟨c.store, cs.contexts.insert c.context.id c.context⟩

/-- Let a context act. None if there is no such context. -/
def act {α : Type} (cs : Connections) (id : ContextId) (a : Action α) :
    Option (Except Error α × Connections) :=
  (cs.get? id).map fun c =>
    match a c with
    | .ok x c => (.ok x, cs.put c)
    | .error e c => (.error e, cs.put c)

/-- Let go of a context; whatever transaction it has open ends. -/
def disconnect (cs : Connections) (id : ContextId) : Connections :=
  match cs.get? id with
  | none => cs
  | some c => ⟨c.close, cs.contexts.erase id⟩

end Connections
end SnapshotStore
