import SnapshotStore.Error

/-!
Arenas: slots for objects of one kind, named by handles. Taking an object out moves its
slot to a new generation, so an old handle is told apart from the slot's next object.
Freed slots are used again oldest first.
-/

namespace SnapshotStore

universe u

namespace Arena

structure Slot (α : Type u) where
  generation : Nat
  object? : Option α

/-- The generation after this one. Generations are 24 bits wide and never zero. -/
def nextGeneration (generation : Nat) : Nat :=
  max 1 ((generation + 1) % 0x1000000)

end Arena

structure Arena (α : Type u) where
  kind : HandleKind
  slots : List (Arena.Slot α)
  /-- Empty slots, the longest empty first. -/
  free : List Nat
  /-- The number of objects, counted as they come and go. -/
  live : Nat

namespace Arena
variable {α : Type u}

def empty (kind : HandleKind) : Arena α := ⟨kind, [], [], 0⟩

def size (a : Arena α) : Nat := a.live

def isEmpty (a : Arena α) : Bool := a.size = 0

/-- Store an object; answers its handle. -/
def insert (a : Arena α) (object : α) : UInt64 × Arena α :=
  match a.free with
  | slot :: free =>
    let generation := a.slots[slot]?.elim 1 (·.generation)
    ((Handle.ofParts a.kind slot generation).encode,
      { a with
        slots := a.slots.set slot ⟨generation, some object⟩
        free
        live := a.live + 1 })
  | [] =>
    ((Handle.ofParts a.kind a.slots.length 1).encode,
      { a with slots := a.slots ++ [⟨1, some object⟩], live := a.live + 1 })

/-- The handle behind a raw number, if it names an object of the arena's kind. -/
def decode (a : Arena α) (raw : UInt64) : Except Error Handle :=
  match Handle.decode? raw with
  | none => .error (.illegalArgument s!"{Handle.rawText raw} is not a valid handle")
  | some handle =>
    if handle.kind = a.kind then .ok handle else .error (.wrongHandleKind raw a.kind)

def stale (a : Arena α) (handle : Handle) : Error :=
  match a.kind with
  | .envelope => .alreadyConsumed handle.text
  | kind => .detached kind.name

/-- The handle behind a raw number, if its slot holds an object of its generation. -/
def locate (a : Arena α) (raw : UInt64) : Except Error Handle :=
  match a.decode raw with
  | .error e => .error e
  | .ok handle =>
    match a.slots[handle.slot]? with
    | some ⟨generation, some _⟩ =>
      if generation = handle.generation then .ok handle else .error (a.stale handle)
    | _ => .error (a.stale handle)

def object? (a : Arena α) (slot : Nat) : Option α := a.slots[slot]?.bind (·.object?)

def get (a : Arena α) (raw : UInt64) : Except Error α :=
  match a.locate raw with
  | .error e => .error e
  | .ok handle =>
    match a.object? handle.slot with
    | some object => .ok object
    | none => .error (a.stale handle)

def check (a : Arena α) (raw : UInt64) : Except Error Unit := (a.locate raw).map fun _ => ()

def contains (a : Arena α) (raw : UInt64) : Bool := (a.locate raw).isOk

def put (a : Arena α) (slot : Nat) (object : α) : Arena α :=
  { a with slots := a.slots.modify slot fun s => { s with object? := some object } }

/-- Change the object that a handle names; the handle stays good. -/
def modify (a : Arena α) (raw : UInt64) (f : α → α) : Except Error (Arena α) :=
  match a.locate raw with
  | .error e => .error e
  | .ok handle =>
    match a.object? handle.slot with
    | some object => .ok (a.put handle.slot (f object))
    | none => .error (a.stale handle)

def Slot.retire (s : Slot α) : Slot α := ⟨nextGeneration s.generation, none⟩

def vacate (a : Arena α) (slot : Nat) : Arena α :=
  { a with
    slots := a.slots.modify slot .retire
    free := a.free ++ [slot]
    live := a.live - 1 }

/-- Take out the object that a handle names; the handle becomes stale. -/
def remove (a : Arena α) (raw : UInt64) : Except Error (α × Arena α) :=
  match a.locate raw with
  | .error e => .error e
  | .ok handle =>
    match a.object? handle.slot with
    | some object => .ok (object, a.vacate handle.slot)
    | none => .error (.internal "slot emptied while located")

def clear (a : Arena α) : Arena α :=
  { a with
    slots := a.slots.map fun s => if s.object?.isSome then s.retire else s
    free := a.free ++ (List.range a.slots.length).filter fun slot =>
      a.slots[slot]?.any (·.object?.isSome)
    live := 0 }

end Arena
end SnapshotStore
