import SnapshotStore.NameIndex
import SnapshotStore.NatMap
import SnapshotStore.Table

/-!
Groups: all tables of one snapshot. A group belongs to a revision, and each table of it
remembers the revision of the last attempt to write to it, so two groups share a table
exactly when they hold it with the same mark.
-/

namespace SnapshotStore

namespace Group

structure Entry where
  table : Table
  /-- The revision whose writer last touched the table. -/
  writtenIn : Version
  deriving DecidableEq

end Group

structure Group where
  tables : NatMap Group.Entry
  names : NameIndex
  /-- The last key given to a table. Keys count up from one. -/
  lastKey : TableKey
  /-- The version this group is, or is being written to become. -/
  revision : Version
  deriving DecidableEq

namespace Group

def empty : Group := ⟨∅, ∅, 0, Version.initial⟩

def tableCount (g : Group) : Nat := g.tables.size

def tableKeys (g : Group) : List TableKey := g.tables.keys

def allTables (g : Group) : List Table := g.tables.values.map (·.table)

def table? (g : Group) (key : TableKey) : Option Table := (g.tables.get? key).map (·.table)

def requireTable (g : Group) (key : TableKey) : Except Error Table :=
  match g.table? key with
  | some t => .ok t
  | none => .error (.detached "Table")

def tableKey? (g : Group) (name : String) : Option TableKey := g.names.find? name

def hasTable (g : Group) (name : String) : Bool := (g.tableKey? name).isSome

/-- Put a table in place, marked as written in this revision. -/
def put (g : Group) (key : TableKey) (t : Table) : Group :=
  { g with tables := g.tables.insert key ⟨t, g.revision⟩ }

/-- Write to a table. A write that is refused leaves the table as it was but still marks
it as written. -/
def write {α : Type} (g : Group) (key : TableKey) (f : Table → Except Error (α × Table)) :
    Except Error α × Group :=
  match g.table? key with
  | none => (.error (.detached "Table"), g)
  | some t =>
    match f t with
    | .error e => (.error e, g.put key t)
    | .ok (made, t') => (.ok made, g.put key t')

/-- A write that answers nothing. -/
def overwrite (g : Group) (key : TableKey) (f : Table → Except Error Table) :
    Except Error Unit × Group :=
  g.write key fun t => (f t).map ((), ·)

/-- Change the links into a table, in every table that has columns for them. -/
def mapLinks (g : Group) (target : TableKey) (f : Value → Value) : Group :=
  { g with
    tables := g.tables.mapValues fun e =>
      if e.table.linksTo target then ⟨e.table.mapLinks target f, g.revision⟩ else e }

/-- Create a table; answers its key. -/
def addTable (g : Group) (name : String) : Except Error (TableKey × Group) :=
  if name.isEmpty then .error (.illegalArgument "Table name must not be empty")
  else if g.hasTable name then .error (.illegalArgument s!"Table '{name}' already exists")
  else
    let key := g.lastKey + 1
    .ok (key,
      { g with names := g.names.insert name key, lastKey := key }.put key (.empty key name))

/-- Remove a table to which no other table links. -/
def removeTable (g : Group) (key : TableKey) : Except Error Group := do
  let t ← g.requireTable key
  match g.allTables.find? fun origin => origin.key ≠ key && origin.linksTo key with
  | some origin =>
    throw (.illegalArgument
      s!"Table '{t.name}' is the target of a link column in '{origin.name}'")
  | none => return { g with tables := g.tables.erase key, names := g.names.erase t.name }

/-- Remove a row and keep every link into its table on the row it pointed to. -/
def removeRow (g : Group) (key : TableKey) (row : Nat) : Except Error Unit × Group :=
  match g.overwrite key (·.removeRow row) with
  | (.error e, g) => (.error e, g)
  | (.ok (), g) => (.ok (), g.mapLinks key (.afterRowRemoved row))

/-- Remove all rows of a table, and with them every link into it. -/
def clearTable (g : Group) (key : TableKey) : Except Error Unit × Group :=
  match g.overwrite key (fun t => .ok t.clear) with
  | (.error e, g) => (.error e, g)
  | (.ok (), g) => (.ok (), g.mapLinks key .afterRowsCleared)

/-- The table that a column of the expected link type points into. -/
def linkTarget (g : Group) (key : TableKey) (column : Nat) (expected : ColumnType) :
    Except Error TableKey := do
  let t ← g.requireTable key
  let c ← t.column column
  if c.type ≠ expected then
    throw (.typeMismatch column expected c.type.name)
  match c.target? with
  | some target => return target
  | none => throw (.internal "link column without target")

def checkTargetRow (g : Group) (target : TableKey) (row : Nat) : Except Error Unit := do
  let t ← g.requireTable target
  if t.size ≤ row then
    throw (.rowOutOfRange (Error.signed row) t.size false)

/-- Write to a cell that links into another table, once the target row is known to exist. -/
def writeLink (g : Group) (key : TableKey) (column target : Nat) (expected : ColumnType)
    (f : Table → Except Error Table) : Except Error Unit × Group :=
  match g.linkTarget key column expected >>= fun into => g.checkTargetRow into target with
  | .error e => (.error e, g)
  | .ok () => g.overwrite key f

def setLink (g : Group) (key : TableKey) (column row target : Nat) : Except Error Unit × Group :=
  g.writeLink key column target .link (·.set column row (.link target))

def pushLink (g : Group) (key : TableKey) (column row target : Nat) :
    Except Error Unit × Group :=
  g.writeLink key column target .linkList (·.pushLink column row target)

end Group
end SnapshotStore
