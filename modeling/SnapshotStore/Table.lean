import SnapshotStore.Column
import SnapshotStore.Error
import SnapshotStore.Value

/-!
Tables: typed columns and rows of cells. Each change of the columns raises the schema
epoch, and each row has an identity that the table never gives to another row.
-/

namespace SnapshotStore

structure Table where
  key : TableKey
  name : String
  columns : List Column
  /-- The cells, row by row. -/
  rows : List (List Value)
  /-- The identities of the rows, kept beside the cells. -/
  rowIds : List RowId
  nextRowId : RowId
  /-- Raised whenever a column is added or removed. -/
  schemaEpoch : Nat
  deriving DecidableEq

namespace Value

/-- A link cell after a row of its target table was removed: a link to that row becomes
null, and links to later rows follow them down. -/
def afterRowRemoved (removed : Nat) : Value → Value
  | link row =>
    if row = removed then null else if removed < row then link (row - 1) else link row
  | linkList rows =>
    linkList ((rows.filter (· ≠ removed)).map fun row => if removed < row then row - 1 else row)
  | v => v

/-- A link cell after its target table lost all rows. -/
def afterRowsCleared : Value → Value
  | linkList _ => linkList []
  | _ => null

end Value

namespace Table

def empty (key : TableKey) (name : String) : Table := ⟨key, name, [], [], [], 0, 0⟩

def columnCount (t : Table) : Nat := t.columns.length

def size (t : Table) : Nat := t.rows.length

def isEmpty (t : Table) : Bool := t.rows.isEmpty

def column (t : Table) (index : Nat) : Except Error Column :=
  match t.columns[index]? with
  | some c => .ok c
  | none => .error (.columnOutOfRange (Error.signed index) t.columnCount)

def columnType (t : Table) (index : Nat) : Except Error ColumnType :=
  (t.column index).map (·.type)

def columnIndex? (t : Table) (name : String) : Option Nat :=
  t.columns.findIdx? (·.name = name)

def row (t : Table) (index : Nat) : Except Error (List Value) :=
  match t.rows[index]? with
  | some cells => .ok cells
  | none => .error (.rowOutOfRange (Error.signed index) t.size false)

/-- The cell of a column in a row; the column is looked up first. -/
def get (t : Table) (column row : Nat) : Except Error Value := do
  let _ ← t.column column
  let cells ← t.row row
  return cells[column]?.getD .null

/-- The cell of a column in a row, if it is there. -/
def cell? (t : Table) (column row : Nat) : Option Value := t.rows[row]?.bind (·[column]?)

/-- The type of what a cell holds; none for null. -/
def cellType (t : Table) (column row : Nat) : Except Error (Option ColumnType) :=
  (t.get column row).map (·.type?)

def rowId? (t : Table) (index : Nat) : Option RowId := t.rowIds[index]?

/-- Where the row with the identity stands now. The hint is a position to try first. -/
def findRow? (t : Table) (id : RowId) (hint : Nat) : Option Nat :=
  if t.rowId? hint = some id then some hint else t.rowIds.findIdx? (· = id)

def linkList (t : Table) (column row : Nat) : Except Error (List Nat) := do
  match ← t.get column row with
  | .linkList rows => return rows
  | other => throw (.typeMismatch column .linkList other.typeName)

def linksTo (t : Table) (target : TableKey) : Bool := t.columns.any (·.target? = some target)

/-- Why a table cannot take a new column, if it cannot. -/
def columnRefusal? (t : Table) (c : Column) : Option Error :=
  if c.name.isEmpty then some (.illegalArgument "Column name must not be empty")
  else if (t.columnIndex? c.name).isSome then
    some (.illegalArgument s!"Column '{c.name}' already exists in table '{t.name}'")
  else if c.type.isLinkLike && c.target?.isNone then
    some (.illegalArgument "Link columns need a target table")
  else if c.type = .linkList && c.nullable then
    some (.illegalArgument "LinkList is not nullable.")
  else none

/-- Add a column at the end; answers its index. Rows get the column's initial value. -/
def addColumn (t : Table) (c : Column) : Except Error (Nat × Table) :=
  match t.columnRefusal? c with
  | some e => .error e
  | none =>
    .ok (t.columnCount,
      { t with
        columns := t.columns ++ [c]
        rows := t.rows.map (· ++ [.initial c.type c.nullable])
        schemaEpoch := t.schemaEpoch + 1 })

def removeColumn (t : Table) (index : Nat) : Except Error Table := do
  let _ ← t.column index
  return { t with
    columns := t.columns.eraseIdx index
    rows := t.rows.map (·.eraseIdx index)
    schemaEpoch := t.schemaEpoch + 1 }

def freshRow (t : Table) : List Value := t.columns.map fun c => .initial c.type c.nullable

/-- Insert a row of initial values under the next identity, at any position up to the size. -/
def insertRow (t : Table) (index : Nat) : Except Error Table :=
  if index ≤ t.size then
    .ok { t with
      rows := t.rows.insertIdx index t.freshRow
      rowIds := t.rowIds.insertIdx index t.nextRowId
      nextRowId := t.nextRowId + 1 }
  else .error (.rowOutOfRange (Error.signed index) t.size true)

/-- Add a row of initial values at the end; answers its index. -/
def addRow (t : Table) : Nat × Table :=
  (t.size,
    { t with
      rows := t.rows ++ [t.freshRow]
      rowIds := t.rowIds ++ [t.nextRowId]
      nextRowId := t.nextRowId + 1 })

/-- Remove a row; the rows after it move up. -/
def removeRow (t : Table) (index : Nat) : Except Error Table := do
  let _ ← t.row index
  return { t with rows := t.rows.eraseIdx index, rowIds := t.rowIds.eraseIdx index }

def clear (t : Table) : Table := { t with rows := [], rowIds := [] }

def putCell (t : Table) (column row : Nat) (v : Value) : Table :=
  { t with rows := t.rows.modify row (·.set column v) }

/-- Overwrite a cell with a value that its column takes. -/
def set (t : Table) (column row : Nat) (v : Value) : Except Error Table := do
  let c ← t.column column
  let _ ← t.row row
  if v.isNull && !c.nullable then
    throw (.illegalArgument "This field is not nullable.")
  if !v.fits c.type then
    throw (.typeMismatch column c.type v.typeName)
  return t.putCell column row v

/-- The links of a cell that is to be written to, taken from the cell once it has been checked. -/
def linksToWrite (t : Table) (column row : Nat) : Except Error (List Nat) := do
  let _ ← t.linkList column row
  match t.cell? column row with
  | some (.linkList rows) => return rows
  | _ => throw (.internal "link list cell changed type")

def pushLink (t : Table) (column row target : Nat) : Except Error Table := do
  let rows ← t.linksToWrite column row
  return t.putCell column row (.linkList (rows ++ [target]))

def eraseLink (t : Table) (column row position : Nat) : Except Error Table := do
  let rows ← t.linksToWrite column row
  if rows.length ≤ position then
    throw (.rowOutOfRange (Error.signed position) rows.length false)
  return t.putCell column row (.linkList (rows.eraseIdx position))

def clearLinks (t : Table) (column row : Nat) : Except Error Table := do
  let _ ← t.linksToWrite column row
  return t.putCell column row (.linkList [])

/-- Change every cell of the columns that link to the table. -/
def mapLinks (t : Table) (target : TableKey) (f : Value → Value) : Table :=
  { t with
    rows := t.rows.map (·.mapIdx fun i v =>
      if t.columns[i]?.any (·.target? = some target) then f v else v) }

end Table
end SnapshotStore
