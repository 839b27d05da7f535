import SnapshotStore.Context
import SnapshotStore.Query

/-!
Checks of arguments that come from outside: column and row numbers of any sign and size,
column types, windows, values and link targets. Of several faults the first in a fixed
order is reported: column, row, type.
-/

namespace SnapshotStore

namespace Table

def checkColumn (t : Table) (index : Int) : Except Error Nat :=
  if 0 ≤ index ∧ index < t.columnCount then .ok index.toNat
  else .error (.columnOutOfRange index t.columnCount)

/-- Check a row number; with `allowEnd` the position after the last row is good too. -/
def checkRow (t : Table) (index : Int) (allowEnd : Bool) : Except Error Nat :=
  let bound := if allowEnd then t.size + 1 else t.size
  if 0 ≤ index ∧ index < bound then .ok index.toNat
  else .error (.rowOutOfRange index t.size allowEnd)

def mixedTypeName : Option ColumnType → String
  | some type => s!"Mixed({type.name})"
  | none => "Mixed(Null)"

/-- Check the declared type of a column. With `allowMixed`, a mixed column passes if the
cell in the row holds the expected type. -/
def checkType (t : Table) (column : Nat) (row? : Option Nat) (expected : ColumnType)
    (allowMixed : Bool) : Except Error Unit := do
  let declared ← t.columnType column
  if declared = expected then return
  match row? with
  | some row =>
    if declared = .mixed && allowMixed then
      let actual ← t.cellType column row
      if actual = some expected then return
      throw (.typeMismatch column expected (mixedTypeName actual))
    else throw (.typeMismatch column expected declared.name)
  | none => throw (.typeMismatch column expected declared.name)

def checkLinkLike (t : Table) (column : Nat) : Except Error Unit := do
  let declared ← t.columnType column
  if !declared.isLinkLike then
    throw (.typeMismatch column .link declared.name)

/-- Check that a column takes null. A link may always be absent, a list of links never. -/
def checkNullable (t : Table) (column : Nat) : Except Error Unit := do
  let c ← t.column column
  if c.type = .link then return
  if c.type = .linkList then throw (.illegalArgument "LinkList is not nullable.")
  if !c.nullable then throw (.illegalArgument "This field is not nullable.")

def checkValue (t : Table) (column : Nat) (v : Value) : Except Error Unit := do
  if v.isNull then
    t.checkNullable column
  else
    let declared ← t.columnType column
    if !v.fits declared then throw (.typeMismatch column declared v.typeName)

end Table

namespace Window

/-- A window of a table of the given size, from numbers where -1 stands for the end of the
table and for no limit. -/
def ofBounds (size : Nat) (start stop limit : Int) : Except Error Window := do
  if start < 0 then throw (.invalidRange "startIndex < 0.")
  if size < start then throw (.invalidRange "startIndex > available rows.")
  if stop < -1 then throw (.invalidRange "endIndex < 0.")
  if size < stop then throw (.invalidRange "endIndex > available rows.")
  let resolved := if stop = -1 then size else stop.toNat
  if resolved < start.toNat then throw (.invalidRange "startIndex > endIndex.")
  if limit < -1 then throw (.invalidRange "limit < 0.")
  return ⟨start.toNat, some resolved, if limit = -1 then none else some limit.toNat⟩

end Window

/-- Check a row number against the table that a link column points into. -/
def Group.checkLinkTarget (g : Group) (t : Table) (column : Nat) (target : Int) :
    Except Error Nat := do
  t.checkLinkLike column
  let c ← t.column column
  match c.target? with
  | none => throw (.internal "link column without a target table")
  | some key =>
    match g.table? key with
    | none => throw (.illegalArgument "The link target table has been removed.")
    | some into => into.checkRow target false

/-- A row that is asked for: one that exists, or a position to insert at. -/
inductive RowRequest
  | existing (index : Int)
  | insertion (index : Int)
  deriving DecidableEq, Repr

/-- What a call asks of a table before it may go on. -/
structure Access where
  column? : Option Int := none
  row? : Option RowRequest := none
  /-- The type the column must have, and whether a mixed cell of that type will do. -/
  type? : Option (ColumnType × Bool) := none
  deriving DecidableEq, Repr

namespace Access

structure Checked where
  column? : Option Nat
  row? : Option Nat
  deriving DecidableEq, Repr

namespace Checked

def column (c : Checked) : Except Error Nat :=
  match c.column? with
  | some column => .ok column
  | none => .error (.internal "access check did not include a column")

def row (c : Checked) : Except Error Nat :=
  match c.row? with
  | some row => .ok row
  | none => .error (.internal "access check did not include a row")

end Checked

def checkColumn? (t : Table) : Option Int → Except Error (Option Nat)
  | none => .ok none
  | some index => (t.checkColumn index).map some

def checkRow? (t : Table) : Option RowRequest → Except Error (Option Nat)
  | none => .ok none
  | some (.existing index) => (t.checkRow index false).map some
  | some (.insertion index) => (t.checkRow index true).map some

def check (a : Access) (t : Table) : Except Error Checked := do
  let column? ← checkColumn? t a.column?
  let row? ← checkRow? t a.row?
  match a.type?, column? with
  | some (expected, allowMixed), some column => t.checkType column row? expected allowMixed
  | _, _ => pure ()
  return ⟨column?, row?⟩

end Access

def Table.checkCell (t : Table) (column row : Int) (type? : Option (ColumnType × Bool)) :
    Except Error (Nat × Nat) := do
  let checked ← Access.check ⟨some column, some (.existing row), type?⟩ t
  return (← checked.column, ← checked.row)

end SnapshotStore
