/-!
Declared types of columns and the operations each type takes part in.
-/

namespace SnapshotStore

inductive ColumnType
  | int
  | bool
  | float
  | double
  | string
  | binary
  | date
  /-- Any scalar value; each cell has its own type. -/
  | mixed
  | link
  | linkList
  | table
  deriving DecidableEq, Repr

namespace ColumnType

def all : List ColumnType :=
  [int, bool, float, double, string, binary, date, mixed, link, linkList, table]

def name : ColumnType → String
  | int => "Int"
  | bool => "Bool"
  | float => "Float"
  | double => "Double"
  | string => "String"
  | binary => "Binary"
  | date => "Date"
  | mixed => "Mixed"
  | link => "Link"
  | linkList => "LinkList"
  | table => "Table"

def isSortable : ColumnType → Bool
  | bool | int | date | float | double | string => true
  | _ => false

def supportsDistinct : ColumnType → Bool
  | bool | int | date | string => true
  | _ => false

def isNumeric : ColumnType → Bool
  | int | float | double => true
  | _ => false

def isLinkLike : ColumnType → Bool
  | link | linkList => true
  | _ => false

end ColumnType
end SnapshotStore
