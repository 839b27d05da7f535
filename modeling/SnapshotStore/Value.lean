import SnapshotStore.ColumnType
import SnapshotStore.Number.Ieee

/-!
Cell values. A value carries its own type; values of different types are never equal,
and floating-point numbers are held by their bits.
-/

namespace SnapshotStore

inductive Value
  | null
  | bool (b : Bool)
  | int (n : Int64)
  | float (bits : UInt32)
  | double (bits : UInt64)
  | string (s : String)
  | binary (bytes : List UInt8)
  /-- Milliseconds since the Unix epoch. -/
  | date (millis : Int64)
  /-- A row of the column's target table. -/
  | link (row : Nat)
  | linkList (rows : List Nat)
  deriving DecidableEq

namespace Value

def typeName : Value → String
  | null => "Null"
  | bool _ => "Bool"
  | int _ => "Int"
  | float _ => "Float"
  | double _ => "Double"
  | string _ => "String"
  | binary _ => "Binary"
  | date _ => "Date"
  | link _ => "Link"
  | linkList _ => "LinkList"

def type? : Value → Option ColumnType
  | null => none
  | bool _ => some .bool
  | int _ => some .int
  | float _ => some .float
  | double _ => some .double
  | string _ => some .string
  | binary _ => some .binary
  | date _ => some .date
  | link _ => some .link
  | linkList _ => some .linkList

/-- Whether a value may stand in a column of the type, nullability aside: a mixed
column takes every scalar, any other column its own type only. -/
def fits (v : Value) (type : ColumnType) : Bool :=
  match v.type? with
  | none => true
  | some actual => actual = type || (type = .mixed && !actual.isLinkLike)

/-- The value of a cell nobody has set yet. -/
def initial (type : ColumnType) (nullable : Bool) : Value :=
  if nullable then null else
  match type with
  | .int | .mixed => int 0
  | .bool => bool false
  | .float => float 0
  | .double => double 0
  | .string => string ""
  | .binary => binary []
  | .date => date 0
  | .linkList => linkList []
  | .link | .table => null

def isNull : Value → Bool
  | null => true
  | _ => false

def bool? : Value → Option Bool
  | bool b => some b
  | _ => none

def int? : Value → Option Int64
  | int n => some n
  | _ => none

def float? : Value → Option UInt32
  | float bits => some bits
  | _ => none

def double? : Value → Option UInt64
  | double bits => some bits
  | _ => none

def string? : Value → Option String
  | string s => some s
  | _ => none

def binary? : Value → Option (List UInt8)
  | binary bytes => some bytes
  | _ => none

def date? : Value → Option Int64
  | date millis => some millis
  | _ => none

def link? : Value → Option Nat
  | link row => some row
  | _ => none

def linkList? : Value → Option (List Nat)
  | linkList rows => some rows
  | _ => none

/-- The value as a double, for averages and floating-point sums. -/
def number? : Value → Option Float
  | int n | date n => some n.toFloat
  | float bits => some (Float32.ofBits bits).toFloat
  | double bits => some (.ofBits bits)
  | _ => none

/-- Equality of values: same type and same content, floating-point numbers compared as
numbers. -/
def equal : Value → Value → Bool
  | float a, float b => FloatFormat.single.equal a.toNat b.toNat
  | double a, double b => FloatFormat.double.equal a.toNat b.toNat
  | a, b => a = b

end Value
end SnapshotStore
