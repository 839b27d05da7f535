import SnapshotStore.Table
import SnapshotStore.Value.Order

/-!
Aggregates over one column: sum, minimum, maximum and average, nulls left out.
-/

namespace SnapshotStore

inductive Aggregate
  | sum
  | min
  | max
  | average
  deriving DecidableEq, Repr

namespace Aggregate

def name : Aggregate → String
  | sum => "sum"
  | min => "min"
  | max => "max"
  | average => "average"

def supports : Aggregate → ColumnType → Bool
  | sum, type | average, type => type.isNumeric
  | min, type | max, type => type.isNumeric || type = .date

/-- The sum of integers, wrapping at 64 bits. -/
def intSum (values : List Value) : Int64 :=
  (values.filterMap (·.int?)).foldl (· + ·) 0

/-- The floating-point sum in the order of the values. It starts at minus zero, the
number that changes nothing it is added to. -/
def floatSum (values : List Value) : Float :=
  (values.filterMap (·.number?)).foldl (· + ·) (.ofBits 0x8000000000000000)

def least : List Value → Value
  | [] => .null
  | v :: rest => rest.foldl (fun best v => if best.order v = .gt then v else best) v

/-- The last of the largest values. -/
def greatest : List Value → Value
  | [] => .null
  | v :: rest => rest.foldl (fun best v => if best.order v = .gt then best else v) v

def ofValues (kind : Aggregate) (type : ColumnType) (values : List Value) : Value :=
  match kind with
  | sum => if type = .int then .int (intSum values) else .double (floatSum values).toBits
  | average =>
    if values.isEmpty then .null
    else .double (floatSum values / .ofNat values.length).toBits
  | min => least values
  | max => greatest values

end Aggregate

def Table.aggregate (t : Table) (rows : List Nat) (kind : Aggregate) (column : Nat) :
    Except Error Value := do
  let type ← t.columnType column
  if !kind.supports type then
    throw (.unsupported s!"{kind.name} is not supported on {type.name} columns")
  let cells ← rows.mapM (t.get column)
  return kind.ofValues type (cells.filter (!·.isNull))

end SnapshotStore
