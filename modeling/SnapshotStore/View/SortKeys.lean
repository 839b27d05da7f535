import SnapshotStore.Table
import SnapshotStore.Value.Order

/-!
Sort keys: the columns a view is ordered by, the most important first, the stable sort that they
define, and what may come of a sort where they define none.
-/

namespace SnapshotStore

structure SortKey where
  column : Nat
  ascending : Bool
  deriving DecidableEq, Repr

namespace SortKey

/-- Check that a key names a column of a sortable type. -/
def checkOne (t : Table) (key : SortKey) : Except Error Unit := do
  let type ← t.columnType key.column
  if !type.isSortable then
    throw (.illegalArgument
      ("Sort is not supported on binary data, object references and link lists " ++
        s!"(column {key.column} is {type.name})"))

/-- Check that a table can be sorted by the keys, of which there must be one. -/
def check (t : Table) (keys : List SortKey) : Except Error Unit :=
  if keys.isEmpty then .error (.illegalArgument "You must provide at least one field name.")
  else keys.forM (checkOne t)

/-- Compare two rows by one key. Rows without a cell to compare are equal. -/
def compareRows (t : Table) (key : SortKey) (a b : Nat) : Ordering :=
  match t.get key.column a, t.get key.column b with
  | .ok left, .ok right => if key.ascending then left.order right else right.order left
  | _, _ => .eq

/-- Compare two rows by the first key that tells them apart. -/
def compareAll (t : Table) (keys : List SortKey) (a b : Nat) : Ordering :=
  match keys with
  | [] => .eq
  | key :: rest => (key.compareRows t a b).then (compareAll t rest a b)

/-- The comparisons of the rows agree on one order: all the rows are there, or none of them differ.
A row that is gone is equal to all rows, to those too that are not equal to each other. -/
def Orders (t : Table) (keys : List SortKey) (rows : List Nat) : Prop :=
  (∀ row ∈ rows, row < t.size) ∨ ∀ a ∈ rows, ∀ b ∈ rows, compareAll t keys a b = .eq

instance (t : Table) (keys : List SortKey) (rows : List Nat) : Decidable (Orders t keys rows) :=
  inferInstanceAs (Decidable (_ ∨ _))

/-- Insert a row into rows in falling order, behind the last one it is not below. -/
def insertRow (less : Nat → Nat → Bool) (row : Nat) : List Nat → List Nat
  | [] => [row]
  | r :: rest => if less row r then r :: insertRow less row rest else row :: r :: rest

def sortRows (less : Nat → Nat → Bool) (rows : List Nat) : List Nat :=
  (rows.foldl (fun sorted row => insertRow less row sorted) []).reverse

/-- The rows in the order of the keys, if there is one; rows equal under all keys keep their
order. -/
def sort (t : Table) (keys : List SortKey) (rows : List Nat) : List Nat :=
  sortRows (fun a b => compareAll t keys a b = .lt) rows

end SortKey

/-- What comes of a sort whose comparisons do not agree on one order. Which order the rows are left
in is not specified then, nor whether the sort panics; all of them are still there. -/
structure Disorder where
  rows : List Nat
  panic? : Option String
  deriving DecidableEq, Repr

namespace Disorder

/-- The rows in the order that they are left in, if it is an order of these rows. -/
def arrange (d : Disorder) (rows : List Nat) : List Nat :=
  if d.rows.isPerm rows then d.rows else rows

/-- The sort panics at once. -/
def panic : Disorder :=
  ⟨[], some "user-provided comparison function does not correctly implement a total order"⟩

end Disorder
end SnapshotStore
