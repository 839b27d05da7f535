import SnapshotStore.Query
import SnapshotStore.View.SortKeys

/-!
Views: the rows a query found, in an order of their own. A view remembers its query and
window and how it was sorted and thinned out, so it can be brought up to date.
-/

namespace SnapshotStore

structure View where
  table : TableKey
  schemaEpoch : Nat
  rows : List Nat
  query : Query
  window : Window
  sortKeys? : Option (List SortKey)
  /-- The column whose values the rows are distinct in. -/
  distinctColumn? : Option Nat

def Table.checkDistinct (t : Table) (column : Nat) : Except Error Unit := do
  let type ← t.columnType column
  if !type.supportsDistinct then
    throw (.illegalArgument s!"Distinct is not supported on {type.name} columns")

namespace View

def ofQuery (t : Table) (q : Query) (w : Window) : Except Error View := do
  return ⟨t.key, t.schemaEpoch, ← q.findAll t w, q, w, none, none⟩

def size (v : View) : Nat := v.rows.length

def isEmpty (v : View) : Bool := v.rows.isEmpty

/-- Whether the table is the view's, with the columns it had then. -/
def isAttached (v : View) (t : Table) : Bool := t.key = v.table && t.schemaEpoch = v.schemaEpoch

def checkAttached (v : View) (t : Table) : Except Error Unit :=
  if v.isAttached t then .ok () else .error (.schemaChanged "TableView" t.name)

def rowIndex (v : View) (position : Nat) : Except Error Nat :=
  match v.rows[position]? with
  | some row => .ok row
  | none => .error (.rowOutOfRange (Error.signed position) v.size false)

def get (v : View) (t : Table) (column position : Nat) : Except Error Value := do
  v.checkAttached t
  t.get column (← v.rowIndex position)

/-- Sort by keys that passed their check. The disorder says what happens if the comparisons do not
agree on one order of the rows. A view whose sort panics does not take on the keys. -/
def sort (v : View) (t : Table) (keys : List SortKey) (d : Disorder) : Except Error Unit × View :=
  match v.checkAttached t with
  | .error e => (.error e, v)
  | .ok () =>
    if SortKey.Orders t keys v.rows then
      (.ok (), { v with rows := SortKey.sort t keys v.rows, sortKeys? := some keys })
    else
      let rows := d.arrange v.rows
      match d.panic? with
      | some reason => (.error (.panicked reason), { v with rows })
      | none => (.ok (), { v with rows, sortKeys? := some keys })

/-- The rows whose cell differs from that of every row kept before. -/
def firstOfEach (seen : List Value) : List (Nat × Value) → List Nat
  | [] => []
  | (row, v) :: rest =>
    if seen.any (·.equal v) then firstOfEach seen rest
    else row :: firstOfEach (seen ++ [v]) rest

def distinct (v : View) (t : Table) (column : Nat) : Except Error View := do
  v.checkAttached t
  t.checkDistinct column
  let cells ← v.rows.mapM fun row => return (row, ← t.get column row)
  return { v with rows := firstOfEach [] cells, distinctColumn? := some column }

/-- Sort again, if the view is sorted. -/
def resort (v : View) (t : Table) : Except Error Unit × View :=
  match v.sortKeys? with
  | some keys => v.sort t keys .panic
  | none => (.ok (), v)

/-- Thin out again, if the view is distinct. -/
def thinAgain (v : View) (t : Table) : Except Error View :=
  match v.distinctColumn? with
  | some column => v.distinct t column
  | none => .ok v

/-- Run the query again and reapply the shape. If a later step fails, the steps before it
stay done. Rows that were just found are all there, so that they can be compared. -/
def sync (v : View) (t : Table) : Except Error Unit × View :=
  match v.checkAttached t >>= fun () => v.query.findAll t v.window with
  | .error e => (.error e, v)
  | .ok rows =>
    match View.resort { v with rows } t with
    | (.error e, v) => (.error e, v)
    | (.ok (), v) =>
      match v.thinAgain t with
      | .error e => (.error e, v)
      | .ok v => (.ok (), v)

def aggregate (v : View) (t : Table) (kind : Aggregate) (column : Nat) : Except Error Value := do
  v.checkAttached t
  t.aggregate v.rows kind column

end View
end SnapshotStore
