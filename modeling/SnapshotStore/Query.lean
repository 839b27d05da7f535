import SnapshotStore.Query.Aggregate
import SnapshotStore.Query.Predicate

/-!
Queries: a predicate bound to a table and to the columns the table had when the query
was made. Against a table with other columns a query fails.
-/

namespace SnapshotStore

/-- A window of rows: from `start` up to, not including, `stop?`, or to the end of the
table, and of the matches in it at most `limit?`. -/
structure Window where
  start : Nat
  stop? : Option Nat
  limit? : Option Nat
  deriving DecidableEq, Repr

namespace Window

def all : Window := ⟨0, none, none⟩

/-- The rows of a table of the given size that lie in the window. -/
def rows (w : Window) (size : Nat) : List Nat :=
  let stop := min (w.stop?.getD size) size
  let start := min w.start stop
  List.range' start (stop - start)

/-- At most as many matches as the window allows. -/
def cut (w : Window) (found : List Nat) : List Nat :=
  match w.limit? with
  | some limit => found.take limit
  | none => found

end Window

structure Query where
  table : TableKey
  /-- The schema epoch of the table when the query was made. -/
  schemaEpoch : Nat
  predicate : Predicate

namespace Query

def ofTable (t : Table) : Query := ⟨t.key, t.schemaEpoch, .all⟩

def filter (q : Query) (p : Predicate) : Query := { q with predicate := q.predicate.narrow p }

/-- Equality of queries, operands compared as values. -/
def equal (p q : Query) : Bool :=
  p.table = q.table && p.schemaEpoch = q.schemaEpoch && p.predicate.equal q.predicate

def check (q : Query) (t : Table) : Except Error Unit :=
  if t.key ≠ q.table then
    .error (.illegalArgument
      s!"Query over {TableKey.text q.table} cannot run against {TableKey.text t.key}")
  else if t.schemaEpoch ≠ q.schemaEpoch then .error (.schemaChanged "Query" t.name)
  else q.predicate.check t

def matchesRow (q : Query) (t : Table) (index : Nat) : Bool :=
  t.rows[index]?.any q.predicate.holds

/-- The matching rows in a window, in ascending order. -/
def matching (q : Query) (t : Table) (w : Window) : List Nat :=
  w.cut ((w.rows t.size).filter (q.matchesRow t))

def find (q : Query) (t : Table) (start : Nat) : Except Error (Option Nat) := do
  q.check t
  return (q.matching t ⟨start, none, none⟩).head?

def findAll (q : Query) (t : Table) (w : Window) : Except Error (List Nat) := do
  q.check t
  return q.matching t w

def count (q : Query) (t : Table) (w : Window) : Except Error Nat := do
  q.check t
  return (q.matching t w).length

def aggregate (q : Query) (t : Table) (kind : Aggregate) (column : Nat) (w : Window) :
    Except Error Value := do
  q.check t
  t.aggregate (q.matching t w) kind column

end Query
end SnapshotStore
