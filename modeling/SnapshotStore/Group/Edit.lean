import SnapshotStore.Group

/-!
Edits: every way to change a group, as data. A write transaction is a run of edits.
-/

namespace SnapshotStore

inductive Edit
  | addTable (name : String)
  | removeTable (key : TableKey)
  | addColumn (key : TableKey) (column : Column)
  | removeColumn (key : TableKey) (column : Nat)
  | addRow (key : TableKey)
  | insertRow (key : TableKey) (row : Nat)
  /-- Remove a row together with the links to it. -/
  | removeRow (key : TableKey) (row : Nat)
  /-- Remove a row of one table and leave links into the table as they are. -/
  | dropRow (key : TableKey) (row : Nat)
  /-- Remove all rows together with the links to them. -/
  | clear (key : TableKey)
  /-- Remove all rows of one table and leave links into the table as they are. -/
  | dropRows (key : TableKey)
  | set (key : TableKey) (column row : Nat) (value : Value)
  | setLink (key : TableKey) (column row target : Nat)
  | pushLink (key : TableKey) (column row target : Nat)
  | eraseLink (key : TableKey) (column row position : Nat)
  | clearLinks (key : TableKey) (column row : Nat)
  deriving DecidableEq

namespace Group

/-- Carry out an edit; answers the key or the index of what it made, if it made a table,
a column or a last row. -/
def edit (g : Group) : Edit → Except Error (Option Nat) × Group
  | .addTable name =>
    match g.addTable name with
    | .ok (key, g') => (.ok (some key), g')
    | .error e => (.error e, g)
  | .removeTable key =>
    match g.removeTable key with
    | .ok g' => (.ok none, g')
    | .error e => (.error e, g)
  | .addColumn key column => made (g.write key (·.addColumn column))
  | .addRow key => made (g.write key fun t => .ok t.addRow)
  | .removeColumn key column => done (g.overwrite key (·.removeColumn column))
  | .insertRow key row => done (g.overwrite key (·.insertRow row))
  | .removeRow key row => done (g.removeRow key row)
  | .dropRow key row => done (g.overwrite key (·.removeRow row))
  | .clear key => done (g.clearTable key)
  | .dropRows key => done (g.overwrite key fun t => .ok t.clear)
  | .set key column row value => done (g.overwrite key (·.set column row value))
  | .setLink key column row target => done (g.setLink key column row target)
  | .pushLink key column row target => done (g.pushLink key column row target)
  | .eraseLink key column row position =>
    done (g.overwrite key (·.eraseLink column row position))
  | .clearLinks key column row => done (g.overwrite key (·.clearLinks column row))
where
  made (r : Except Error Nat × Group) : Except Error (Option Nat) × Group := (r.1.map some, r.2)
  done (r : Except Error Unit × Group) : Except Error (Option Nat) × Group :=
    (r.1.map fun () => none, r.2)

/-- Carry out edits in order, refused ones included. -/
def editAll (g : Group) (edits : List Edit) : Group :=
  edits.foldl (fun g e => (g.edit e).2) g

end Group
end SnapshotStore
