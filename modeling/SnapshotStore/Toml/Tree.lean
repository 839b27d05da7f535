import SnapshotStore.Toml.Value

/-!
The tables of a document while it is being read. Each key is given once, a table has at
most one header, and a table made by dotted keys takes no header while a table with a
header takes no dotted keys from outside.
-/

namespace SnapshotStore.Toml

/-- How a table came about. -/
inductive Form
  /-- It has a header of its own, or is the document, an item or an inline table. -/
  | headed
  /-- It stands on the way in the header of another table. -/
  | implied
  /-- It stands on the way in a dotted key. -/
  | dotted
  deriving DecidableEq, Repr

inductive Node
  | value (v : Value)
  | table (form : Form) (entries : List (String × Node))
  /-- An array of tables, made by headers. The last one is open. -/
  | tables (items : List (List (String × Node)))

abbrev Entries := List (String × Node)

/-- A dotted key: the tables on the way and the name in the last of them. -/
structure Key where
  parents : List String
  name : String
  deriving DecidableEq, Repr

namespace Entries

def replace (entries : Entries) (name : String) (node : Node) : Entries :=
  entries.map fun (k, n) => if k = name then (k, node) else (k, n)

/-- Change the table that a path leads to. Tables missing on the way are made; through an
array of tables the way leads into the last one. -/
def change (made : Form) (f : Form → Entries → Option Entries) :
    List String → Form → Entries → Option Entries
  | [], form, entries => f form entries
  | name :: path, _, entries =>
    match entries.lookup name with
    | none => do
      let inner ← change made f path made []
      return entries ++ [(name, .table made inner)]
    | some (.value _) => none
    | some (.table form inner) =>
      if made = .dotted ∧ form = .headed then none
      else do
        let inner ← change made f path form inner
        return entries.replace name (.table form inner)
    | some (.tables items) =>
      match items.getLast? with
      | none => none
      | some last => do
        let last ← change made f path .headed last
        return entries.replace name (.tables (items.dropLast ++ [last]))

/-- Give a key its value, in a table of the given form. -/
def assign (key : Key) (v : Value) : Form → Entries → Option Entries :=
  change .dotted (fun form entries =>
    if (form = .dotted) = key.parents.isEmpty then none
    else if (entries.lookup key.name).isSome then none
    else some (entries ++ [(key.name, .value v)])) key.parents

/-- Open the table of a header. -/
def openTable (key : Key) (root : Entries) : Option Entries :=
  change .implied (fun _ entries =>
    match entries.lookup key.name with
    | none => some (entries ++ [(key.name, .table .headed [])])
    | some (.table .implied inner) => some (entries.replace key.name (.table .headed inner))
    | some _ => none) key.parents .headed root

/-- Open a new last table in the array of a header. -/
def openItem (key : Key) (root : Entries) : Option Entries :=
  change .implied (fun _ entries =>
    match entries.lookup key.name with
    | none => some (entries ++ [(key.name, .tables [[]])])
    | some (.tables items) => some (entries.replace key.name (.tables (items ++ [[]])))
    | some _ => none) key.parents .headed root

end Entries

mutual

def Node.finish : Node → Value
  | .value v => v
  | .table _ entries => .table (finishEntries entries)
  | .tables items => .array (finishItems items)

def finishEntry : String × Node → String × Value
  | (name, node) => (name, node.finish)

def finishEntries : List (String × Node) → List (String × Value)
  | [] => []
  | entry :: rest => finishEntry entry :: finishEntries rest

def finishItems : List (List (String × Node)) → List Value
  | [] => []
  | entries :: rest => .table (finishEntries entries) :: finishItems rest

end

end SnapshotStore.Toml
