import SnapshotStore.Toml.Moment
import SnapshotStore.Toml.Number
import SnapshotStore.Toml.Tree

/-!
TOML documents: lines that assign values to keys, under the headers of the tables that the
keys are in.
-/

namespace SnapshotStore.Toml

open Text Text.Reader

def comment : Reader Unit := do
  char '#'
  let _ ← run isPlain

/-- What may stand around the items of an array: blanks, line ends and comments. -/
def gap : Reader Unit := do
  let _ ← many ((do let _ ← run1 isBlank) <|> newline <|> do comment; newline)

/-- How deep arrays and inline tables may nest, and one less than the parts a key may not
have. -/
def depthLimit : Nat := 79

def isBare (c : Char) : Bool := c.isAlphanum || c = '_' || c = '-'

def simpleKey : Reader String :=
  String.ofList <$> (StringLiteral.single <|> run1 isBare)

def key : Reader Key := do
  let names ← separated (do blanks; let name ← simpleKey; blanks; return name) (char '.')
  match names.getLast? with
  | some name =>
    if names.length ≤ depthLimit then return ⟨names.dropLast, name⟩ else failure
  | none => failure

def boolean : Reader Value :=
  (do word ['t', 'r', 'u', 'e']; return .boolean true) <|>
    do word ['f', 'a', 'l', 's', 'e']; return .boolean false

def scalar : Reader Value :=
  (do return .string (.ofList (← StringLiteral.read))) <|>
    boolean <|> Moment.read <|> Number.float <|> Number.integer

/-- The items of an array; the last one may have a comma behind it. -/
def items (item : Reader Value) : Reader (List Value) :=
  (do
    let values ← separated (do gap; let v ← item; gap; return v) (char ',')
    let _ ← maybe (char ',')
    return values) <|> return []

def array (item : Reader Value) : Reader Value := do
  char '['
  let values ← items item
  gap
  char ']'
  return .array values

def assignment (item : Reader Value) : Reader (Key × Value) := do
  let k ← key
  char '='
  blanks
  return (k, ← item)

def inlineTable (item : Reader Value) : Reader Value := do
  char '{'
  let pairs ← separated (do let pair ← assignment item; blanks; return pair) (char ',') <|>
    return []
  blanks
  char '}'
  let entries ← (pairs.foldlM (fun entries (k, v) => Entries.assign k v .headed entries) [] :
    Option Entries)
  return .table (finishEntries entries)

/-- A value in which arrays and inline tables nest at most so deep. -/
def value : Nat → Reader Value
  | 0 => scalar
  | depth + 1 => scalar <|> array (value depth) <|> inlineTable (value depth)

inductive Statement
  | assign (key : Key) (v : Value)
  | openTable (key : Key)
  | openItem (key : Key)

def lineEnd : Reader Unit := do
  blanks
  let _ ← maybe comment
  newline <|> atEnd

/-- One line with all that belongs to it; none for a line that says nothing. -/
def line : Reader (Option Statement) :=
  (do comment; newline <|> atEnd; return none) <|>
  (do newline; return none) <|>
  (do
    word ['[', '[']
    let k ← key
    word [']', ']']
    lineEnd
    return some (.openItem k)) <|>
  (do
    char '['
    let k ← key
    char ']'
    lineEnd
    return some (.openTable k)) <|>
  do
    let (k, v) ← assignment (value depthLimit)
    lineEnd
    return some (.assign k v)

def statements : Reader (List Statement) := do
  let _ ← maybe (char '\uFEFF')
  blanks
  let lines ← many do
    let statement? ← line
    blanks
    return statement?
  return lines.filterMap id

/-- The tables read so far and the path to the one that assignments go to. -/
structure Draft where
  root : Entries
  current : List String

namespace Draft

def add (d : Draft) : Statement → Option Draft
  | .assign k v =>
    (Entries.change .implied (Entries.assign k v) d.current .headed d.root).map fun root =>
      { d with root }
  | .openTable k => (Entries.openTable k d.root).map fun root => ⟨root, k.parents ++ [k.name]⟩
  | .openItem k => (Entries.openItem k d.root).map fun root => ⟨root, k.parents ++ [k.name]⟩

end Draft

/-- The entries of a document. None if it is malformed or gives a key twice. -/
def read? (text : String) : Option (List (String × Value)) := do
  let lines ← whole? statements text
  let draft ← lines.foldlM Draft.add ⟨[], []⟩
  return finishEntries draft.root

end SnapshotStore.Toml
