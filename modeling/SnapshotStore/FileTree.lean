import SnapshotStore.Error

/-!
File trees: directories and files by name, and what reading the file at a path answers.
A path is followed name by name, so the first name that leads nowhere decides how the
reading fails.
-/

namespace SnapshotStore

inductive FileTree
  | file (text : String)
  | directory (entries : List (String × FileTree))

namespace FileTree

/-- The length of the longest name, in bytes. -/
def nameLimit : Nat := 255

/-- The length of the longest path, in bytes. -/
def pathLimit : Nat := 4095

/-- The names in a path. A slash at either end and a double slash make empty names. -/
def names : List Char → List (List Char)
  | [] => [[]]
  | c :: rest =>
    if c = '/' then [] :: names rest
    else
      match names rest with
      | name :: more => (c :: name) :: more
      | [] => [[c]]

/-- Follow names from a tree that lies in the given directories, innermost first. Only a
directory leads on, and the outermost one is its own parent. -/
def follow : List (List Char) → FileTree → List FileTree → Except FileCause FileTree
  | [], here, _ => .ok here
  | _ :: _, .file _, _ => .error .other
  | name :: rest, .directory entries, above =>
    if name = [] ∨ name = ['.'] then follow rest (.directory entries) above
    else if name = ['.', '.'] then
      match above with
      | [] => follow rest (.directory entries) []
      | parent :: above => follow rest parent above
    else if nameLimit < (String.ofList name).utf8ByteSize then .error .other
    else
      match entries.lookup (String.ofList name) with
      | none => .error .notFound
      | some tree => follow rest tree (.directory entries :: above)

/-- A tree and the directories it lies in, innermost first. -/
structure Location where
  tree : FileTree
  above : List FileTree

namespace Location

def root (l : Location) : FileTree := l.above.getLastD l.tree

/-- Where a path starts: at the root if a slash comes first, else here. -/
def start (l : Location) (path : List Char) : Location :=
  if path.head? = some '/' then ⟨l.root, []⟩ else l

def read (l : Location) (path : String) : Except FileCause String :=
  let cs := path.toList
  if cs.isEmpty then .error .notFound
  else if cs.contains '\x00' || pathLimit < path.utf8ByteSize then .error .other
  else
    let first := l.start cs
    match follow (names cs) first.tree first.above with
    | .ok (.file text) => .ok text
    | .ok (.directory _) => .error .other
    | .error cause => .error cause

end Location
end FileTree
end SnapshotStore
