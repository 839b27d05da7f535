/-!
Readers: functions that take what they recognise off the front of a text and fail,
taking nothing, on any other text.
-/

namespace SnapshotStore.Text

abbrev Reader (α : Type) := StateT (List Char) Option α

namespace Reader
variable {α β : Type}

def oneOf (p : Char → Bool) : Reader Char := fun cs =>
  match cs with
  | [] => none
  | c :: rest => if p c then some (c, rest) else none

def char (c : Char) : Reader Unit := do let _ ← oneOf (· = c)

def word : List Char → Reader Unit
  | [] => return
  | c :: rest => do
    char c
    word rest

def run (p : Char → Bool) : Reader (List Char) := fun cs =>
  some (cs.takeWhile p, cs.dropWhile p)

def run1 (p : Char → Bool) : Reader (List Char) := do return (← oneOf p) :: (← run p)

def atEnd : Reader Unit := fun cs => if cs.isEmpty then some ((), cs) else none

/-- Try a reader and go on without it if it fails. -/
def maybe (r : Reader α) : Reader (Option α) := some <$> r <|> return none

/-- Read as often as possible. A round that takes nothing is the last. -/
def many (r : Reader α) : Reader (List α) := fun cs =>
  match r cs with
  | none => some ([], cs)
  | some (a, rest) =>
    if rest.length < cs.length then (many r rest).map fun (as, rest) => (a :: as, rest)
    else some ([a], rest)
termination_by cs => cs.length

/-- One item or more with something between them. -/
def separated (item : Reader α) (separator : Reader β) : Reader (List α) := do
  let first ← item
  let rest ← many do
    let _ ← separator
    item
  return first :: rest

/-- The text that a reader takes. -/
def taken (r : Reader α) : Reader (List Char) := fun cs =>
  (r cs).map fun (_, rest) => (cs.take (cs.length - rest.length), rest)

/-- A text that the reader takes as a whole. -/
def whole? (r : Reader α) (s : String) : Option α :=
  (StateT.run (do let a ← r; atEnd; return a) s.toList).map (·.1)

end Reader
end SnapshotStore.Text
