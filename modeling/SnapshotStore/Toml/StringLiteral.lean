import SnapshotStore.Text.Quoted
import SnapshotStore.Text.Reader

/-!
String literals of TOML: between double quotes with escapes or between single quotes
without, on one line or, with three quotes at either end, on several.
-/

namespace SnapshotStore.Toml

open Text Text.Reader

/-- Characters that stand for themselves: all but the controls, tab excepted. -/
def isPlain (c : Char) : Bool := c = '\t' || (32 ≤ c.toNat && c.toNat ≠ 127)

def isBlank (c : Char) : Bool := c = ' ' || c = '\t'

def blanks : Reader Unit := do let _ ← run isBlank

def newline : Reader Unit := char '\n' <|> word ['\r', '\n']

namespace StringLiteral

def isUnescaped (c : Char) : Bool := isPlain c && c ≠ '"' && c ≠ '\\'

def isLiteral (c : Char) : Bool := isPlain c && c ≠ '\''

def hexDigit? (c : Char) : Option Nat :=
  if c.isDigit then some (c.toNat - '0'.toNat)
  else if 'a' ≤ c ∧ c ≤ 'f' then some (c.toNat - 'a'.toNat + 10)
  else if 'A' ≤ c ∧ c ≤ 'F' then some (c.toNat - 'A'.toNat + 10)
  else none

def hexNumber (digits : List Char) : Nat :=
  digits.foldl (fun n c => n * 16 + (hexDigit? c).getD 0) 0

/-- The character whose code is spelled with the given number of digits. -/
def coded (width : Nat) : Reader Char := do
  let digits ← (List.replicate width ()).mapM fun () => oneOf fun c => (hexDigit? c).isSome
  let code := hexNumber digits
  if code.isValidChar then return Char.ofNat code else failure

def escape : Reader Char := do
  char '\\'
  match ← oneOf fun _ => true with
  | 'b' => return '\x08'
  | 't' => return '\t'
  | 'n' => return '\n'
  | 'f' => return '\x0c'
  | 'r' => return '\r'
  | '"' => return '"'
  | '\\' => return '\\'
  | 'u' => coded 4
  | 'U' => coded 8
  | _ => failure

/-- A string on one line, between double quotes. -/
def basic : Reader (List Char) := do
  char '"'
  let cs ← many (oneOf isUnescaped <|> escape)
  char '"'
  return cs

/-- A string on one line, between single quotes. -/
def literal : Reader (List Char) := do
  char '\''
  let cs ← run isLiteral
  char '\''
  return cs

/-- One or two quotes that do not end a string of several lines. -/
def innerQuotes (quote : Char) : Reader (List Char) := do
  let quotes ← run1 (· = quote)
  if quotes.length ≤ 2 then return quotes else failure

/-- The end of a string of several lines: three quotes, and up to two before them that
belong to the string. -/
def closing (quote : Char) : Reader (List Char) := do
  let quotes ← run1 (· = quote)
  if 3 ≤ quotes.length ∧ quotes.length ≤ 5 then return quotes.drop 3 else failure

/-- A backslash at the end of a line takes the blanks and line ends after it away. -/
def continuation : Reader (List Char) := do
  char '\\'
  blanks
  newline
  let _ ← many (newline <|> do let _ ← run1 isBlank)
  return []

def lineEnd : Reader (List Char) := do
  newline
  return ['\n']

/-- A string of several lines. A line end right after the opening quotes is not part of
it. -/
def multiline (quote : Char) (piece : Reader (List Char)) : Reader (List Char) := do
  word [quote, quote, quote]
  let _ ← maybe newline
  let pieces ← many (piece <|> lineEnd <|> innerQuotes quote)
  return pieces.flatten ++ (← closing quote)

def single : Reader (List Char) := basic <|> literal

def read : Reader (List Char) :=
  multiline '"' (run1 isUnescaped <|> continuation <|> do return [← escape]) <|>
    multiline '\'' (run1 isLiteral) <|> single

def longestRun (x : Char) (current : Nat) : List Char → Nat
  | [] => current
  | c :: rest => max current (longestRun x (if c = x then current + 1 else 0) rest)

/-- Whether a character can only be written with an escape, wherever it stands. -/
def needsEscape (c : Char) : Bool := c ≠ '\t' && c ≠ '\n' && (c.toNat < 32 || c.toNat = 127)

/-- A character between double quotes. -/
def escaped (c : Char) : List Char :=
  match c with
  | '\t' => ['\\', 't']
  | '\n' => ['\\', 'n']
  | '\r' => ['\\', 'r']
  | '\\' => ['\\', '\\']
  | _ =>
    if c.toNat = 8 then ['\\', 'b']
    else if c.toNat = 12 then ['\\', 'f']
    else if needsEscape c then '\\' :: 'u' :: (hexDigits 4 c.toNat).map Char.toUpper
    else [c]

/-- The text between double quotes, with an escape for each quote beyond so many in a row;
line ends stand as they are if the literal may have several lines. -/
def body (lines : Bool) (inARow : Nat) (seen : Nat) : List Char → List Char
  | [] => []
  | '"' :: rest =>
    if seen < inARow then '"' :: body lines inARow (seen + 1) rest
    else '\\' :: '"' :: body lines inARow 0 rest
  | '\n' :: rest => (if lines then ['\n'] else escaped '\n') ++ body lines inARow 0 rest
  | c :: rest => escaped c ++ body lines inARow 0 rest

/-- The plainest literal of a text: double quotes if nothing has to be escaped, else single
quotes, else three of either kind, and escapes only if all of these fail. -/
def write (s : String) : String :=
  let cs := s.toList
  let newlines := cs.contains '\n'
  let controls := cs.any needsEscape
  let backslash := cs.contains '\\'
  let doubles := longestRun '"' 0 cs
  let singles := longestRun '\'' 0 cs
  let open3 (quote : Char) := List.replicate 3 quote ++ (if newlines then ['\n'] else [])
  let multilineBasic := open3 '"' ++ body true 2 0 cs ++ List.replicate 3 '"'
  let basic := '"' :: body false 0 0 cs ++ ['"']
  .ofList <|
    if !controls && !backslash && doubles = 0 && !newlines then basic
    else if !controls && singles = 0 && !newlines then '\'' :: cs ++ ['\'']
    else if !controls && !backslash && doubles ≤ 2 then multilineBasic
    else if !controls && singles ≤ 2 then open3 '\'' ++ cs ++ List.replicate 3 '\''
    else if newlines then multilineBasic
    else basic

end StringLiteral
end SnapshotStore.Toml
