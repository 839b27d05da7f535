import SnapshotStore.Text.Reader
import SnapshotStore.Toml.Value

/-!
Moments of time in TOML: a date, a time of day, or both, and then the offset from universal
time too if it is known.
-/

namespace SnapshotStore.Toml.Moment

open Text Text.Reader

/-- A number of exactly so many digits, within bounds. -/
def part (width low high : Nat) : Reader Nat := do
  let ds ← (List.replicate width ()).mapM fun () => oneOf Char.isDigit
  let n := ds.foldl (fun n c => n * 10 + (c.toNat - '0'.toNat)) 0
  if low ≤ n ∧ n ≤ high then return n else failure

def isLeapYear (year : Nat) : Bool := year % 4 = 0 && (year % 100 ≠ 0 || year % 400 = 0)

def daysInMonth (year month : Nat) : Nat :=
  if month = 2 then (if isLeapYear year then 29 else 28)
  else if month ∈ [4, 6, 9, 11] then 30
  else 31

def date : Reader Unit := do
  let year ← part 4 0 9999
  char '-'
  let month ← part 2 1 12
  char '-'
  let _ ← part 2 1 (daysInMonth year month)

/-- A time of day. A leap second is second 60. -/
def time : Reader Unit := do
  let _ ← part 2 0 23
  char ':'
  let _ ← part 2 0 59
  char ':'
  let _ ← part 2 0 60
  let _ ← maybe do
    char '.'
    run1 Char.isDigit

def offset : Reader Unit :=
  (do let _ ← oneOf fun c => c = 'Z' || c = 'z') <|> do
    let _ ← oneOf fun c => c = '+' || c = '-'
    let _ ← part 2 0 23
    char ':'
    let _ ← part 2 0 59

def dateTime : Reader Unit := do
  date
  let _ ← maybe do
    let _ ← oneOf fun c => c = 'T' || c = 't' || c = ' '
    time
    let _ ← maybe offset

def read : Reader Value := do return .moment (.ofList (← taken (dateTime <|> time)))

end SnapshotStore.Toml.Moment
