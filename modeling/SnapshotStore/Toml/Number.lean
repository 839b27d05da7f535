import SnapshotStore.Toml.StringLiteral
import SnapshotStore.Toml.Value

/-!
Numbers of TOML: integers of 64 bits in four bases, and floating-point numbers. Digits may
be grouped by single underscores between them.
-/

namespace SnapshotStore.Toml.Number

open Text Text.Reader

/-- Digits, grouped by underscores or not; the underscores are left out. -/
def digits (p : Char → Bool) : Reader (List Char) := do
  let first ← oneOf p
  let rest ← many (oneOf p <|> do char '_'; oneOf p)
  return first :: rest

/-- Whether there is a minus sign. -/
def sign : Reader Bool := do return (← maybe (oneOf fun c => c = '+' || c = '-')) = some '-'

/-- The whole part of a decimal number, which has no leading zeros. -/
def whole : Reader (List Char) :=
  (do char '0'; return ['0']) <|> do
    let c ← oneOf fun c => c.isDigit && c ≠ '0'
    let rest ← many (oneOf Char.isDigit <|> do char '_'; oneOf Char.isDigit)
    return c :: rest

def valueOf (base : Nat) (digits : List Char) : Nat :=
  digits.foldl (fun n c => n * base + (StringLiteral.hexDigit? c).getD 0) 0

/-- An integer that 64 bits can hold. -/
def ofInt (n : Int) : Reader Value :=
  if -0x8000000000000000 ≤ n ∧ n < 0x8000000000000000 then return .integer n else failure

def based (mark : Char) (base : Nat) : Reader Value := do
  word ['0', mark]
  let ds ← digits fun c => (StringLiteral.hexDigit? c).any (· < base)
  ofInt (valueOf base ds)

def decimal : Reader Value := do
  let negative ← sign
  let n := valueOf 10 (← whole)
  ofInt (if negative then -n else n)

def integer : Reader Value := based 'x' 16 <|> based 'o' 8 <|> based 'b' 2 <|> decimal

def exponent : Reader Int := do
  let _ ← oneOf fun c => c = 'e' || c = 'E'
  let negative ← sign
  let n := valueOf 10 (← digits Char.isDigit)
  return if negative then -n else n

def fraction : Reader (List Char) := do
  char '.'
  digits Char.isDigit

/-- Whether a decimal number is too large for a double: at or beyond the midpoint between
the largest double and the power of two after it. -/
def overflows (mantissa : Nat) (exponent : Int) : Bool :=
  let bound := Nat.pow 2 1024 - Nat.pow 2 970
  let places := (Nat.toDigits 10 mantissa).length + exponent
  if mantissa = 0 ∨ places < 300 then false
  else if 320 < places then true
  else bound * Nat.pow 10 (-exponent).toNat ≤ mantissa * Nat.pow 10 exponent.toNat

/-- A floating-point number in digits. Only one that is too large upwards is refused. -/
def finite : Reader Unit := do
  let negative ← sign
  let before ← whole
  let after? ← maybe fraction
  let exponent? ← maybe exponent
  if after?.isNone && exponent?.isNone then failure
  let after := after?.getD []
  if !negative && overflows (valueOf 10 (before ++ after)) (exponent?.getD 0 - after.length) then
    failure

def special : Reader Unit := do
  let _ ← sign
  word ['i', 'n', 'f'] <|> word ['n', 'a', 'n']

def float : Reader Value := do return .float (.ofList (← taken (finite <|> special)))

end SnapshotStore.Toml.Number
