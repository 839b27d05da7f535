/-!
Binary floating-point numbers by their bits: which bit patterns are numbers, when two
of them are equal as numbers, and the total order that also places zeros and NaNs.
-/

namespace SnapshotStore

/-- A binary interchange format: one sign bit, then the exponent, then the fraction. -/
structure FloatFormat where
  width : Nat
  fractionBits : Nat
  deriving DecidableEq, Repr

namespace FloatFormat

def single : FloatFormat := ⟨32, 23⟩

def double : FloatFormat := ⟨64, 52⟩

def signBit (f : FloatFormat) : Nat := Nat.pow 2 (f.width - 1)

/-- The bits below the sign. -/
def magnitude (f : FloatFormat) (bits : Nat) : Nat := bits % f.signBit

/-- The magnitude of infinity: every exponent bit set, every fraction bit clear. -/
def infinity (f : FloatFormat) : Nat := f.signBit - Nat.pow 2 f.fractionBits

def isNaN (f : FloatFormat) (bits : Nat) : Bool := f.infinity < f.magnitude bits

/-- Equality of the numbers: a NaN equals nothing and the two zeros are one number. -/
def equal (f : FloatFormat) (a b : Nat) : Bool :=
  !f.isNaN a && !f.isNaN b && (a == b || (f.magnitude a == 0 && f.magnitude b == 0))

/-- Position in the total order: negative patterns by falling magnitude, then the
others by rising magnitude, so that NaNs lie at both ends. -/
def rank (f : FloatFormat) (bits : Nat) : Nat :=
  if bits < f.signBit then f.signBit + bits else 2 * f.signBit - 1 - bits

end FloatFormat
end SnapshotStore
