import SnapshotStore.Table
import SnapshotStore.Text.LetterCase
import SnapshotStore.Value.Order

/-!
Predicates on rows: comparisons of one cell with a constant, and their combinations.
-/

namespace SnapshotStore

inductive Condition
  | equal
  | notEqual
  | greater
  | greaterEqual
  | less
  | lessEqual
  | beginsWith
  | endsWith
  | contains
  | isNull
  | isNotNull
  deriving DecidableEq, Repr

namespace Condition

def all : List Condition :=
  [equal, notEqual, greater, greaterEqual, less, lessEqual, beginsWith, endsWith, contains,
    isNull, isNotNull]

def name : Condition → String
  | equal => "Equal"
  | notEqual => "NotEqual"
  | greater => "Greater"
  | greaterEqual => "GreaterEqual"
  | less => "Less"
  | lessEqual => "LessEqual"
  | beginsWith => "BeginsWith"
  | endsWith => "EndsWith"
  | contains => "Contains"
  | isNull => "IsNull"
  | isNotNull => "IsNotNull"

def isTextOnly : Condition → Bool
  | beginsWith | endsWith | contains => true
  | _ => false

def isOrdering : Condition → Bool
  | greater | greaterEqual | less | lessEqual => true
  | _ => false

def isNullTest : Condition → Bool
  | isNull | isNotNull => true
  | _ => false

/-- Whether a text stands to the operand as the condition says. -/
def holdsOfText (text operand : List Char) : Condition → Bool
  | beginsWith => operand.isPrefixOf text
  | endsWith => operand.isSuffixOf text
  | contains => occursIn operand text
  | _ => false
where
  /-- Whether the first list is a contiguous part of the second. -/
  occursIn (part : List Char) : List Char → Bool
    | [] => part.isEmpty
    | c :: rest => part.isPrefixOf (c :: rest) || occursIn part rest

/-- Whether the outcome of a comparison is one the condition accepts. -/
def accepts : Condition → Ordering → Bool
  | equal, o => o = .eq
  | notEqual, o => o ≠ .eq
  | greater, o => o = .gt
  | greaterEqual, o => o ≠ .lt
  | less, o => o = .lt
  | lessEqual, o => o ≠ .gt
  | _, _ => false

/-- How null compares: it equals null and differs from all else, and it has no order. -/
def holdsOfNull (bothNull : Bool) : Condition → Bool
  | equal => bothNull
  | notEqual => !bothNull
  | _ => false

end Condition

/-- The text to compare by: as it is, or in lower case. -/
def comparedText (caseSensitive : Bool) (s : String) : List Char :=
  if caseSensitive then s.toList else Text.LetterCase.lower s.toList

/-- Whether a cell stands to the operand as the condition says. Values of different
types never compare equal. -/
def Value.satisfies (cell : Value) (condition : Condition) (operand : Value)
    (caseSensitive : Bool) : Bool :=
  if condition = .isNull then cell.isNull
  else if condition = .isNotNull then !cell.isNull
  else if condition.isTextOnly then
    match cell, operand with
    | .string a, .string b =>
      condition.holdsOfText (comparedText caseSensitive a) (comparedText caseSensitive b)
    | _, _ => false
  else if cell.isNull || operand.isNull || cell.type? ≠ operand.type? then
    condition.holdsOfNull (cell.isNull && operand.isNull)
  else
    match cell, operand with
    | .string a, .string b =>
      condition.accepts (List.compareLex Ord.compare
        ((comparedText caseSensitive a).map Char.toNat)
        ((comparedText caseSensitive b).map Char.toNat))
    | _, _ => condition.accepts (cell.order operand)

inductive Predicate
  | all
  | compare (column : Nat) (condition : Condition) (operand : Value) (caseSensitive : Bool)
  | and (parts : List Predicate)
  | or (parts : List Predicate)
  | not (inner : Predicate)

namespace Predicate

mutual

/-- Whether a row's cells satisfy the predicate. A comparison of a missing cell fails. -/
def holds (cells : List Value) : Predicate → Bool
  | .all => true
  | .compare column condition operand caseSensitive =>
    match cells[column]? with
    | some cell => cell.satisfies condition operand caseSensitive
    | none => false
  | .and parts => holdsAll cells parts
  | .or parts => holdsAny cells parts
  | .not inner => !holds cells inner

def holdsAll (cells : List Value) : List Predicate → Bool
  | [] => true
  | p :: rest => holds cells p && holdsAll cells rest

def holdsAny (cells : List Value) : List Predicate → Bool
  | [] => false
  | p :: rest => holds cells p || holdsAny cells rest

end

mutual

/-- The columns compared, in the order of the comparisons. -/
def columns : Predicate → List Nat
  | .all => []
  | .compare column _ _ _ => [column]
  | .and parts | .or parts => columnsOf parts
  | .not inner => columns inner

def columnsOf : List Predicate → List Nat
  | [] => []
  | p :: rest => columns p ++ columnsOf rest

end

def checkComparison (t : Table) (column : Nat) (condition : Condition) (operand : Value) :
    Except Error Unit := do
  let type ← t.columnType column
  if condition.isNullTest then return
  if type.isLinkLike || type = .table then
    throw (.unsupported s!"Queries on {type.name} columns are not supported")
  if condition.isTextOnly && type ≠ .string then
    throw (.typeMismatch column .string type.name)
  if condition.isOrdering && (type = .bool || type = .binary) then
    throw (.unsupported s!"Ordering comparisons are not supported on {type.name} columns")
  if !operand.fits type then
    throw (.typeMismatch column type operand.typeName)

mutual

/-- Check that every comparison is possible on the table; the first that is not decides. -/
def check (t : Table) : Predicate → Except Error Unit
  | .all => .ok ()
  | .compare column condition operand _ => checkComparison t column condition operand
  | .and parts | .or parts => checkAll t parts
  | .not inner => check t inner

def checkAll (t : Table) : List Predicate → Except Error Unit
  | [] => .ok ()
  | p :: rest =>
    match check t p with
    | .ok () => checkAll t rest
    | .error e => .error e

end

mutual

/-- Equality of predicates, their operands compared as values. -/
def equal : Predicate → Predicate → Bool
  | .all, .all => true
  | .compare c k v s, .compare c' k' v' s' => c = c' && k = k' && v.equal v' && s = s'
  | .and ps, .and qs | .or ps, .or qs => equalAll ps qs
  | .not p, .not q => equal p q
  | _, _ => false

def equalAll : List Predicate → List Predicate → Bool
  | [], [] => true
  | p :: ps, q :: qs => equal p q && equalAll ps qs
  | _, _ => false

end

/-- Both predicates at once. A conjunction takes the new part at its end. -/
def narrow : Predicate → Predicate → Predicate
  | .all, p => p
  | .and parts, p => .and (parts ++ [p])
  | q, p => .and [q, p]

end Predicate
end SnapshotStore
