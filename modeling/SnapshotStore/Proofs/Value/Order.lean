import SnapshotStore.Value.Order

/-!
The order of values. It goes first by type and then by what values of the type are compared by, as
one number or item by item. So it is a lexicographic order of orders that are total, and that makes
it total on values of all types.
-/

namespace SnapshotStore

/-- A bit pattern has a place in the total order that no other has. -/
theorem FloatFormat.rank_inj {f : FloatFormat} {a b : Nat} (ha : a < 2 * f.signBit)
    (hb : b < 2 * f.signBit) : f.rank a = f.rank b ↔ a = b := by
  unfold rank
  split <;> split <;> omega

namespace Value

/-- What integers and dates are ordered by. -/
def number : Value → Int
  | int n | date n => n.toInt
  | _ => 0

/-- What all other values are ordered by, item by item. -/
def parts : Value → List Nat
  | bool b => [b.toNat]
  | float bits => [FloatFormat.single.rank bits.toNat]
  | double bits => [FloatFormat.double.rank bits.toNat]
  | string s => s.toList.map Char.toNat
  | binary bytes => bytes.map UInt8.toNat
  | link row => [row]
  | linkList rows => rows
  | _ => []

/-- The pairs of types are gone through only here. What holds of values of any three types follows
from the lexicographic order. -/
theorem order_eq : order = compareLex (compareOn typeRank)
    (compareLex (compareOn number) (compareOn parts)) := by
  funext a b
  cases a <;> cases b <;> simp [order, typeRank, number, parts, compareLex, compareOn,
    List.compare_eq_compareLex, Nat.compare_eq_ite_lt]

instance : Std.TransCmp order := order_eq ▸ inferInstance

/-- The type of a value and what it is ordered by make up the value. -/
theorem eq_of_parts {a b : Value} (htype : a.typeRank = b.typeRank) (hnumber : a.number = b.number)
    (hparts : a.parts = b.parts) : a = b := by
  cases a <;> cases b <;> try cases htype
  case null.null => rfl
  case bool.bool x y => cases x <;> cases y <;> first | rfl | cases hparts
  case int.int => exact congrArg int (Int64.toInt_inj.mp hnumber)
  case date.date => exact congrArg date (Int64.toInt_inj.mp hnumber)
  case float.float x y =>
    have hrank := (FloatFormat.rank_inj x.toNat_lt y.toNat_lt).mp (List.cons.inj hparts).1
    exact congrArg float (UInt32.toNat_inj.mp hrank)
  case double.double x y =>
    have hrank := (FloatFormat.rank_inj x.toNat_lt y.toNat_lt).mp (List.cons.inj hparts).1
    exact congrArg double (UInt64.toNat_inj.mp hrank)
  case string.string =>
    have hchars := (List.map_inj_right fun _ _ => Char.toNat_inj.mp).mp hparts
    exact congrArg string (String.toList_inj.mp hchars)
  case binary.binary =>
    exact congrArg binary ((List.map_inj_right fun _ _ => UInt8.toNat_inj.mp).mp hparts)
  case link.link => exact congrArg link (List.cons.inj hparts).1
  case linkList.linkList => exact congrArg linkList hparts

/-- Only a value itself ties with it. -/
theorem order_eq_eq {a b : Value} : a.order b = .eq ↔ a = b := by
  have hkeys : a.order b = .eq ↔
      a.typeRank = b.typeRank ∧ a.number = b.number ∧ a.parts = b.parts := by
    simp [order_eq, compareLex_eq_eq, compareOn]
  exact hkeys.trans ⟨fun ⟨htype, hnumber, hparts⟩ => eq_of_parts htype hnumber hparts,
    by rintro rfl; simp⟩

/-- Null comes before all other values. -/
theorem null_order {x : Value} (h : x ≠ null) : null.order x = .lt := by
  cases x with
  | null => exact absurd rfl h
  | bool b | int n | float b | double b | string s | binary b | date d | link r | linkList rs => rfl

/-- Values of all types are in one total order. Seen from the other side it is reversed, it is
transitive, only a value of the same type with the same content ties, floating-point numbers taken
by their bits, and null is below all others. -/
theorem order_total (a b c : Value) : a.order b = (b.order a).swap ∧
    ((a.order b).isLE → (b.order c).isLE → (a.order c).isLE) ∧
    (a.order b = .eq ↔ a = b) ∧ (a ≠ null → null.order a = .lt) := by
  have hswap : a.order b = (b.order a).swap := Std.OrientedCmp.eq_swap
  have htrans (hab : (a.order b).isLE) (hbc : (b.order c).isLE) : (a.order c).isLE :=
    Std.TransCmp.isLE_trans hab hbc
  exact ⟨hswap, htrans, order_eq_eq, null_order⟩

/-- A NaN with its sign set is below the negative zero, which is below the other zero. -/
theorem nan_below_zeros :
    let nan := double 0xFFF8000000000000
    let negativeZero := double 0x8000000000000000
    let zero := double 0
    (nan.order negativeZero).isLE ∧ (negativeZero.order zero).isLE ∧ (nan.order zero).isLE ∧
      negativeZero.order zero ≠ .eq ∧ null.order nan = .lt := by
  intro nan negativeZero zero
  have hnan : (nan.order negativeZero).isLE := by decide
  have hzeros : (negativeZero.order zero).isLE := by decide
  obtain ⟨-, htrans, -, hnull⟩ := order_total nan negativeZero zero
  obtain ⟨-, -, htie, -⟩ := order_total negativeZero zero nan
  exact ⟨hnan, hzeros, htrans hnan hzeros, mt htie.mp (by decide), hnull (by decide)⟩

end Value
end SnapshotStore
