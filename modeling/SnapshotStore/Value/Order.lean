import SnapshotStore.Value

/-!
The order of values used by sorting, comparisons, minimum and maximum. Null comes first;
values of different types are ordered by type, so a mixed column has an order too.
-/

namespace SnapshotStore
namespace Value

/-- The place of a value's type among the types. -/
def typeRank : Value → Nat
  | null => 0
  | bool _ => 1
  | int _ => 2
  | float _ => 3
  | double _ => 4
  | string _ => 5
  | binary _ => 6
  | date _ => 7
  | link _ => 8
  | linkList _ => 9

/-- Text by code points, blobs and link lists item by item, numbers by size, and
floating-point numbers by their place in the total order of bit patterns. -/
def order : Value → Value → Ordering
  | bool a, bool b => Ord.compare a.toNat b.toNat
  | int a, int b => Ord.compare a.toInt b.toInt
  | float a, float b =>
    Ord.compare (FloatFormat.single.rank a.toNat) (FloatFormat.single.rank b.toNat)
  | double a, double b =>
    Ord.compare (FloatFormat.double.rank a.toNat) (FloatFormat.double.rank b.toNat)
  | string a, string b =>
    List.compareLex Ord.compare (a.toList.map Char.toNat) (b.toList.map Char.toNat)
  | binary a, binary b => List.compareLex Ord.compare (a.map UInt8.toNat) (b.map UInt8.toNat)
  | date a, date b => Ord.compare a.toInt b.toInt
  | link a, link b => Ord.compare a b
  | linkList a, linkList b => List.compareLex Ord.compare a b
  | a, b => Ord.compare a.typeRank b.typeRank

end Value
end SnapshotStore
