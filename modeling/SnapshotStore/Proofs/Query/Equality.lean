import SnapshotStore.Proofs.Group.Bounds
import SnapshotStore.Proofs.Value.Order

/-!
Equality in queries. A comparison decides equality by the order of values, and in that order
two values tie only if they are the same, floating-point numbers bit by bit. Equality of values
compares these as numbers. So a query finds a NaN by its own bits and does not find a zero by
the zero of the other sign; on everything else the two agree.
-/

namespace SnapshotStore

namespace FloatFormat
variable {f : FloatFormat} {a b : Nat}

theorem equal_self : f.equal a a = !f.isNaN a := by simp [equal]

/-- Two patterns that are equal as numbers are two zeros. -/
theorem equal_of_ne (h : a ≠ b) :
    f.equal a b = (decide (f.magnitude a = 0) && decide (f.magnitude b = 0)) := by
  have hzero {c : Nat} (hc : f.magnitude c = 0) : f.isNaN c = false := by simp [isNaN, hc]
  by_cases ha : f.magnitude a = 0
  · by_cases hb : f.magnitude b = 0
    · simp [equal, ha, hb, hzero]
    · simp [equal, h, hb]
  · simp [equal, h, ha]

end FloatFormat

namespace Value
variable {a b : Value}

/-- Conditions that only ask whether two values are the same judge them as they judge nulls. -/
theorem satisfies_sameness {k : Condition} (h : k = .equal ∨ k = .notEqual) :
    a.satisfies k b true = k.holdsOfNull (decide (a = b)) := by
  have hnull : (a.isNull && b.isNull) = decide (a = b) ∨ (a.isNull = false ∧ b.isNull = false) := by
    cases a <;> cases b <;> simp [isNull]
  have horder : k.accepts (a.order b) = k.holdsOfNull (decide (a = b)) := by
    rcases h with rfl | rfl <;> simp [Condition.accepts, Condition.holdsOfNull, order_eq_eq]
  have hplain : k ≠ .isNull ∧ k ≠ .isNotNull ∧ k.isTextOnly = false := by
    rcases h with rfl | rfl <;> decide
  unfold satisfies
  rw [if_neg hplain.1, if_neg hplain.2.1, hplain.2.2, if_neg Bool.false_ne_true]
  split
  next htypes =>
    rcases hnull with hnull | ⟨ha, hb⟩
    · rw [hnull]
    · have hne : a ≠ b := by rintro rfl; simp_all
      simp [ha, hne]
  next htypes =>
    split
    · exact horder
    · exact horder

theorem satisfies_equal : a.satisfies .equal b true = decide (a = b) :=
  satisfies_sameness (.inl rfl)

theorem satisfies_notEqual : a.satisfies .notEqual b true = !decide (a = b) :=
  satisfies_sameness (.inr rfl)

/-! Equality of values -/

def isNaN : Value → Bool
  | float bits => FloatFormat.single.isNaN bits.toNat
  | double bits => FloatFormat.double.isNaN bits.toNat
  | _ => false

def isZero : Value → Bool
  | float bits => FloatFormat.single.magnitude bits.toNat = 0
  | double bits => FloatFormat.double.magnitude bits.toNat = 0
  | _ => false

theorem equal_self : a.equal a = !a.isNaN := by
  cases a <;> simp [equal, isNaN, FloatFormat.equal_self]

/-- Two values that are not the same are equal only if they are the two zeros of a type. -/
theorem equal_of_ne (h : a ≠ b) :
    a.equal b = (decide (a.type? = b.type?) && (a.isZero && b.isZero)) := by
  cases a <;> cases b
  case float.float x y =>
    exact FloatFormat.equal_of_ne fun he => h (congrArg float (UInt32.toNat_inj.mp he))
  case double.double x y =>
    exact FloatFormat.equal_of_ne fun he => h (congrArg double (UInt64.toNat_inj.mp he))
  all_goals simp_all [equal, type?, isZero]

/-- The pairs that bits and numbers judge differently: a NaN and itself, and the two zeros of a
type. -/
def Contested (a b : Value) : Prop :=
  if a = b then a.isNaN else a.type? = b.type? ∧ a.isZero ∧ b.isZero

theorem same_eq_equal_iff : decide (a = b) = a.equal b ↔ ¬ a.Contested b := by
  unfold Contested
  split
  next h => simp [h, equal_self]
  next h => simp [h, equal_of_ne]

end Value

namespace Table
variable {t : Table} {column row : Nat} {type : ColumnType} {cell operand : Value}

theorem matchesRow_compare {k : Condition} (h : t.cell? column row = some cell) :
    ((Query.ofTable t).filter (.compare column k operand true)).matchesRow t row =
      cell.satisfies k operand true := by
  obtain ⟨r, hr, hcell⟩ := cell?_eq_some.mp h
  simp [Query.matchesRow, Query.filter, Query.ofTable, Predicate.narrow, Predicate.holds, hr, hcell]

theorem check_compare {k : Condition} (h : k = .equal ∨ k = .notEqual)
    (htype : t.columnType column = .ok type) (hscalar : type.isLinkLike = false ∧ type ≠ .table)
    (hfits : operand.fits type = true) :
    ((Query.ofTable t).filter (.compare column k operand true)).check t = .ok () := by
  have hplain : k.isNullTest = false ∧ k.isTextOnly = false ∧ k.isOrdering = false := by
    rcases h with rfl | rfl <;> decide
  simp [Query.check, Query.filter, Query.ofTable, Predicate.narrow, Predicate.check,
    Predicate.checkComparison, htype, hscalar, hfits, hplain]

/-- On every column that takes comparisons of values, a query for equality runs and finds the rows
whose cell is the operand bit by bit, and a query for inequality finds the others. That is what
equality of values says, unless the cell and the operand are one NaN or two zeros. -/
theorem equality_by_bits (htype : t.columnType column = .ok type)
    (hscalar : type.isLinkLike = false ∧ type ≠ .table) (hfits : operand.fits type = true)
    (hcell : t.cell? column row = some cell) :
    let query k := (Query.ofTable t).filter (.compare column k operand true)
    (query .equal).check t = .ok () ∧ (query .notEqual).check t = .ok () ∧
      (query .equal).matchesRow t row = decide (cell = operand) ∧
      (query .notEqual).matchesRow t row = !(query .equal).matchesRow t row ∧
      ((query .equal).matchesRow t row = cell.equal operand ↔ ¬ cell.Contested operand) := by
  intro query
  have hequal : (query .equal).matchesRow t row = decide (cell = operand) :=
    (matchesRow_compare hcell).trans Value.satisfies_equal
  have hnotEqual : (query .notEqual).matchesRow t row = !decide (cell = operand) :=
    (matchesRow_compare hcell).trans Value.satisfies_notEqual
  exact ⟨check_compare (.inl rfl) htype hscalar hfits, check_compare (.inr rfl) htype hscalar hfits,
    hequal, hequal ▸ hnotEqual, hequal ▸ Value.same_eq_equal_iff⟩

/-- A mixed column that holds the integer zero, the negative zero and a NaN. -/
def mixedZeros : Table where
  key := 1
  name := "t"
  columns := [.plain "x" .mixed false]
  rows := [[.int 0], [.double 0x8000000000000000], [.double 0x7FF8000000000000]]
  rowIds := [0, 1, 2]
  nextRowId := 3
  schemaEpoch := 1

/-- The integer zero is not the zero of the doubles, for queries as for equality of values. -/
theorem integer_zero_not_found :
    let query := (Query.ofTable mixedZeros).filter (.compare 0 .equal (.double 0) true)
    mixedZeros.cell? 0 0 = some (.int 0) ∧ query.check mixedZeros = .ok () ∧
      query.matchesRow mixedZeros 0 = false ∧ (Value.int 0).equal (.double 0) = false := by
  obtain ⟨hcheck, -, hfound, -, hagree⟩ :=
    @equality_by_bits mixedZeros 0 0 .mixed (.int 0) (.double 0) rfl (by decide) rfl rfl
  have hplain : ¬ (Value.int 0).Contested (.double 0) := by simp [Value.Contested, Value.type?]
  exact ⟨rfl, hcheck, hfound, (hagree.mpr hplain).symm.trans hfound⟩

/-- The negative zero equals the other zero and is not found by it, and a NaN equals nothing and is
found by itself. -/
theorem zero_missed_and_nan_found :
    let zero := Value.double 0
    let nan := Value.double 0x7FF8000000000000
    let query operand := (Query.ofTable mixedZeros).filter (.compare 0 .equal operand true)
    (mixedZeros.get 0 1).map (·.equal zero) = .ok true ∧
      (query zero).matchesRow mixedZeros 1 = false ∧
      (mixedZeros.get 0 2).map (·.equal nan) = .ok false ∧
      (query nan).matchesRow mixedZeros 2 = true :=
  ⟨rfl, rfl, rfl, rfl⟩

end Table
end SnapshotStore
