import Mathlib.Algebra.BigOperators.Group.List.Basic
import Mathlib.Algebra.Ring.Int.Defs
import SnapshotStore.Proofs.Group.Bounds
import SnapshotStore.Proofs.Query.Windows
import SnapshotStore.Proofs.Value.Order

/-!
Aggregates of the same rows in another order. What the sum of integers, the least and the greatest
value are is said by the values alone, in whatever order they come: the sum wraps, so it is one of
integers modulo 2^64, and of values that tie in the order there is only one. The sum of
floating-point numbers is not among these.
-/

namespace SnapshotStore

namespace Aggregate
variable {kind : Aggregate} {type : ColumnType} {values others : List Value} {x y : Value}

/-- The aggregates that are the same in whatever order the values come, by the type of the
column. -/
def Orderless : Aggregate → ColumnType → Prop
  | sum, type => type = .int
  | min, type | max, type => type = .int ∨ type = .float ∨ type = .double ∨ type = .date
  | average, _ => False

/-- What an aggregate says of values among which there is no null. -/
def Tells : Aggregate → List Value → Value → Prop
  | sum, values, x => ∃ (ns : List Int64) (n : Int64), values = ns.map .int ∧ x = .int n ∧
      n.toInt = (ns.map Int64.toInt).sum.bmod (2 ^ 64)
  | min, values, x => (x = .null ↔ values = []) ∧
      (values ≠ [] → x ∈ values ∧ ∀ y ∈ values, (x.order y).isLE)
  | max, values, x => (x = .null ↔ values = []) ∧
      (values ≠ [] → x ∈ values ∧ ∀ y ∈ values, (y.order x).isLE)
  | average, _, _ => False

theorem Orderless.supports (h : kind.Orderless type) : kind.supports type = true := by
  cases kind with
  | sum =>
      obtain rfl : type = .int := h
      rfl
  | min | max =>
      simp only [Orderless] at h
      cases type <;> first | rfl | simp at h
  | average => exact h.elim

/-! The value is determined -/

/-- Values that are not above each other are one and the same. -/
theorem eq_of_isLE (hxy : (x.order y).isLE) (hyx : (y.order x).isLE) : x = y := by
  have hswap : y.order x = (x.order y).swap := Std.OrientedCmp.eq_swap
  rw [hswap] at hyx
  apply Value.order_eq_eq.mp
  cases h : x.order y <;> simp_all

theorem perm_of_map_int {ms ns : List Int64} (h : (ms.map Value.int).Perm (ns.map Value.int)) :
    ms.Perm ns := by
  have hints : ∀ ks : List Int64, (ks.map Value.int).filterMap Value.int? = ks := by
    intro ks
    rw [List.filterMap_map]
    exact List.filterMap_some
  have hperm := h.filterMap Value.int?
  rwa [hints, hints] at hperm

/-- Values in any order have one aggregate only. -/
theorem Tells.unique (hperm : values.Perm others) (h : kind.Tells values x)
    (h' : kind.Tells others y) : x = y := by
  cases kind with
  | sum =>
      obtain ⟨ms, m, rfl, rfl, hm⟩ := h
      obtain ⟨ns, n, rfl, rfl, hn⟩ := h'
      have hsum := ((perm_of_map_int hperm).map Int64.toInt).sum_eq
      exact congrArg Value.int (Int64.toInt_inj.mp (by rw [hm, hn, hsum]))
  | min =>
      by_cases hnone : values = []
      · have hnone' : others = [] := by simpa [hnone] using hperm
        rw [h.1.mpr hnone, h'.1.mpr hnone']
      · obtain ⟨hx, hbelow⟩ := h.2 hnone
        obtain ⟨hy, hbelow'⟩ := h'.2 fun hnone' => hnone (by simpa [hnone'] using hperm)
        exact eq_of_isLE (hbelow y (hperm.mem_iff.mpr hy)) (hbelow' x (hperm.mem_iff.mp hx))
  | max =>
      by_cases hnone : values = []
      · have hnone' : others = [] := by simpa [hnone] using hperm
        rw [h.1.mpr hnone, h'.1.mpr hnone']
      · obtain ⟨hx, habove⟩ := h.2 hnone
        obtain ⟨hy, habove'⟩ := h'.2 fun hnone' => hnone (by simpa [hnone'] using hperm)
        exact eq_of_isLE (habove' x (hperm.mem_iff.mp hx)) (habove y (hperm.mem_iff.mpr hy))
  | average => exact h.elim

/-! The value is had -/

/-- To keep the better of two, from one value to the next, leads to the best of all. -/
theorem foldl_best {R : Value → Value → Prop} {keep : Value → Value → Value}
    (trans : ∀ {a b c}, R a b → R b c → R a c) (refl : ∀ a, R a a)
    (better : ∀ a b, keep a b = a ∧ R a b ∨ keep a b = b ∧ R b a) (v : Value)
    (rest : List Value) :
    rest.foldl keep v ∈ v :: rest ∧ ∀ y ∈ v :: rest, R (rest.foldl keep v) y := by
  induction rest generalizing v with
  | nil => exact ⟨.head _, fun y hy => List.mem_singleton.mp hy ▸ refl v⟩
  | cons w rest ih =>
      obtain ⟨hmem, hbest⟩ := ih (keep v w)
      simp only [List.mem_cons, forall_eq_or_imp, List.foldl_cons] at hmem hbest ⊢
      obtain ⟨hkept, hbest⟩ := hbest
      cases better v w with
      | inl hv =>
          obtain ⟨hkeep, hvw⟩ := hv
          rw [hkeep] at hmem hkept hbest ⊢
          exact ⟨hmem.imp_right .inr, hkept, trans hkept hvw, hbest⟩
      | inr hw =>
          obtain ⟨hkeep, hwv⟩ := hw
          rw [hkeep] at hmem hkept hbest ⊢
          exact ⟨.inr hmem, trans hkept hwv, hkept, hbest⟩

theorem least_best (v : Value) (rest : List Value) :
    least (v :: rest) ∈ v :: rest ∧ ∀ y ∈ v :: rest, ((least (v :: rest)).order y).isLE := by
  apply foldl_best (R := fun a b => (a.order b).isLE)
  case trans => exact Std.TransCmp.isLE_trans
  case refl => exact fun a => by rw [Value.order_eq_eq.mpr rfl]; rfl
  case better =>
    intro a b
    have hswap : b.order a = (a.order b).swap := Std.OrientedCmp.eq_swap
    cases h : a.order b <;> simp [hswap, h]

theorem greatest_best (v : Value) (rest : List Value) :
    greatest (v :: rest) ∈ v :: rest ∧ ∀ y ∈ v :: rest, (y.order (greatest (v :: rest))).isLE := by
  apply foldl_best (R := fun a b => (b.order a).isLE)
  case trans => exact fun hab hbc => Std.TransCmp.isLE_trans hbc hab
  case refl => exact fun a => by rw [Value.order_eq_eq.mpr rfl]; rfl
  case better =>
    intro a b
    have hswap : b.order a = (a.order b).swap := Std.OrientedCmp.eq_swap
    cases h : a.order b <;> simp [hswap, h]

theorem toInt_foldl_add (ns : List Int64) (m : Int64) :
    (ns.foldl (· + ·) m).toInt = (m.toInt + (ns.map Int64.toInt).sum).bmod (2 ^ 64) := by
  induction ns generalizing m with
  | nil => simp
  | cons n rest ih =>
      rw [List.foldl_cons, ih, Int64.toInt_add, Int.bmod_add_bmod, List.map_cons, List.sum_cons,
        Int.add_assoc]

theorem map_filterMap_int (h : ∀ v ∈ values, v.type? = some .int) :
    (values.filterMap Value.int?).map .int = values := by
  induction values with
  | nil => rfl
  | cons v rest ih =>
      obtain ⟨hv, hrest⟩ := List.forall_mem_cons.mp h
      cases v with
      | int n => exact congrArg (Value.int n :: ·) (ih hrest)
      | null | bool b | float b | double b | string s | binary b | date d | link r | linkList rs =>
          exact nomatch hv

/-- Of values of the type, none of them null, the aggregate is what it should be. -/
theorem tells_ofValues (hkind : kind.Orderless type) (hvalues : ∀ v ∈ values, v.type? = some type) :
    kind.Tells values (kind.ofValues type values) := by
  have hnull : ∀ v ∈ values, v ≠ .null := by
    intro v hv hnull
    exact nomatch hnull ▸ hvalues v hv
  cases kind with
  | sum =>
      obtain rfl : type = .int := hkind
      refine ⟨_, intSum values, (map_filterMap_int hvalues).symm, rfl, ?_⟩
      rw [intSum, toInt_foldl_add]
      simp
  | min =>
      cases values with
      | nil => exact ⟨⟨fun _ => rfl, fun _ => rfl⟩, fun h => absurd rfl h⟩
      | cons v rest =>
          obtain ⟨hmem, hbest⟩ := least_best v rest
          refine ⟨⟨fun h => absurd h (hnull _ hmem), nofun⟩, fun _ => ⟨hmem, hbest⟩⟩
  | max =>
      cases values with
      | nil => exact ⟨⟨fun _ => rfl, fun _ => rfl⟩, fun h => absurd rfl h⟩
      | cons v rest =>
          obtain ⟨hmem, hbest⟩ := greatest_best v rest
          refine ⟨⟨fun h => absurd h (hnull _ hmem), nofun⟩, fun _ => ⟨hmem, hbest⟩⟩
  | average => exact hkind.elim

end Aggregate

namespace Table
variable {t : Table} {c : Nat} {column : Column} {rows arranged : List Nat} {kind : Aggregate}
  {x : Value}

/-- The values of the rows in the column, those that are null left out. -/
def values (t : Table) (c : Nat) (rows : List Nat) : List Value :=
  (rows.filterMap (t.cell? c ·)).filter (!·.isNull)

theorem values_perm (h : arranged.Perm rows) : (t.values c arranged).Perm (t.values c rows) :=
  (h.filterMap _).filter _

theorem mapM_get (hw : t.WellFormed) (hcolumn : c < t.columnCount)
    (hrows : ∀ row ∈ rows, row < t.size) :
    rows.mapM (t.get c) = .ok (rows.filterMap (t.cell? c ·)) := by
  induction rows with
  | nil => rfl
  | cons row rest ih =>
      obtain ⟨hrow, hrest⟩ := List.forall_mem_cons.mp hrows
      obtain ⟨x, hx⟩ := Option.isSome_iff_exists.mp (hw.cell?_isSome hcolumn hrow)
      rw [List.mapM_cons, hw.get_eq_ok.mpr hx, ih hrest, List.filterMap_cons, hx]
      rfl

section
variable (hw : t.WellFormed) (hc : t.columns[c]? = some column)
  (hkind : kind.Orderless column.type)
include hw hc hkind

theorem type?_of_mem_values (hx : x ∈ t.values c rows) : x.type? = some column.type := by
  obtain ⟨hcell, hnull⟩ := List.mem_filter.mp hx
  obtain ⟨row, -, hrow⟩ := List.mem_filterMap.mp hcell
  have hfits := (hw.cells column x (.of_cell? hc hrow)).typed
  have hmixed : column.type ≠ .mixed := by
    intro hmixed
    rw [hmixed] at hkind
    cases kind <;> simp [Aggregate.Orderless] at hkind
  cases x with
  | null => exact nomatch hnull
  | _ => simpa [Value.fits, Value.type?, hmixed] using hfits

/-- The aggregate of rows of the table is had, and what it says is said of their values. -/
theorem aggregate_tells (hrows : ∀ row ∈ rows, row < t.size) :
    ∃ x, t.aggregate rows kind c = .ok x ∧ kind.Tells (t.values c rows) x := by
  have htype : t.columnType c = .ok column.type := columnType_eq_ok.mpr ⟨column, hc, rfl⟩
  have hcells := mapM_get hw (List.getElem?_eq_some_iff.mp hc).1 hrows
  refine ⟨kind.ofValues column.type (t.values c rows), ?_,
    Aggregate.tells_ofValues hkind fun v => type?_of_mem_values hw hc hkind⟩
  refine bind_eq_ok.mpr ⟨column.type, htype, ?_⟩
  simp only [hcells, hkind.supports]
  rfl

/-- Rows in another order have the same aggregate. -/
theorem aggregate_perm (hrows : ∀ row ∈ rows, row < t.size) (hperm : arranged.Perm rows)
    (h : t.aggregate rows kind c = .ok x) : t.aggregate arranged kind c = .ok x := by
  obtain ⟨y, hy, htells⟩ := aggregate_tells hw hc hkind hrows
  obtain rfl := Except.ok.inj (hy.symm.trans h)
  have harranged : ∀ row ∈ arranged, row < t.size := fun row hrow =>
    hrows row (hperm.subset hrow)
  obtain ⟨z, hz, htells'⟩ := aggregate_tells hw hc hkind harranged
  rw [hz, htells'.unique (values_perm hperm) htells]

end

end Table
end SnapshotStore
