import SnapshotStore.Proofs.Query.Windows
import SnapshotStore.Proofs.View.Shaping

/-!
Windows up to the end of a table. The numbers of such a window are turned into rows when it is made,
and the end becomes the size that the table has then. So the matches in the window are, in every
table, those of the matches from its start onwards that stand below that size. A sync finds them
anew and changes nothing else of the view.
-/

namespace SnapshotStore

/-! Matches onwards -/

/-- Among rows in ascending order it makes no difference whether some are taken first or those below
a bound are picked first. -/
theorem take_filter_below {rows : List Nat} (h : rows.Pairwise (· < ·)) (bound k : Nat) :
    (rows.filter fun row => decide (row < bound)).take k =
      (rows.take k).filter fun row => decide (row < bound) := by
  induction rows generalizing k with
  | nil => simp
  | cons row rest ih =>
      obtain ⟨habove, hrest⟩ := List.pairwise_cons.mp h
      cases k with
      | zero => simp
      | succ k =>
          by_cases hrow : row < bound
          · simp [hrow, ih hrest k]
          · -- no row after this one is below the bound
            have hnone : ∀ r ∈ rest, ¬r < bound := fun r hr => by
              have hlt := habove r hr
              omega
            have hempty : ∀ part, part ⊆ rest → part.filter (fun r => decide (r < bound)) = [] :=
              fun part hpart => List.filter_eq_nil_iff.mpr fun r hr => by
                simpa using hnone r (hpart hr)
            simp [hrow, hempty rest (List.Subset.refl _), hempty _ (List.take_subset k rest)]

/-- What numbers for a window up to the end of a table come to. -/
theorem Window.ofBounds_to_end {size : Nat} {start limit : Int} {w : Window}
    (h : ofBounds size start (-1) limit = .ok w) : 0 ≤ start ∧
      w = ⟨start.toNat, some size, if limit = -1 then none else some limit.toNat⟩ := by
  obtain ⟨⟨hstart, -⟩, rfl⟩ := ofBounds_eq_ok.mp h
  exact ⟨hstart, rfl⟩

namespace Query
variable {q : Query} {t t' : Table}

/-- The first matches from a position onwards, as many as the limit says, where -1 stands for no
limit. -/
def onward (q : Query) (t : Table) (start limit : Int) : List Nat :=
  let found := (List.range t.size).filter fun row : Nat =>
    decide (start ≤ row) && q.matchesRow t row
  if limit = -1 then found else found.take limit.toNat

/-- The matches in a window up to the end of a table that had the given size. -/
theorem matching_to_end {size : Nat} {start limit : Int} {w : Window}
    (h : Window.ofBounds size start (-1) limit = .ok w) :
    q.matching t w = (q.onward t start limit).filter fun row => decide (row < size) := by
  obtain ⟨hstart, rfl⟩ := Window.ofBounds_to_end h
  set found := (List.range t.size).filter fun row : Nat =>
    decide (start ≤ row) && q.matchesRow t row with hfound
  have hascending : found.Pairwise (· < ·) := List.pairwise_lt_range.filter _
  have hrows : ∀ limit? : Option Nat, (Window.rows ⟨start.toNat, some size, limit?⟩ t.size).filter
      (q.matchesRow t) = found.filter fun row => decide (row < size) := by
    intro limit?
    refine List.Pairwise.eq_of_mem_iff ((Window.rows_ascending _ _).filter _)
      (hascending.filter _) fun row => ?_
    simp only [hfound, List.mem_filter, Window.mem_rows, List.mem_range, Option.getD_some,
      Bool.and_eq_true, decide_eq_true_eq]
    constructor
    · rintro ⟨⟨hfrom, hto⟩, hmatch⟩
      exact ⟨⟨by omega, by omega, hmatch⟩, by omega⟩
    · rintro ⟨⟨hthere, hfrom, hmatch⟩, hto⟩
      exact ⟨⟨by omega, by omega⟩, hmatch⟩
  simp only [matching, hrows, onward, ← hfound]
  split
  · rfl
  · exact take_filter_below hascending size _

end Query

/-! Checks against the columns alone -/

theorem Table.columnType_of_columns {t t' : Table} (h : t'.columns = t.columns) (column : Nat) :
    t'.columnType column = t.columnType column := by
  simp only [Table.columnType, Table.column, Table.columnCount, h]

theorem Table.checkDistinct_of_columns {t t' : Table} (h : t'.columns = t.columns) (column : Nat) :
    t'.checkDistinct column = t.checkDistinct column := by
  rw [Table.checkDistinct, Table.columnType_of_columns h, Table.checkDistinct]

namespace Predicate
variable {t t' : Table}

mutual

theorem check_of_columns (h : t'.columns = t.columns) : ∀ p : Predicate, p.check t' = p.check t
  | .all => rfl
  | .compare column condition operand caseSensitive => by
      simp only [check, checkComparison, Table.columnType_of_columns h]
  | .and parts | .or parts => checkAll_of_columns h parts
  | .not inner => check_of_columns h inner

theorem checkAll_of_columns (h : t'.columns = t.columns) :
    ∀ parts : List Predicate, checkAll t' parts = checkAll t parts
  | [] => rfl
  | p :: rest => by
      rw [checkAll, check_of_columns h p, checkAll_of_columns h rest, checkAll]

end

end Predicate

/-- A query that ran goes on to run as long as its table has the same columns. -/
theorem Query.check_of_columns {q : Query} {t t' : Table} (hkey : t'.key = q.table)
    (hepoch : t'.schemaEpoch = q.schemaEpoch) (hcolumns : t'.columns = t.columns)
    (h : q.check t = .ok ()) : q.check t' = .ok () := by
  obtain ⟨hkey₀, hepoch₀⟩ := Query.check_eq_ok h
  rw [Query.check, if_neg (not_not.mpr hkey₀), if_neg (not_not.mpr hepoch₀)] at h
  rw [Query.check, if_neg (not_not.mpr hkey), if_neg (not_not.mpr hepoch),
    Predicate.check_of_columns hcolumns, h]

/-! Syncs -/

namespace View
variable {t : Table} {v v' : View}

theorem thinAgain_eq_ok (h : v.thinAgain t = .ok v') : ∃ rows, v' = { v with rows } := by
  unfold thinAgain at h
  split at h
  next c hc =>
    obtain ⟨-, _, -, rfl⟩ := distinct_eq_ok h
    exact ⟨_, by rw [← hc]⟩
  next => exact ⟨v.rows, (Except.ok.inj h).symm⟩

/-- A sync, whole or torn, changes only the rows. -/
theorem sync_rows_only (v : View) (t : Table) : ∃ rows, (v.sync t).2 = { v with rows } := by
  by_cases ha : v.isAttached t = true
  · cases hfound : v.query.findAll t v.window with
    | error e => exact ⟨v.rows, by rw [sync_of_not_found ha hfound]⟩
    | ok rows =>
        rw [sync_of_found ha hfound]
        split
        · exact ⟨_, rfl⟩
        next v' hthin =>
          obtain ⟨kept, rfl⟩ := thinAgain_eq_ok hthin
          exact ⟨kept, rfl⟩
  · have hcheck : v.checkAttached t = .error (.schemaChanged "TableView" t.name) := if_neg ha
    refine ⟨v.rows, ?_⟩
    rw [sync, hcheck]
    rfl

/-- What a sync that succeeds comes to: the rows found in the window, in the order of the last sort,
and thinned out. -/
theorem sync_eq_ok (ha : v.isAttached t = true) (h : (v.sync t).1 = .ok ()) :
    View.thinAgain { v with rows := v.arrange t (v.query.matching t v.window) } t =
      .ok (v.sync t).2 := by
  cases hfound : v.query.findAll t v.window with
  | error e =>
      rw [sync_of_not_found ha hfound] at h
      exact nomatch h
  | ok rows =>
      obtain ⟨_, -, hrows⟩ := bind_eq_ok.mp hfound
      obtain rfl := pure_eq_ok.mp hrows
      rw [sync_of_found ha hfound] at h ⊢
      split at h
      · exact nomatch h
      next v' hthin => rw [hthin]

/-- A sync succeeds if the query can run and the column that the view is distinct in has distinct
values. -/
theorem sync_ok (ha : v.isAttached t = true) (hquery : v.query.check t = .ok ())
    (hthin : ∀ c, v.distinctColumn? = some c → t.checkDistinct c = .ok ()) :
    (v.sync t).1 = .ok () := by
  have hfound : v.query.findAll t v.window = .ok (v.query.matching t v.window) :=
    bind_eq_ok.mpr ⟨(), hquery, rfl⟩
  have hthere : ∀ row ∈ v.arrange t (v.query.matching t v.window), row < t.size := fun row hrow =>
    Query.findAll_lt hfound row ((v.arrange_perm t _).subset hrow)
  obtain ⟨v', hv'⟩ : ∃ v', View.thinAgain
      { v with rows := v.arrange t (v.query.matching t v.window) } t = .ok v' := by
    unfold thinAgain
    split
    next c hc => exact distinct_of_check ha (hthin c hc) hthere
    next => exact ⟨_, rfl⟩
  rw [sync_of_found ha hfound, hv']

/-- Nothing is done over again on a view that was neither sorted nor thinned out. -/
theorem thinAgain_plain {rows : List Nat} (hsort : v.sortKeys? = none)
    (hdistinct : v.distinctColumn? = none) :
    View.thinAgain { v with rows := v.arrange t rows } t = .ok { v with rows } := by
  simp only [thinAgain, arrange, hsort, hdistinct]

end View
end SnapshotStore
