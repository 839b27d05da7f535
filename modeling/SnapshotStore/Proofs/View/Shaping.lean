import Mathlib.Data.List.Pairwise
import SnapshotStore.Proofs.View.Stable

/-!
Views that are sorted and thinned out any number of times. Of all this a view remembers the last
sort and the last column it was made distinct in, and a sync does these two over again, in this
order. The rows themselves are in the order of the keys of all sorts together, and they were picked
by the order they stood in when the view was first thinned out.
-/

namespace SnapshotStore

inductive Shaping
  | sort (keys : List SortKey)
  | distinct (column : Nat)
  deriving DecidableEq

/-- A step of shaping. To sort rows that have no order is taken to panic. -/
def View.shape (t : Table) (v : View) : Shaping → Except Error View
  | .sort keys => do
    SortKey.check t keys
    let (outcome, sorted) := v.sort t keys .panic
    outcome
    return sorted
  | .distinct column => v.distinct t column

namespace Shaping

def keys? : Shaping → Option (List SortKey)
  | sort keys => some keys
  | distinct _ => none

def column? : Shaping → Option Nat
  | sort _ => none
  | distinct column => some column

def sorts (ss : List Shaping) : List (List SortKey) := ss.filterMap keys?

def columns (ss : List Shaping) : List Nat := ss.filterMap column?

/-- The keys of all sorts, those of later sorts first. -/
def allKeys (ss : List Shaping) : List SortKey := (sorts ss).reverse.flatten

def lastKeys (ss : List Shaping) : List SortKey := (sorts ss).getLast?.getD []

/-- The keys of the sorts before the view is first thinned out. -/
def keysBefore (ss : List Shaping) : List SortKey := allKeys (ss.takeWhile (·.column?.isNone))

/-- At most one sort and then at most one thinning out. -/
def once (keys? : Option (List SortKey)) (column? : Option Nat) : List Shaping :=
  keys?.toList.map sort ++ column?.toList.map distinct

/-- What a view remembers of all this: the last sort and then the last column. -/
def latest (ss : List Shaping) : List Shaping := once (sorts ss).getLast? (columns ss).getLast?

def Allowed (t : Table) : Shaping → Prop
  | sort keys => SortKey.check t keys = .ok ()
  | distinct column => t.checkDistinct column = .ok ()

variable {ss : List Shaping} {keys : List SortKey} {c : Nat}

theorem mem_sorts : keys ∈ sorts ss ↔ .sort keys ∈ ss := by
  rw [sorts, List.mem_filterMap]
  constructor
  · rintro ⟨s, hs, h⟩
    cases s <;> cases h
    exact hs
  · exact fun h => ⟨_, h, rfl⟩

theorem mem_columns : c ∈ columns ss ↔ .distinct c ∈ ss := by
  rw [columns, List.mem_filterMap]
  constructor
  · rintro ⟨s, hs, h⟩
    cases s <;> cases h
    exact hs
  · exact fun h => ⟨_, h, rfl⟩

theorem mem_of_mem_latest {s : Shaping} (h : s ∈ latest ss) : s ∈ ss := by
  simp only [latest, once, List.mem_append, List.mem_map, Option.mem_toList] at h
  rcases h with ⟨keys, hkeys, rfl⟩ | ⟨c, hc, rfl⟩
  · exact mem_sorts.mp (List.mem_of_getLast? hkeys)
  · exact mem_columns.mp (List.mem_of_getLast? hc)

@[simp] theorem sorts_sort : sorts (ss ++ [.sort keys]) = sorts ss ++ [keys] := by
  simp [sorts, keys?]

@[simp] theorem sorts_distinct : sorts (ss ++ [.distinct c]) = sorts ss := by
  simp [sorts, keys?]

@[simp] theorem columns_sort : columns (ss ++ [.sort keys]) = columns ss := by
  simp [columns, column?]

@[simp] theorem columns_distinct : columns (ss ++ [.distinct c]) = columns ss ++ [c] := by
  simp [columns, column?]

@[simp] theorem allKeys_sort : allKeys (ss ++ [.sort keys]) = keys ++ allKeys ss := by
  simp [allKeys]

@[simp] theorem allKeys_distinct : allKeys (ss ++ [.distinct c]) = allKeys ss := by
  simp [allKeys]

/-- Once the view is thinned out, what comes after it makes no difference. -/
theorem keysBefore_append (h : columns ss ≠ []) (rest : List Shaping) :
    keysBefore (ss ++ rest) = keysBefore ss := by
  unfold keysBefore
  congr 1
  induction ss with
  | nil => exact absurd rfl h
  | cons s ss ih =>
      cases s with
      | sort keys => simpa [column?] using ih (by simpa [columns, column?] using h)
      | distinct c => simp [column?]

theorem takeWhile_of_columns (h : columns ss = []) (rest : List Shaping) :
    (ss ++ rest).takeWhile (·.column?.isNone) = ss ++ rest.takeWhile (·.column?.isNone) :=
  List.takeWhile_append_of_pos (by simpa [columns, List.filterMap_eq_nil_iff] using h)

theorem keysBefore_of_columns (h : columns ss = []) : keysBefore ss = allKeys ss := by
  have hall := takeWhile_of_columns h []
  rw [keysBefore, ← List.append_nil ss, hall, List.takeWhile_nil]

theorem keysBefore_distinct : keysBefore (ss ++ [.distinct c]) = keysBefore ss := by
  by_cases h : columns ss = []
  · rw [keysBefore_of_columns h, keysBefore, takeWhile_of_columns h]
    simp [column?]
  · exact keysBefore_append h _

end Shaping

namespace View
open Shaping
variable {t : Table} {v₀ v v' : View} {s : Shaping} {ss rest : List Shaping}

/-- The view is attached to the table, and its rows stand as a query finds them. -/
structure Found (t : Table) (v₀ : View) : Prop where
  attached : v₀.isAttached t = true
  rows : v₀.query.findAll t v₀.window = .ok v₀.rows
  unsorted : v₀.sortKeys? = none
  whole : v₀.distinctColumn? = none

theorem found_of_ofQuery {q : Query} {w : Window} (h : View.ofQuery t q w = .ok v₀) :
    Found t v₀ := by
  simp only [ofQuery, bind_eq_ok, pure_eq_ok] at h
  obtain ⟨rows, hrows, rfl⟩ := h
  exact ⟨by simp [isAttached], hrows, rfl, rfl⟩

theorem Found.ascending (h : Found t v₀) : v₀.rows.Pairwise (· < ·) := by
  have hrows := h.rows
  simp only [Query.findAll, bind_eq_ok, pure_eq_ok] at hrows
  obtain ⟨_, -, hrows⟩ := hrows
  rw [← hrows]
  have hascending := v₀.window.rows_ascending t.size
  unfold Query.matching Window.cut
  split
  · exact (hascending.filter _).take
  · exact hascending.filter _

/-- The view is what it was at first but for its rows and for what it remembers of its shape. -/
def Remembers (v₀ : View) (ss : List Shaping) (v : View) : Prop :=
  ∃ rows, v = { v₀ with
    rows, sortKeys? := (sorts ss).getLast?, distinctColumn? := (columns ss).getLast? }

theorem shape_eq_ok (ha : v.isAttached t = true) (h : v.shape t s = .ok v') :
    s.Allowed t ∧ v'.rows ⊆ v.rows ∧ match s with
      | .sort keys => v' = { v with rows := SortKey.sort t keys v.rows, sortKeys? := some keys }
      | .distinct c => v' = { v with rows := v'.rows, distinctColumn? := some c } := by
  cases s with
  | sort keys =>
      obtain ⟨_, hcheck, h⟩ := bind_eq_ok.mp h
      obtain ⟨_, hsort, h⟩ := bind_eq_ok.mp h
      have hsorted : (v.sort t keys .panic).2 = v' := pure_eq_ok.mp h
      rw [sort_of_orders ha (orders_of_sort hsort)] at hsorted
      subst hsorted
      exact ⟨hcheck, (SortKey.sort_perm t keys v.rows).subset, rfl⟩
  | distinct c =>
      have hrows := distinct_rows h
      obtain ⟨hcheck, _, -, rfl⟩ := distinct_eq_ok h
      exact ⟨hcheck, hrows, rfl⟩

theorem Remembers.attached (hr : Remembers v₀ ss v) (ha : v₀.isAttached t = true) :
    v.isAttached t = true := by
  obtain ⟨_, rfl⟩ := hr
  exact ha

theorem Remembers.step (hr : Remembers v₀ ss v) (ha : v₀.isAttached t = true)
    (h : v.shape t s = .ok v') : Remembers v₀ (ss ++ [s]) v' := by
  obtain ⟨-, -, hv'⟩ := shape_eq_ok (hr.attached ha) h
  obtain ⟨rows, rfl⟩ := hr
  cases s with
  | sort keys => exact ⟨_, by rw [hv', sorts_sort, columns_sort, List.getLast?_concat]⟩
  | distinct c => exact ⟨_, by rw [hv', sorts_distinct, columns_distinct, List.getLast?_concat]⟩

/-- A property of views with what shaped them, kept by every step, is one of the whole. -/
theorem foldlM_shape {P : List Shaping → View → Prop}
    (step : ∀ {ss v s v'}, Remembers v₀ ss v → P ss v → v.shape t s = .ok v' → P (ss ++ [s]) v')
    (ha : v₀.isAttached t = true) (hr : Remembers v₀ ss v) (hp : P ss v)
    (h : rest.foldlM (shape t) v = .ok v') : Remembers v₀ (ss ++ rest) v' ∧ P (ss ++ rest) v' := by
  induction rest generalizing ss v with
  | nil =>
      obtain rfl := pure_eq_ok.mp h
      simpa using ⟨hr, hp⟩
  | cons s rest ih =>
      rw [List.foldlM_cons] at h
      obtain ⟨v₁, hv₁, h⟩ := bind_eq_ok.mp h
      rw [List.append_cons]
      exact ih (hr.step ha hv₁) (step hr hp hv₁) h

theorem Found.remembers (h : Found t v₀) : Remembers v₀ [] v₀ :=
  ⟨v₀.rows, by simp only [sorts, columns, List.filterMap_nil, List.getLast?_nil, ← h.unsorted,
    ← h.whole]⟩

theorem Found.allowed (hf : Found t v₀) (h : ss.foldlM (shape t) v₀ = .ok v) :
    Remembers v₀ ss v ∧ ∀ s ∈ ss, s.Allowed t := by
  refine foldlM_shape (P := fun ss _ => ∀ s ∈ ss, s.Allowed t) (fun {ss v s v'} hr hp hs => ?_)
    hf.attached hf.remembers (fun _ hs => nomatch hs) h
  obtain ⟨hs, -⟩ := shape_eq_ok (hr.attached hf.attached) hs
  exact List.forall_mem_append.mpr ⟨hp, by simpa using hs⟩

theorem shape_sort {keys : List SortKey} (ha : v.isAttached t = true) (hrows : v.Within t.size)
    (hkeys : SortKey.check t keys = .ok ()) : v.shape t (.sort keys) =
      .ok { v with rows := SortKey.sort t keys v.rows, sortKeys? := some keys } := by
  simp only [shape, hkeys, sort_of_within ha hrows]
  rfl

/-- Shaping that is allowed succeeds on rows that the table has. -/
theorem foldlM_shape_total (ha : v.isAttached t = true) (hrows : v.Within t.size)
    (h : ∀ s ∈ ss, s.Allowed t) : ∃ v', ss.foldlM (shape t) v = .ok v' := by
  induction ss generalizing v with
  | nil => exact ⟨v, rfl⟩
  | cons s rest ih =>
      have hs := h s (by simp)
      obtain ⟨v₁, hv₁⟩ : ∃ v₁, v.shape t s = .ok v₁ := by
        cases s with
        | sort keys => exact ⟨_, shape_sort ha hrows hs⟩
        | distinct c => exact distinct_of_check ha hs hrows
      obtain ⟨-, hsub, hv⟩ := shape_eq_ok ha hv₁
      have ha₁ : v₁.isAttached t = true := by
        cases s <;> rw [hv] <;> exact ha
      obtain ⟨v', hv'⟩ := ih ha₁ (hrows.mono hsub) fun s hs => h s (.tail _ hs)
      exact ⟨v', by rw [List.foldlM_cons, hv₁]; exact hv'⟩

/-- What one shaping does, or none. -/
theorem foldlM_toList {α : Type} (f : α → Shaping) (o : Option α) (t : Table) (v : View) :
    (o.toList.map f).foldlM (shape t) v = o.elim (.ok v) fun x => v.shape t (f x) := by
  cases o with
  | none => rfl
  | some x => exact bind_pure _

/-- To sync against the table as it is does over again what the view remembers. -/
theorem sync_eq_latest (hf : Found t v₀) (h : ss.foldlM (shape t) v₀ = .ok v) :
    ∃ v', (latest ss).foldlM (shape t) v₀ = .ok v' ∧ v.sync t = (.ok (), v') := by
  obtain ⟨hr, hallowed⟩ := hf.allowed h
  have ha := hr.attached hf.attached
  obtain ⟨rows, rfl⟩ := hr
  obtain ⟨v', hv'⟩ := foldlM_shape_total hf.attached (Query.findAll_lt hf.rows) fun s hs =>
    hallowed s (mem_of_mem_latest hs)
  refine ⟨v', hv', ?_⟩
  rw [sync_of_found ha hf.rows]
  obtain ⟨table, epoch, found, query, window, sortKeys?, distinctColumn?⟩ := v₀
  obtain rfl : sortKeys? = none := hf.unsorted
  obtain rfl : distinctColumn? = none := hf.whole
  rw [latest, once, List.foldlM_append] at hv'
  obtain ⟨sorted, hsorted, hthin⟩ := bind_eq_ok.mp hv'
  rw [foldlM_toList] at hsorted hthin
  have hsorted : sorted = ⟨table, epoch, View.arrange
      ⟨table, epoch, rows, query, window, (sorts ss).getLast?, (columns ss).getLast?⟩ t found,
      query, window, (sorts ss).getLast?, none⟩ := by
    cases hlast : (sorts ss).getLast? with
    | none =>
        rw [hlast] at hsorted
        exact (pure_eq_ok.mp hsorted).symm
    | some keys =>
        rw [hlast, Option.elim_some] at hsorted
        exact (shape_eq_ok hf.attached hsorted).2.2
  subst hsorted
  cases hcolumn : (columns ss).getLast? with
  | none =>
      rw [hcolumn] at hthin
      obtain rfl := pure_eq_ok.mp hthin
      rfl
  | some c =>
      rw [hcolumn, Option.elim_some] at hthin
      -- whether a view was distinct before makes no difference to thinning it out
      have hagain : View.thinAgain ⟨table, epoch, View.arrange
          ⟨table, epoch, rows, query, window, (sorts ss).getLast?, some c⟩ t found,
          query, window, (sorts ss).getLast?, some c⟩ t = .ok v' := hthin
      rw [hagain]

/-! The rows -/

/-- What the rows of a shaped view are. They stand in the order of all keys; in every column that
the view was made distinct in they have one value each; and if that was one column, they are of the
rows with their value the first in the order of the keys before. -/
structure Shaped (t : Table) (v₀ : View) (ss : List Shaping) (v : View) : Prop where
  order : v.rows.Pairwise (SortKey.Precedes t (allKeys ss))
  subset : v.rows ⊆ v₀.rows
  apart : ∀ c ∈ columns ss, v.rows.Pairwise fun a b => t.get c a ≠ t.get c b
  kept : (∀ c ∈ columns ss, ∀ d ∈ columns ss, c = d) → ∀ row, row ∈ v.rows ↔ row ∈ v₀.rows ∧
    ∀ c ∈ columns ss, ∀ r ∈ v₀.rows,
      SortKey.Precedes t (keysBefore ss) r row → t.get c r ≠ t.get c row

theorem Shaped.apart_of_mem {c a b : Nat} (h : Shaped t v₀ ss v) (hc : c ∈ columns ss)
    (ha : a ∈ v.rows) (hb : b ∈ v.rows) (hne : a ≠ b) : t.get c a ≠ t.get c b :=
  have : Std.Symm fun a b => t.get c a ≠ t.get c b := ⟨fun _ _ => Ne.symm⟩
  (h.apart c hc).forall ha hb hne

theorem Found.shaped (h : Found t v₀) : Shaped t v₀ [] v₀ where
  order := h.ascending.imp fun hlt => .inr ⟨rfl, hlt⟩
  subset := List.Subset.refl _
  apart _ hc := nomatch hc
  kept _ _ := ⟨fun hrow => ⟨hrow, fun _ hc => nomatch hc⟩, fun hrow => hrow.1⟩

theorem Shaped.sort {keys : List SortKey} (h : Shaped t v₀ ss v) (hrows : v.Within t.size)
    (hv : v' = { v with rows := SortKey.sort t keys v.rows, sortKeys? := some keys }) :
    Shaped t v₀ (ss ++ [.sort keys]) v' := by
  have hperm : v'.rows.Perm v.rows := hv ▸ SortKey.sort_perm t keys v.rows
  constructor
  · rw [hv, allKeys_sort]
    exact SortKey.sort_precedes hrows h.order
  · exact fun row hrow => h.subset (hperm.subset hrow)
  · rw [columns_sort]
    exact fun c hc => hperm.symm.pairwise (h.apart c hc) fun hab => hab.symm
  · rw [columns_sort]
    intro hone row
    rw [hperm.mem_iff, h.kept hone row]
    refine and_congr_right fun _ => forall₂_congr fun c hc => ?_
    rw [keysBefore_append (List.ne_nil_of_mem hc)]

theorem Shaped.distinct {c : Nat} (hw : t.WellFormed) (h : Shaped t v₀ ss v)
    (hv : v.distinct t c = .ok v') : Shaped t v₀ (ss ++ [.distinct c]) v' := by
  obtain ⟨-, hsub, hmem⟩ := distinct_precedes hw h.order hv
  have horder := h.order.sublist hsub
  constructor
  · rwa [allKeys_distinct]
  · exact fun row hrow => h.subset (hsub.subset hrow)
  · rw [columns_distinct]
    refine List.forall_mem_append.mpr ⟨fun d hd => (h.apart d hd).sublist hsub, ?_⟩
    rw [List.forall_mem_singleton]
    exact horder.imp_of_mem fun {a b} ha hb hab => ((hmem b).mp hb).2 a (hsub.subset ha) hab
  · rw [columns_distinct, keysBefore_distinct]
    intro hone row
    have hlast : ∀ d ∈ columns ss, d = c := fun d hd => hone d (by simp [hd]) c (by simp)
    have hkept := h.kept fun d hd e he => (hlast d hd).trans (hlast e he).symm
    rw [hmem, List.forall_mem_append, List.forall_mem_singleton]
    by_cases hnone : columns ss = []
    · have hrows : ∀ r, r ∈ v.rows ↔ r ∈ v₀.rows := by simpa [hnone] using hkept
      simp [hnone, hrows, keysBefore_of_columns hnone]
    · obtain ⟨d, hd⟩ := List.exists_mem_of_ne_nil _ hnone
      obtain rfl := hlast d hd
      -- the view has one row for each value already
      rw [hkept]
      refine ⟨fun ⟨⟨hrow, hfirst⟩, _⟩ => ⟨hrow, hfirst, hfirst d hd⟩, fun ⟨hrow, hfirst, _⟩ => ?_⟩
      refine ⟨⟨hrow, hfirst⟩, fun r hr hbefore => ?_⟩
      exact h.apart_of_mem hd hr ((hkept row).mpr ⟨hrow, hfirst⟩) hbefore.ne

theorem Found.shaped_of_foldlM (hw : t.WellFormed) (hf : Found t v₀)
    (h : ss.foldlM (shape t) v₀ = .ok v) : Shaped t v₀ ss v := by
  refine (foldlM_shape (P := Shaped t v₀) (fun {ss v s v'} hr hp hs => ?_)
    hf.attached hf.remembers hf.shaped h).2
  obtain ⟨-, -, hv'⟩ := shape_eq_ok (hr.attached hf.attached) hs
  cases s with
  | sort keys =>
      exact hp.sort (fun row hrow => Query.findAll_lt hf.rows row (hp.subset hrow)) hv'
  | distinct c => exact hp.distinct hw hs

end View
end SnapshotStore
