import SnapshotStore.Proofs.NatMap
import SnapshotStore.Store

/-!
What callers may do to a store, and the ledger that an observer keeps of it. The ledger
holds the group of every version ever committed and every pin that was not given up, so
what the store still keeps can be compared with all that it was ever given.
-/

namespace SnapshotStore

universe u
variable {α : Type u}

namespace Version

/-- The entry of a version in a list that starts with the first version. -/
def nth? (l : List α) : Nat → Option α
  | 0 => none
  | v + 1 => l[v]?

@[simp] theorem nth?_zero (l : List α) : nth? l 0 = none := rfl

@[simp] theorem nth?_succ (l : List α) (v : Nat) : nth? l (v + 1) = l[v]? := rfl

theorem nth?_eq_getElem? (l : List α) {v : Nat} (h : 1 ≤ v) : nth? l v = l[v - 1]? := by
  cases v with
  | zero => omega
  | succ v => rfl

theorem nth?_map {β : Type u} (l : List α) (f : α → β) (v : Nat) :
    nth? (l.map f) v = (nth? l v).map f := by
  cases v <;> simp

theorem nth?_isSome (l : List α) (v : Nat) :
    (nth? l v).isSome ↔ 1 ≤ v ∧ v ≤ l.length := by
  cases v with
  | zero => simp
  | succ v =>
      rw [nth?_succ, Option.isSome_iff_ne_none, ne_eq, List.getElem?_eq_none_iff]
      omega

theorem nth?_concat (l : List α) (x : α) (v : Nat) :
    nth? (l ++ [x]) v = if v = l.length + 1 then some x else nth? l v := by
  cases v with
  | zero => simp
  | succ v =>
      by_cases h : v = l.length
      · simp [h]
      · simp only [nth?_succ, Nat.add_right_cancel_iff, h, if_false]
        by_cases hv : v < l.length
        · rw [List.getElem?_append_left hv]
        · rw [List.getElem?_eq_none (by simp; omega), List.getElem?_eq_none (by omega)]

theorem nth?_append_left {l : List α} {v : Nat} {x : α} (r : List α)
    (h : nth? l v = some x) : nth? (l ++ r) v = some x := by
  cases v with
  | zero => simp at h
  | succ v =>
      rw [nth?_succ] at h ⊢
      rw [List.getElem?_append_left (List.getElem?_eq_some_iff.mp h).1, h]

theorem nth?_bounds {l : List α} {v : Nat} {x : α} (h : nth? l v = some x) :
    1 ≤ v ∧ v ≤ l.length :=
  (nth?_isSome l v).mp (Option.isSome_iff_exists.mpr ⟨x, h⟩)

theorem nth?_mem {l : List α} {v : Nat} {x : α} (h : nth? l v = some x) : x ∈ l := by
  rw [nth?_eq_getElem? l (nth?_bounds h).1] at h
  exact List.mem_of_getElem? h

end Version

structure Ledger where
  groups : List Group
  /-- The pins that were taken and not given up, each as often as it was taken. -/
  pins : List Version

namespace Ledger

def opened : Ledger := ⟨[.empty], []⟩

/-- What the commit of a version changed. The first version came from no commit. -/
def change? (l : Ledger) (v : Nat) : Option Changeset :=
  match Version.nth? l.groups (v - 1), Version.nth? l.groups v with
  | some old, some new => some (.between v old new)
  | _, _ => none

theorem change?_isSome (l : Ledger) (v : Nat) :
    (l.change? v).isSome ↔ 2 ≤ v ∧ v ≤ l.groups.length := by
  have hold := Version.nth?_isSome l.groups (v - 1)
  have hnew := Version.nth?_isSome l.groups v
  unfold change?
  revert hold hnew
  cases Version.nth? l.groups (v - 1) <;> cases Version.nth? l.groups v <;>
    simp <;> omega

theorem change?_eq_none (l : Ledger) {v : Nat} (h : l.groups.length < v) :
    l.change? v = none := by
  rw [← Option.not_isSome_iff_eq_none, change?_isSome]
  omega

theorem change?_concat (l : Ledger) (g : Group) (pins : List Version) {v : Nat}
    (h : v ≠ l.groups.length + 1) : change? ⟨l.groups ++ [g], pins⟩ v = l.change? v := by
  by_cases hv : v ≤ l.groups.length
  · simp only [change?, Version.nth?_concat, show v - 1 ≠ l.groups.length + 1 by omega, h,
      if_false]
  · rw [l.change?_eq_none (by omega), change?_eq_none _ (by simp; omega)]

theorem change?_last (l : Ledger) (old g : Group) (pins : List Version)
    (h : Version.nth? l.groups l.groups.length = some old) :
    change? ⟨l.groups ++ [g], pins⟩ (l.groups.length + 1) =
      some (.between (l.groups.length + 1) old g) := by
  simp [change?, Version.nth?_concat, h]

end Ledger

namespace Store

/-- Whatever can be asked of a store. -/
inductive Command
  | connect
  | count
  | pin (at? : Option Version)
  | unpin (v : Version)
  | acquire (context : ContextId) (timeout? : Option Nat)
  | release (context : ContextId)
  | commit (context : ContextId) (base : Version) (g : Group) (keepPinned : Bool)
  | compact

/-- The store after a command; a refused command leaves it as it was. -/
def obey (s : Store) : Command → Store
  | .connect => s.newContextId.2
  | .count => s.recordCall
  | .pin at? =>
      match s.pin at? with
      | .ok (_, s') => s'
      | .error _ => s
  | .unpin v => s.unpin v
  | .acquire context timeout? =>
      match s.acquireWriter context timeout? with
      | .ok s' => s'
      | .error _ => s
  | .release context => s.releaseWriter context
  | .commit context base g keepPinned =>
      match s.commit context base g keepPinned with
      | .ok (_, s') => s'
      | .error _ => s
  | .compact => s.compact.2

end Store

/-- The ledger after a command, from what the store answers to it. -/
def Ledger.note (l : Ledger) (s : Store) : Store.Command → Ledger
  | .pin at? =>
      match s.pin at? with
      | .ok ((v, _), _) => { l with pins := v :: l.pins }
      | .error _ => l
  | .unpin v => { l with pins := l.pins.erase v }
  | .commit context base g keepPinned =>
      match s.commit context base g keepPinned with
      | .ok (v, _) => ⟨l.groups ++ [g], if keepPinned then v :: l.pins else l.pins⟩
      | .error _ => l
  | _ => l

namespace Store

/-- The stores that any sequence of commands leads to, each with its ledger. -/
inductive Reachable (settings : Settings) : Store → Ledger → Prop
  | opened {id : String} {s : Store} (h : openNew id settings = .ok s) :
      Reachable settings s .opened
  | step {s : Store} {l : Ledger} (c : Command) (h : Reachable settings s l) :
      Reachable settings (s.obey c) (l.note s c)

def obeyAll (s : Store) (l : Ledger) : List Command → Store × Ledger
  | [] => (s, l)
  | c :: cs => obeyAll (s.obey c) (l.note s c) cs

theorem Reachable.obeyAll {settings : Settings} {s : Store} {l : Ledger}
    (h : Reachable settings s l) (cs : List Command) :
    Reachable settings (Store.obeyAll s l cs).1 (Store.obeyAll s l cs).2 := by
  induction cs generalizing s l with
  | nil => exact h
  | cons c cs ih => exact ih (h.step c)

end Store
end SnapshotStore
