import Mathlib.Data.List.Perm.Subperm
import SnapshotStore.Proofs.Store.Retention

/-!
Two stores that differ in how much of the past they keep. What a store says of the present
does not depend on the past, and a past that is kept by both is the same in both.
-/

namespace SnapshotStore

namespace NatMap

universe u
variable {α : Type u} {m m' : NatMap α}

/-- Every entry of the one map is in the other. -/
def Within (m m' : NatMap α) : Prop := ∀ k x, m.get? k = some x → m'.get? k = some x

namespace Within

theorem refl (m : NatMap α) : m.Within m := fun _ _ h => h

theorem insert (h : m.Within m') (key : Nat) (value : α) :
    (m.insert key value).Within (m'.insert key value) := by
  intro k x hk
  rw [get?_insert] at hk ⊢
  split at hk
  next he => rwa [if_pos he]
  next he => rw [if_neg he, h k x hk]

theorem filterKeys (h : m.Within m') {p q : Nat → Bool} (hpq : ∀ k, p k = true → q k = true) :
    (m.filterKeys p).Within (m'.filterKeys q) := by
  intro k x hk
  rw [get?_filterKeys] at hk ⊢
  split at hk
  next hp => rw [if_pos (hpq k hp), h k x hk]
  next => simp at hk

theorem isSome (h : m.Within m') {k : Nat} (hk : (m.get? k).isSome) : (m'.get? k).isSome := by
  obtain ⟨x, hx⟩ := Option.isSome_iff_exists.mp hk
  rw [h k x hx, Option.isSome_some]

theorem keys_subset (h : m.Within m') : m.keys ⊆ m'.keys := by
  intro k hk
  exact (m'.mem_keys k).mpr (h.isSome ((m.mem_keys k).mp hk))

/-- The larger map begins no later. -/
theorem firstKey?_le (h : m.Within m') {k k' : Nat} (hk : m.firstKey? = some k)
    (hk' : m'.firstKey? = some k') : k' ≤ k :=
  (firstKey?_eq_some hk').2 k (h.isSome (firstKey?_eq_some hk).1)

/-- A map with an entry for each number of an interval is not outdone by a larger one that
stays within the interval. -/
theorem values_eq (h : m.Within m') {a b : Nat} (hfull : m.values.length = b - a)
    (hin : ∀ k, (m'.get? k).isSome → a < k ∧ k ≤ b) : m'.values = m.values := by
  have hrange : m'.keys ⊆ List.range' (a + 1) (b - a) := by
    intro k hk
    have := hin k ((m'.mem_keys k).mp hk)
    rw [List.mem_range'_1]
    omega
  have hle : m'.keys.length ≤ m.keys.length := by
    rw [← values_length m, hfull]
    have hsub := List.subperm_of_subset (m'.keys_ascending.imp Nat.ne_of_lt) hrange
    exact Nat.le_trans hsub.length_le (Nat.le_of_eq List.length_range')
  have hsub := List.subperm_of_subset (m.keys_ascending.imp Nat.ne_of_lt) h.keys_subset
  have hkeys : m.keys = m'.keys :=
    ascending_ext m.keys_ascending m'.keys_ascending fun k =>
      (hsub.perm_of_length_le hle).mem_iff
  apply List.map_injective_iff.mpr fun _ _ => Option.some.inj
  rw [values_eq_keys, values_eq_keys, ← hkeys]
  apply List.map_congr_left
  intro k hk
  obtain ⟨x, hx⟩ := Option.isSome_iff_exists.mp ((m.mem_keys k).mp hk)
  rw [h k x hx, hx]

end Within
end NatMap

namespace Store

/-! The present of a store -/

/-- What a store says apart from the past: how much of it is to be kept, what is left of it
and what has been dropped. -/
def present (s : Store) : Store :=
  { s with
    settings := { s.settings with historyRetention := 0 }
    snapshots := ∅
    changes := ∅
    usage := { s.usage with versionsDropped := 0 } }

@[simp] theorem compact_present (s : Store) : s.compact.2.present = s.present := rfl

variable {s t : Store}

/-! A store that keeps more -/

/-- Both stores say the same of the present, and the second one keeps all of the past that
the first one does. -/
structure OutlastedBy (s t : Store) : Prop where
  present : t.present = s.present
  retention : s.settings.historyRetention ≤ t.settings.historyRetention
  snapshots : s.snapshots.Within t.snapshots
  changes : s.changes.Within t.changes
  /-- However little the first store keeps, it keeps the latest version. -/
  latest_kept : (s.snapshots.get? s.latest).isSome

namespace OutlastedBy

theorem id_eq (h : s.OutlastedBy t) : t.id = s.id := (congrArg Store.id h.present :)

theorem pins (h : s.OutlastedBy t) : t.pins = s.pins := (congrArg Store.pins h.present :)

theorem latest (h : s.OutlastedBy t) : t.latest = s.latest := (congrArg Store.latest h.present :)

theorem writer? (h : s.OutlastedBy t) : t.writer? = s.writer? :=
  (congrArg Store.writer? h.present :)

theorem nextContext (h : s.OutlastedBy t) : t.nextContext = s.nextContext :=
  (congrArg Store.nextContext h.present :)

theorem writeTimeout? (h : s.OutlastedBy t) : t.settings.writeTimeout? = s.settings.writeTimeout? :=
  (congrArg (fun s : Store => s.settings.writeTimeout?) h.present :)

theorem pinCount (h : s.OutlastedBy t) (v : Version) : t.pinCount v = s.pinCount v := by
  simp only [Store.pinCount, h.pins]

/-! What only concerns the present -/

theorem recordCall (h : s.OutlastedBy t) : s.recordCall.OutlastedBy t.recordCall :=
  { h with present := congrArg (fun s => s.recordCall.present) h.present }

theorem newContextId (h : s.OutlastedBy t) : s.newContextId.2.OutlastedBy t.newContextId.2 :=
  { h with present := congrArg (fun s => s.newContextId.2.present) h.present }

theorem addPin (h : s.OutlastedBy t) (v : Version) : (s.addPin v).OutlastedBy (t.addPin v) :=
  { h with present := congrArg (fun s => (s.addPin v).present) h.present }

theorem withPins (h : s.OutlastedBy t) (pins : NatMap Nat) :
    { s with pins }.OutlastedBy { t with pins } :=
  { h with present := congrArg (fun s => { s with pins }.present) h.present }

theorem withWriter (h : s.OutlastedBy t) (writer? : Option ContextId) :
    { s with writer? }.OutlastedBy { t with writer? } :=
  { h with present := congrArg (fun s => { s with writer? }.present) h.present }

theorem releaseWriter (h : s.OutlastedBy t) (context : ContextId) :
    (s.releaseWriter context).OutlastedBy (t.releaseWriter context) := by
  unfold Store.releaseWriter
  rw [h.writer?]
  split
  · exact h.withWriter none
  · exact h

/-! Compaction -/

theorem mustKeep (h : s.OutlastedBy t) {v : Version} (hv : s.mustKeep v = true) :
    t.mustKeep v = true := by
  have hretention := h.retention
  have hfloor : (t.recentFloor : Nat) ≤ s.recentFloor := by
    simp only [Store.recentFloor, h.latest, Version]
    omega
  simp only [Store.mustKeep, Bool.or_eq_true, decide_eq_true_eq, h.latest, h.pins] at hv ⊢
  exact hv.imp_left (Or.imp_left (Nat.le_trans hfloor))

theorem compact (h : s.OutlastedBy t) : s.compact.2.OutlastedBy t.compact.2 := by
  have hsnapshots := h.snapshots.filterKeys fun v => h.mustKeep (v := v)
  have hlatest : ((s.snapshots.filterKeys s.mustKeep).get? s.latest).isSome := by
    rw [NatMap.get?_filterKeys, if_pos (by simp [Store.mustKeep])]
    exact h.latest_kept
  refine ⟨?_, h.retention, hsnapshots, ?_, hlatest⟩
  · rw [compact_present, compact_present, h.present]
  · simp only [Store.compact]
    have hlatest' := hsnapshots.isSome hlatest
    -- Something is left in both, so both give up the changes before their oldest version.
    cases hs : (s.snapshots.filterKeys s.mustKeep).firstKey? with
    | none => simp [NatMap.firstKey?_eq_none hs] at hlatest
    | some k =>
        cases ht : (t.snapshots.filterKeys t.mustKeep).firstKey? with
        | none => simp [NatMap.firstKey?_eq_none ht] at hlatest'
        | some k' =>
            have hle := hsnapshots.firstKey?_le hs ht
            refine h.changes.filterKeys fun v hv => ?_
            exact decide_eq_true (Nat.lt_of_le_of_lt hle (of_decide_eq_true hv))

theorem unpin (h : s.OutlastedBy t) (v : Version) : (s.unpin v).OutlastedBy (t.unpin v) := by
  unfold Store.unpin
  rw [h.pins]
  split
  · exact h
  · exact (h.withPins _).compact

theorem publish (h : s.OutlastedBy t) (g previous : Group) (keepPinned : Bool) :
    (s.publish g previous keepPinned).OutlastedBy (t.publish g previous keepPinned) := by
  have hbare : s.OutlastedBy t → OutlastedBy
      { s with
        snapshots := s.snapshots.insert (s.latest + 1) g
        changes := s.changes.insert (s.latest + 1) (.between (s.latest + 1) previous g)
        latest := s.latest + 1
        usage := { s.usage with commits := s.usage.commits + 1 } }
      { t with
        snapshots := t.snapshots.insert (t.latest + 1) g
        changes := t.changes.insert (t.latest + 1) (.between (t.latest + 1) previous g)
        latest := t.latest + 1
        usage := { t.usage with commits := t.usage.commits + 1 } } := by
    intro h
    refine ⟨?_, h.retention, ?_, ?_, ?_⟩
    · exact congrArg (fun s : Store => { s with
        latest := s.latest + 1
        usage := { s.usage with commits := s.usage.commits + 1 } }) h.present
    · simpa only [h.latest] using h.snapshots.insert _ g
    · simpa only [h.latest] using h.changes.insert _ _
    · simp
  cases keepPinned with
  | false => exact (hbare h).compact
  | true =>
      have hpinned := ((hbare h).addPin (s.latest + 1)).compact
      simpa only [Store.publish, if_true, h.latest] using hpinned

/-! What asks for the past -/

theorem snapshot (h : s.OutlastedBy t) {v : Version} {g : Group} (hg : s.snapshot v = .ok g) :
    t.snapshot v = .ok g := by
  unfold Store.snapshot at hg ⊢
  split at hg
  next g' hv =>
    rw [h.snapshots v g' hv]
    exact hg
  next => simp at hg

theorem snapshot_latest (h : s.OutlastedBy t) : ∃ g, s.snapshot s.latest = .ok g ∧
    t.snapshot s.latest = .ok g := by
  obtain ⟨g, hg⟩ := Option.isSome_iff_exists.mp h.latest_kept
  have hs : s.snapshot s.latest = .ok g := by simp only [Store.snapshot, hg]
  exact ⟨g, hs, h.snapshot hs⟩

theorem pin (h : s.OutlastedBy t) {at? : Option Version} {r : Version × Group} {s' : Store}
    (hp : s.pin at? = .ok (r, s')) : ∃ t', t.pin at? = .ok (r, t') ∧ s'.OutlastedBy t' := by
  obtain ⟨⟨v, g⟩, rfl⟩ : ∃ p, p = r := ⟨r, rfl⟩
  obtain ⟨rfl, hv, rfl⟩ := Store.pin_eq_ok hp
  refine ⟨_, ?_, h.addPin _⟩
  simp only [Store.pin, h.latest, Store.snapshot, h.snapshots _ _ hv, Except.map]

/-- A change log that reaches far enough back says the same, whatever else is kept. -/
theorem changesBetween (h : s.OutlastedBy t) {a b : Version} {cs : List Changeset}
    (hc : s.changesBetween a b = .ok cs) : t.changesBetween a b = .ok cs := by
  unfold Store.changesBetween at hc ⊢
  split at hc
  · simp at hc
  next hlt =>
    rw [if_neg hlt]
    split at hc
    next he => rwa [if_pos he]
    next hne =>
      rw [if_neg hne]
      dsimp only at hc ⊢
      split at hc
      · simp at hc
      next hlen =>
        have hlen := Decidable.not_not.mp hlen
        have hwithin := h.changes.filterKeys (p := fun v => decide (a < v ∧ v ≤ b))
          (q := fun v => decide (a < v ∧ v ≤ b)) fun _ hv => hv
        have hvalues := hwithin.values_eq hlen fun k hk => by
          rw [NatMap.get?_filterKeys] at hk
          split at hk
          next hin => exact of_decide_eq_true hin
          next => simp at hk
        rw [hvalues, if_neg (by simpa using hlen)]
        exact hc

theorem acquireWriter (h : s.OutlastedBy t) (context : ContextId) (timeout? : Option Nat) :
    (∃ s' t', s.acquireWriter context timeout? = .ok s' ∧
      t.acquireWriter context timeout? = .ok t' ∧ s'.OutlastedBy t') ∨
    ∃ e, s.acquireWriter context timeout? = .error e ∧
      t.acquireWriter context timeout? = .error e := by
  unfold Store.acquireWriter
  rw [h.writer?]
  split
  · exact .inl ⟨_, _, rfl, rfl, h.withWriter _⟩
  · split <;> exact .inr ⟨_, rfl, rfl⟩

/-- Publishing asks for the latest version only, which is always there. -/
theorem commit (h : s.OutlastedBy t) (context : ContextId) (base : Version) (g : Group)
    (keepPinned : Bool) :
    (∃ v s' t', s.commit context base g keepPinned = .ok (v, s') ∧
      t.commit context base g keepPinned = .ok (v, t') ∧ s'.OutlastedBy t') ∨
    ∃ e, s.commit context base g keepPinned = .error e ∧
      t.commit context base g keepPinned = .error e := by
  unfold Store.commit
  rw [h.writer?, h.latest]
  split
  · exact .inr ⟨_, rfl, rfl⟩
  split
  · exact .inr ⟨_, rfl, rfl⟩
  next hbase =>
    obtain rfl := Decidable.not_not.mp hbase
    obtain ⟨previous, hp⟩ := Option.isSome_iff_exists.mp h.latest_kept
    rw [hp, h.snapshots _ _ hp]
    exact .inl ⟨_, _, _, rfl, rfl, h.publish g previous keepPinned⟩

end OutlastedBy

/-! Stores that were opened to keep more -/

theorem openNew_outlasted {id : String} {settings : Settings} {longer : Nat}
    (hs : openNew id settings = .ok s)
    (ht : openNew id { settings with historyRetention := longer } = .ok t)
    (hle : settings.historyRetention ≤ longer) : s.OutlastedBy t := by
  obtain ⟨-, -, rfl⟩ := openNew_eq_ok hs
  obtain ⟨-, -, rfl⟩ := openNew_eq_ok ht
  exact ⟨rfl, hle, .refl _, .refl _, rfl⟩

end Store
end SnapshotStore
