import SnapshotStore.Proofs.Store.Ledger

/-!
Retention. A store keeps exactly the versions that are recent or pinned, and the changes
between them. A compaction brings this about whenever nothing that has to stay is missing;
each command either leaves the kept versions alone or ends in a compaction.
-/

namespace SnapshotStore

/-- How many pins of a version are left, if any. -/
def Ledger.pinCount? (l : Ledger) (v : Nat) : Option Nat :=
  if l.pins.count v = 0 then none else some (l.pins.count v)

/-- Whether a version must stay: it is among the most recent ones or somebody pins it. -/
def Ledger.Wanted (l : Ledger) (retention v : Nat) : Prop :=
  l.groups.length < v + retention ∨ v ∈ l.pins

theorem Ledger.wanted_cons (groups : List Group) (pins : List Version) (p retention v : Nat) :
    Wanted ⟨groups, p :: pins⟩ retention v ↔ v = p ∨ Wanted ⟨groups, pins⟩ retention v := by
  simp only [Wanted, List.mem_cons]
  exact or_left_comm

/-- What must stay after a commit had to stay before, the new version apart. -/
theorem Ledger.wanted_before_concat {groups : List Group} {g : Group} {pins : List Version}
    {retention v : Nat} (h : Wanted ⟨groups ++ [g], pins⟩ retention v) :
    Wanted ⟨groups, pins⟩ retention v := by
  refine h.imp_left fun h => ?_
  simp only [List.length_append, List.length_singleton] at h
  exact Nat.lt_of_succ_lt h

/-- No store opens with nothing to keep. -/
theorem Settings.check_retention {s : Settings} {u : Unit} (h : s.check = .ok u) :
    1 ≤ s.historyRetention := by
  apply Nat.one_le_iff_ne_zero.mpr
  intro hz
  unfold Settings.check at h
  cases hk : s.encryptionKey? with
  | none => simp [hz, hk, throw, throwThe, MonadExceptOf.throw] at h
  | some key =>
      simp only [hz, hk, bind, Except.bind, throw, throwThe, MonadExceptOf.throw] at h
      split at h <;> simp at h

namespace Store

/-- The figures and pins of a store agree with its ledger. -/
structure Tallied (s : Store) (l : Ledger) : Prop where
  retention : 1 ≤ s.settings.historyRetention
  latest : l.groups.length = s.latest
  opened : 0 < l.groups.length
  pins : ∀ v, s.pins.get? v = l.pinCount? v
  dropped : s.usage.versionsDropped + s.snapshots.size = s.latest
  commits : s.usage.commits + 1 = s.latest

/-- Nothing that must stay is missing, but more may be kept than need be. -/
structure Complete (s : Store) (l : Ledger) : Prop extends Tallied s l where
  sound : ∀ v g, s.snapshots.get? v = some g → Version.nth? l.groups v = some g
  wanted : ∀ v g, Version.nth? l.groups v = some g →
    l.Wanted s.settings.historyRetention v → s.snapshots.get? v = some g
  changes : ∃ floor, (∀ v g, s.snapshots.get? v = some g → floor ≤ v) ∧
    ∀ v c, s.changes.get? v = some c ↔ floor < v ∧ l.change? v = some c

/-- What must stay is kept and nothing else. -/
structure Exact (s : Store) (l : Ledger) : Prop extends Tallied s l where
  snapshots : ∀ v g, s.snapshots.get? v = some g ↔
    Version.nth? l.groups v = some g ∧ l.Wanted s.settings.historyRetention v
  changes : ∀ v c, s.changes.get? v = some c ↔ s.oldest < v ∧ l.change? v = some c

namespace Tallied
variable {s : Store} {l : Ledger}

theorem pinCount (h : Tallied s l) (v : Nat) : s.pinCount v = l.pins.count v := by
  rw [Store.pinCount, h.pins, Ledger.pinCount?]
  split
  next hz => exact hz.symm
  next => rfl

/-- A version without pins has no entry among the pins. -/
theorem unpinned (h : Tallied s l) {v : Nat} (hv : s.pinCount v = 0) : s.pins.get? v = none := by
  rw [h.pins, Ledger.pinCount?, if_pos (h.pinCount v ▸ hv)]

theorem contains_pin (h : Tallied s l) (v : Nat) : s.pins.contains v ↔ v ∈ l.pins := by
  rw [NatMap.contains_eq, h.pins, Ledger.pinCount?, ← List.count_pos_iff]
  by_cases hz : l.pins.count v = 0
  · simp [hz]
  · simp [hz, Nat.pos_of_ne_zero hz]

theorem pins_addPin (h : Tallied s l) (v k : Nat) :
    (s.addPin v).pins.get? k = Ledger.pinCount? ⟨l.groups, v :: l.pins⟩ k := by
  show (s.pins.insert v (s.pinCount v + 1)).get? k = _
  rw [NatMap.get?_insert, h.pins, h.pinCount]
  simp only [Ledger.pinCount?, List.count_cons]
  by_cases hk : k = v
  · simp [hk]
  · simp [hk, Ne.symm hk]

theorem pins_unpin (h : Tallied s l) {v n : Nat} (hn : s.pins.get? v = some n) (k : Nat) :
    (if n ≤ 1 then s.pins.erase v else s.pins.insert v (n - 1)).get? k =
      Ledger.pinCount? ⟨l.groups, l.pins.erase v⟩ k := by
  have hc : l.pins.count v = n := by
    rw [← h.pinCount, Store.pinCount, hn, Option.getD_some]
  have hk := h.pins k
  unfold Ledger.pinCount? at hk ⊢
  by_cases he : k = v
  · subst he
    rw [List.count_erase_self, hc]
    by_cases hle : n ≤ 1
    · rw [if_pos hle, NatMap.get?_erase, if_pos rfl, if_pos (by omega)]
    · rw [if_neg hle, NatMap.get?_insert_self, if_neg (by omega)]
  · rw [List.count_erase_of_ne he, ← hk]
    split
    · rw [NatMap.get?_erase, if_neg he]
    · rw [NatMap.get?_insert_ne _ _ he]

theorem wanted_latest (h : Tallied s l) :
    l.Wanted s.settings.historyRetention l.groups.length := by
  have hr := h.retention
  exact .inl (by omega)

theorem mustKeep (h : Tallied s l) (v : Nat) :
    s.mustKeep v = true ↔ l.Wanted s.settings.historyRetention v := by
  have hr := h.retention
  have hl := h.latest
  have hfloor : s.recentFloor ≤ v ↔ l.groups.length < v + s.settings.historyRetention := by
    unfold recentFloor
    rw [← hl]
    change l.groups.length - (max s.settings.historyRetention 1 - 1) ≤ v ↔ _
    omega
  simp only [Store.mustKeep, Ledger.Wanted, Bool.or_eq_true, decide_eq_true_eq,
    h.contains_pin, hfloor, ← hl]
  constructor
  · rintro ((hv | hv) | hv)
    · exact .inl hv
    · change v = l.groups.length at hv
      exact .inl (by omega)
    · exact .inr hv
  · exact Or.imp_left .inl

end Tallied

/-! The oldest version kept -/

theorem oldest_kept {s : Store} {v : Nat} {g : Group} (h : s.snapshots.get? v = some g) :
    ∃ g', s.snapshots.get? s.oldest = some g' := by
  cases hf : s.snapshots.firstKey? with
  | none => simp [NatMap.firstKey?_eq_none hf] at h
  | some k =>
      rw [show s.oldest = k by simp [oldest, hf]]
      exact Option.isSome_iff_exists.mp (NatMap.firstKey?_eq_some hf).1

theorem oldest_le {s : Store} {v : Nat} {g : Group} (h : s.snapshots.get? v = some g) :
    s.oldest ≤ v := by
  cases hf : s.snapshots.firstKey? with
  | none => simp [NatMap.firstKey?_eq_none hf] at h
  | some k =>
      rw [show s.oldest = k by simp [oldest, hf]]
      exact (NatMap.firstKey?_eq_some hf).2 v (by simp [h])

namespace Complete
variable {s : Store} {l : Ledger}

theorem latest_kept (h : Complete s l) :
    ∃ g, s.snapshots.get? s.latest = some g ∧ Version.nth? l.groups s.latest = some g := by
  obtain ⟨g, hg⟩ := Option.isSome_iff_exists.mp
    ((Version.nth?_isSome l.groups l.groups.length).mpr ⟨h.opened, Nat.le_refl _⟩)
  rw [← h.latest]
  exact ⟨g, h.wanted _ g hg (h.wanted_latest), hg⟩

theorem addPin (h : Complete s l) {v : Nat} {g : Group} (hv : s.snapshots.get? v = some g) :
    Complete (s.addPin v) ⟨l.groups, v :: l.pins⟩ := by
  refine ⟨⟨h.retention, h.latest, h.opened, h.pins_addPin v, h.dropped, h.commits⟩, h.sound,
    ?_, h.changes⟩
  intro k g' he hw
  rcases (Ledger.wanted_cons _ _ _ _ _).mp hw with rfl | hw
  · have hg := (h.sound k g hv).symm.trans he
    exact hv.trans hg
  · exact h.wanted k g' he hw

/-- A compaction drops what need not be kept. -/
theorem compact (h : Complete s l) : Exact s.compact.2 l := by
  obtain ⟨g, hg, -⟩ := h.latest_kept
  obtain ⟨floor, hfloor, hchanges⟩ := h.changes
  have hkept : ∀ v g, s.compact.2.snapshots.get? v = some g ↔
      Version.nth? l.groups v = some g ∧ l.Wanted s.settings.historyRetention v := by
    intro v g
    show (s.snapshots.filterKeys s.mustKeep).get? v = some g ↔ _
    rw [NatMap.get?_filterKeys]
    by_cases hk : s.mustKeep v = true
    · have hw := (h.mustKeep v).mp hk
      rw [if_pos hk]
      exact ⟨fun hv => ⟨h.sound v g hv, hw⟩, fun hv => h.wanted v g hv.1 hw⟩
    · have hw := mt (h.mustKeep v).mpr hk
      simp [hk, hw]
  have hlatest : s.compact.2.snapshots.get? s.latest = some g :=
    (hkept s.latest g).mpr ⟨h.sound _ g hg, h.latest ▸ h.wanted_latest⟩
  obtain ⟨first, hfirst⟩ := oldest_kept hlatest
  have hcut : s.compact.2.changes =
      s.changes.filterKeys fun v => decide (s.compact.2.oldest < v) := by
    cases hf : (s.snapshots.filterKeys s.mustKeep).firstKey? with
    | none =>
        have hn := NatMap.firstKey?_eq_none hf s.latest
        change s.compact.2.snapshots.get? s.latest = none at hn
        simp [hn] at hlatest
    | some k =>
        have ho : s.compact.2.oldest = k := by
          show (s.snapshots.filterKeys s.mustKeep).firstKey?.getD s.latest = k
          rw [hf, Option.getD_some]
        rw [ho]
        simp only [Store.compact, hf]
  refine ⟨⟨h.retention, h.latest, h.opened, h.pins, ?_, h.commits⟩, hkept, ?_⟩
  · have hd := h.dropped
    have hle := NatMap.size_filterKeys_le s.snapshots s.mustKeep
    show s.usage.versionsDropped +
      (s.snapshots.size - (s.snapshots.filterKeys s.mustKeep).size) +
        (s.snapshots.filterKeys s.mustKeep).size = s.latest
    exact (Nat.add_assoc ..).trans ((congrArg _ (Nat.sub_add_cancel hle)).trans hd)
  · intro v c
    -- The log already went no further back than the oldest version kept before.
    have hge : floor ≤ s.compact.2.oldest := by
      obtain ⟨he, hw⟩ := (hkept _ first).mp hfirst
      exact hfloor _ first (h.wanted _ first he hw)
    rw [hcut, NatMap.get?_filterKeys]
    by_cases hv : s.compact.2.oldest < v
    · rw [if_pos (decide_eq_true hv), hchanges]
      exact ⟨fun hc => ⟨hv, hc.2⟩, fun hc => ⟨Nat.lt_of_le_of_lt hge hv, hc.2⟩⟩
    · simp [hv]

end Complete

namespace Exact
variable {s : Store} {l : Ledger}

theorem complete (h : Exact s l) : Complete s l where
  toTallied := h.toTallied
  sound v g hv := ((h.snapshots v g).mp hv).1
  wanted v g he hw := (h.snapshots v g).mpr ⟨he, hw⟩
  changes := ⟨s.oldest, fun _ _ hv => oldest_le hv, h.changes⟩

theorem retained (h : Exact s l) (v : Nat) : (s.snapshots.get? v).isSome ↔
    1 ≤ v ∧ v ≤ s.latest ∧ l.Wanted s.settings.historyRetention v := by
  rw [← h.latest, ← and_assoc, ← Version.nth?_isSome, Option.isSome_iff_exists,
    Option.isSome_iff_exists, ← exists_and_right]
  exact exists_congr (h.snapshots v)

/-- What is kept follows from the ledger. -/
theorem snapshots_eq {s' : Store} (h : Exact s l) (h' : Exact s' l)
    (hsettings : s'.settings = s.settings) (v : Version) :
    s'.snapshots.get? v = s.snapshots.get? v := by
  apply Option.ext
  intro g
  rw [h.snapshots, h'.snapshots, hsettings]

theorem latest_get (h : Exact s l) {g : Group} (hg : Version.nth? l.groups s.latest = some g) :
    s.snapshots.get? s.latest = some g := by
  obtain ⟨g', hg', hnth⟩ := h.complete.latest_kept
  exact hg'.trans (hnth.symm.trans hg)

theorem oldest_pos (h : Exact s l) : (1 : Nat) ≤ s.oldest := by
  obtain ⟨g, hg, -⟩ := h.complete.latest_kept
  obtain ⟨first, hfirst⟩ := oldest_kept hg
  exact (Version.nth?_bounds ((h.snapshots _ first).mp hfirst).1).1

theorem logged (h : Exact s l) (v : Nat) :
    (s.changes.get? v).isSome ↔ s.oldest < v ∧ v ≤ s.latest := by
  have ho := h.oldest_pos
  have hc := l.change?_isSome v
  rw [Option.isSome_iff_exists] at hc
  rw [Option.isSome_iff_exists, ← h.latest]
  constructor
  · rintro ⟨c, hv⟩
    obtain ⟨hlt, hv⟩ := (h.changes v c).mp hv
    exact ⟨hlt, (hc.mp ⟨c, hv⟩).2⟩
  · rintro ⟨hlt, hle⟩
    obtain ⟨c, hv⟩ := hc.mpr ⟨Nat.lt_of_le_of_lt ho hlt, hle⟩
    exact ⟨c, (h.changes v c).mpr ⟨hlt, hv⟩⟩

theorem logged_change (h : Exact s l) {v : Nat} (ho : s.oldest < v) :
    s.changes.get? v = l.change? v := by
  apply Option.ext
  intro c
  rw [h.changes]
  exact and_iff_right ho

end Exact

/-! What each command does -/

theorem pin_eq_ok {s s' : Store} {at? : Option Version} {v : Version} {g : Group}
    (h : s.pin at? = .ok ((v, g), s')) :
    v = at?.getD s.latest ∧ s.snapshots.get? v = some g ∧ s' = s.addPin v := by
  unfold pin snapshot at h
  cases hv : s.snapshots.get? (at?.getD s.latest) with
  | none => simp [hv, Except.map] at h
  | some g' =>
      simp only [hv, Except.map, Except.ok.injEq, Prod.mk.injEq] at h
      obtain ⟨⟨rfl, rfl⟩, rfl⟩ := h
      exact ⟨rfl, hv, rfl⟩

theorem acquireWriter_eq_ok {s s' : Store} {context : ContextId} {timeout? : Option Nat}
    (h : s.acquireWriter context timeout? = .ok s') :
    s.writer? = none ∧ s' = { s with writer? := some context } := by
  unfold acquireWriter at h
  split at h
  next hw =>
    simp only [Except.ok.injEq] at h
    exact ⟨hw, h.symm⟩
  next =>
    split at h <;> simp at h

theorem commit_eq_ok {s s' : Store} {context : ContextId} {base v : Version} {g : Group}
    {keepPinned : Bool} (h : s.commit context base g keepPinned = .ok (v, s')) :
    s.writer? = some context ∧ base = s.latest ∧ v = base + 1 ∧
      ∃ previous, s.snapshots.get? base = some previous ∧
        s' = s.publish g previous keepPinned := by
  unfold commit at h
  split at h
  · simp at h
  next hw =>
    split at h
    · simp at h
    next hb =>
      split at h
      · simp at h
      next previous hp =>
        simp only [Except.ok.injEq, Prod.mk.injEq] at h
        exact ⟨Decidable.not_not.mp hw, Decidable.not_not.mp hb, h.1.symm, previous, hp,
          h.2.symm⟩

theorem openNew_eq_ok {id : String} {settings : Settings} {s : Store}
    (h : openNew id settings = .ok s) :
    1 ≤ settings.historyRetention ∧ s.settings = settings ∧
      s = ⟨id, settings, NatMap.empty.insert Version.initial Group.empty, ∅, ∅,
        Version.initial, none, 1, {}⟩ := by
  have hc : ∃ u, settings.check = .ok u := by
    cases hc : settings.check with
    | ok u => exact ⟨u, rfl⟩
    | error e => simp [openNew, hc, bind, Except.bind] at h
  obtain ⟨u, hc⟩ := hc
  simp only [openNew, hc, bind, Except.bind, pure, Except.pure, Except.ok.injEq] at h
  subst h
  exact ⟨settings.check_retention hc, rfl, rfl⟩

theorem exact_openNew {id : String} {settings : Settings} {s : Store}
    (h : openNew id settings = .ok s) : Exact s .opened := by
  obtain ⟨hr, -, rfl⟩ := openNew_eq_ok h
  refine ⟨⟨hr, rfl, Nat.one_pos, fun _ => rfl, rfl, rfl⟩, ?_, ?_⟩
  · intro v g
    have he : Version.nth? [Group.empty] v = if v = 1 then some Group.empty else none := by
      rw [← List.nil_append [Group.empty], Version.nth?_concat]
      cases v <;> simp
    have hw : Ledger.Wanted .opened settings.historyRetention 1 :=
      .inl (Nat.lt_add_of_pos_right hr)
    change (NatMap.empty.insert 1 Group.empty).get? v = some g ↔
      Version.nth? [Group.empty] v = some g ∧ Ledger.Wanted .opened _ v
    rw [NatMap.get?_insert, he]
    by_cases hv : v = 1
    · subst hv
      exact (and_iff_left_of_imp fun _ => hw).symm
    · simp [hv, NatMap.get?, NatMap.empty]
  · intro v c
    constructor
    · intro hc
      simp at hc
    · rintro ⟨-, hc⟩
      have hb := (Ledger.change?_isSome .opened v).mp (by simp [hc])
      have hone : Ledger.opened.groups.length = 1 := rfl
      omega

namespace Exact
variable {s : Store} {l : Ledger}

theorem writer (h : Exact s l) (writer? : Option ContextId) :
    Exact { s with writer? } l :=
  ⟨⟨h.retention, h.latest, h.opened, h.pins, h.dropped, h.commits⟩, h.snapshots, h.changes⟩

theorem releaseWriter (h : Exact s l) (context : ContextId) :
    Exact (s.releaseWriter context) l := by
  unfold Store.releaseWriter
  split
  · exact h.writer none
  · exact h

theorem addPin (h : Exact s l) {v : Nat} {g : Group} (hv : s.snapshots.get? v = some g) :
    Exact (s.addPin v) ⟨l.groups, v :: l.pins⟩ := by
  have hw := ((h.snapshots v g).mp hv).2
  refine ⟨⟨h.retention, h.latest, h.opened, ?_, h.dropped, h.commits⟩, ?_, h.changes⟩
  · exact h.pins_addPin v
  · intro k g'
    rw [Ledger.wanted_cons]
    refine (h.snapshots k g').trans (and_congr_right fun _ => ?_)
    exact ⟨.inr, fun hk => hk.elim (fun hk => hk ▸ hw) fun hk => hk⟩

theorem unpin (h : Exact s l) (v : Nat) :
    Exact (s.unpin v) ⟨l.groups, l.pins.erase v⟩ := by
  have hp := h.pins v
  unfold Store.unpin
  split
  next hn =>
    have hv : v ∉ l.pins := by
      rw [hn, Ledger.pinCount?] at hp
      split at hp
      next hz => exact List.count_eq_zero.mp hz
      next => simp at hp
    rw [List.erase_of_not_mem hv]
    exact h
  next n hn =>
    apply Complete.compact
    have hc := h.complete
    refine ⟨⟨h.retention, h.latest, h.opened, ?_, h.dropped, h.commits⟩, hc.sound, ?_,
      hc.changes⟩
    · exact fun k => h.pins_unpin hn k
    · rintro k g he (hk | hk)
      · exact hc.wanted k g he (.inl hk)
      · exact hc.wanted k g he (.inr (List.mem_of_mem_erase hk))

/-- The next version is recent, and older versions that must stay had to stay before. -/
theorem publish (h : Exact s l) {g previous : Group} (keepPinned : Bool)
    (hp : s.snapshots.get? s.latest = some previous) :
    Exact (s.publish g previous keepPinned) ⟨l.groups ++ [g],
      if keepPinned then (s.latest + 1) :: l.pins else l.pins⟩ := by
  have hc := h.complete
  have hl := h.latest
  have hlast : Version.nth? l.groups l.groups.length = some previous := by
    rw [hl]
    exact hc.sound _ _ hp
  have hnew : s.snapshots.get? (s.latest + 1) = none := by
    cases hn : s.snapshots.get? (s.latest + 1) with
    | none => rfl
    | some g' =>
        have hb := (Version.nth?_bounds (hc.sound _ g' hn)).2
        rw [← hl] at hb
        omega
  -- Until the compaction, the version that is no longer recent is still there.
  have hbare : Complete { s with
      snapshots := s.snapshots.insert (s.latest + 1) g
      changes := s.changes.insert (s.latest + 1) (.between (s.latest + 1) previous g)
      latest := s.latest + 1
      usage := { s.usage with commits := s.usage.commits + 1 } } ⟨l.groups ++ [g], l.pins⟩ := by
    refine ⟨⟨h.retention, by simp [hl], by simp, h.pins, ?_, congrArg (· + 1) h.commits⟩,
      ?_, ?_, s.oldest, ?_, ?_⟩
    · show s.usage.versionsDropped + (s.snapshots.insert (s.latest + 1) g).size = s.latest + 1
      rw [NatMap.size_insert _ _ _ hnew, ← Nat.add_assoc, h.dropped]
    · intro v g' hv
      rw [NatMap.get?_insert, ← hl] at hv
      rw [Version.nth?_concat]
      by_cases hn : v = l.groups.length + 1
      · rwa [if_pos hn] at hv ⊢
      · rw [if_neg hn] at hv ⊢
        exact hc.sound v g' hv
    · intro v g' he hw
      rw [NatMap.get?_insert, ← hl]
      rw [Version.nth?_concat] at he
      by_cases hn : v = l.groups.length + 1
      · rwa [if_pos hn] at he ⊢
      · rw [if_neg hn] at he ⊢
        exact hc.wanted v g' he (Ledger.wanted_before_concat hw)
    · intro v g' hv
      rw [NatMap.get?_insert] at hv
      split at hv
      next hv' => exact hv' ▸ Nat.le_succ_of_le (oldest_le hp)
      next => exact oldest_le hv
    · intro v c
      rw [NatMap.get?_insert, ← hl]
      by_cases hv : v = l.groups.length + 1
      · rw [if_pos hv, hv, Ledger.change?_last l previous g l.pins hlast]
        have ho := oldest_le hp
        rw [← hl] at ho
        exact (and_iff_right_of_imp fun _ => Nat.lt_succ_of_le ho).symm
      · rw [if_neg hv, h.changes, l.change?_concat g l.pins hv]
  cases keepPinned with
  | false => exact hbare.compact
  | true => exact (hbare.addPin (NatMap.get?_insert_self ..)).compact

end Exact

theorem Exact.obey {s : Store} {l : Ledger} (h : Exact s l) (c : Command) :
    Exact (s.obey c) (l.note s c) := by
  cases c with
  | connect | count =>
      exact ⟨⟨h.retention, h.latest, h.opened, h.pins, h.dropped, h.commits⟩, h.snapshots,
        h.changes⟩
  | pin at? =>
      cases hs : s.pin at? with
      | ok r =>
          obtain ⟨⟨v, g⟩, s'⟩ := r
          obtain ⟨-, hv, rfl⟩ := pin_eq_ok hs
          simpa only [Store.obey, Ledger.note, hs] using h.addPin hv
      | error e => simpa only [Store.obey, Ledger.note, hs] using h
  | unpin v => exact h.unpin v
  | acquire context timeout? =>
      cases hs : s.acquireWriter context timeout? with
      | ok s' =>
          obtain ⟨-, rfl⟩ := acquireWriter_eq_ok hs
          simpa only [Store.obey, Ledger.note, hs] using h.writer (some context)
      | error e => simpa only [Store.obey, Ledger.note, hs] using h
  | release context => exact h.releaseWriter context
  | commit context base g keepPinned =>
      cases hs : s.commit context base g keepPinned with
      | ok r =>
          obtain ⟨v, s'⟩ := r
          obtain ⟨-, rfl, rfl, previous, hp, rfl⟩ := commit_eq_ok hs
          simpa only [Store.obey, Ledger.note, hs] using h.publish keepPinned hp
      | error e => simpa only [Store.obey, Ledger.note, hs] using h
  | compact => exact h.complete.compact

theorem Reachable.exact {settings : Settings} {s : Store} {l : Ledger}
    (h : Reachable settings s l) : Exact s l := by
  induction h with
  | opened h => exact exact_openNew h
  | step c _ ih => exact ih.obey c

theorem obey_settings (s : Store) (c : Command) : (s.obey c).settings = s.settings := by
  cases c with
  | connect | count | compact => rfl
  | pin at? =>
      cases hs : s.pin at? with
      | ok r =>
          obtain ⟨⟨v, g⟩, s'⟩ := r
          obtain ⟨-, -, rfl⟩ := pin_eq_ok hs
          simp only [Store.obey, hs]
          rfl
      | error e => simp only [Store.obey, hs]
  | unpin v =>
      simp only [Store.obey, Store.unpin]
      split <;> rfl
  | acquire context timeout? =>
      cases hs : s.acquireWriter context timeout? with
      | ok s' =>
          obtain ⟨-, rfl⟩ := acquireWriter_eq_ok hs
          simp only [Store.obey, hs]
      | error e => simp only [Store.obey, hs]
  | release context =>
      simp only [Store.obey, Store.releaseWriter]
      split <;> rfl
  | commit context base g keepPinned =>
      cases hs : s.commit context base g keepPinned with
      | ok r =>
          obtain ⟨v, s'⟩ := r
          obtain ⟨-, -, -, previous, -, rfl⟩ := commit_eq_ok hs
          simp only [Store.obey, hs]
          cases keepPinned <;> rfl
      | error e => simp only [Store.obey, hs]

theorem Reachable.settings {settings : Settings} {s : Store} {l : Ledger}
    (h : Reachable settings s l) : s.settings = settings := by
  induction h with
  | opened h => exact (openNew_eq_ok h).2.1
  | step c _ ih => exact (obey_settings _ c).trans ih

/-! The change log -/

namespace Exact
variable {s : Store} {l : Ledger}

/-- The entries of the log between two versions, as far as it reaches. -/
theorem keys_between (h : Exact s l) (a b : Nat) :
    (s.changes.filterKeys fun v => decide (a < v ∧ v ≤ b)).keys =
      List.range' (max a s.oldest + 1) (min b s.latest - max a s.oldest) := by
  apply NatMap.keys_eq_range'
  intro v
  have hv := h.logged v
  dsimp only [Version] at hv ⊢
  rw [NatMap.get?_filterKeys]
  by_cases hr : a < v ∧ v ≤ b
  · rw [if_pos (decide_eq_true hr), hv]
    omega
  · rw [if_neg (by simpa using hr)]
    simp only [Option.isSome_none, Bool.false_eq_true, false_iff]
    omega

/-- The changes between two versions, if the log goes back far enough. -/
theorem changesBetween_eq (h : Exact s l) {a b : Nat} (hab : a < b) :
    s.changesBetween a b =
      if s.oldest ≤ a ∧ b ≤ s.latest then
        .ok (s.changes.filterKeys fun v => decide (a < v ∧ v ≤ b)).values
      else .error (.badVersion a "its change log has been compacted") := by
  have hlen := congrArg List.length (h.keys_between a b)
  rw [← NatMap.values_length, List.length_range'] at hlen
  unfold Store.changesBetween
  rw [if_neg (show ¬b < a by omega), if_neg (show ¬b = a by omega)]
  simp only [hlen]
  by_cases hr : s.oldest ≤ a ∧ b ≤ s.latest
  all_goals dsimp only [Version] at hr ⊢
  · rw [if_pos hr, if_neg (show ¬(min b s.latest - max a s.oldest ≠ b - a) by omega)]
  · rw [if_neg hr, if_pos (show min b s.latest - max a s.oldest ≠ b - a by omega)]

theorem changesBetween_ok_iff (h : Exact s l) (a b : Nat) :
    (∃ cs, s.changesBetween a b = .ok cs) ↔ a = b ∨ s.oldest ≤ a ∧ a < b ∧ b ≤ s.latest := by
  rcases Nat.lt_trichotomy a b with hab | rfl | hab
  · rw [h.changesBetween_eq hab]
    split
    next hr => simp [hr, hab]
    next hr =>
      have hne : a ≠ b := by omega
      simp only [reduceCtorEq, exists_false, hne, hab, true_and, false_or, false_iff]
      exact hr
  · simp [Store.changesBetween]
  · simp [Store.changesBetween, hab]
    omega

/-- What is told are the changes of each version in between, in order. -/
theorem changesBetween_changes (h : Exact s l) {a b : Nat} {cs : List Changeset}
    (hcs : s.changesBetween a b = .ok cs) :
    cs.map some = (List.range' (a + 1) (b - a)).map l.change? := by
  rcases Nat.lt_trichotomy a b with hab | rfl | hab
  · rw [h.changesBetween_eq hab] at hcs
    split at hcs
    next hr =>
      simp only [Except.ok.injEq] at hcs
      rw [← hcs, NatMap.values_eq_keys, h.keys_between]
      dsimp only [Version] at hr ⊢
      rw [Nat.max_eq_left hr.1, Nat.min_eq_left hr.2]
      apply List.map_congr_left
      intro v hv
      have hv := List.mem_range'_1.mp hv
      rw [NatMap.get?_filterKeys, if_pos (decide_eq_true (by omega))]
      exact h.logged_change (Nat.lt_of_le_of_lt hr.1 hv.1)
    next => simp at hcs
  · simp [Store.changesBetween] at hcs
    simp [← hcs]
  · simp [Store.changesBetween, hab] at hcs

end Exact

/-- In every state a store can get into, the versions kept are the recent and the pinned
ones, the log covers exactly the versions after the oldest of them, and no version or commit
is miscounted. So changes can be told from any version at or after the oldest one. -/
theorem Reachable.keeps_exactly {settings : Settings} {s : Store} {l : Ledger}
    (h : Reachable settings s l) :
    (∀ v, s.isRetained v ↔ 1 ≤ v ∧ v ≤ s.latest ∧
      (s.latest < v + settings.historyRetention ∨ 0 < s.pinCount v)) ∧
    (∀ v, s.pinCount v = l.pins.count v) ∧
    (s.isRetained s.oldest ∧ ∀ v, s.isRetained v → s.oldest ≤ v) ∧
    s.changes.keys = List.range' (s.oldest + 1) (s.latest - s.oldest) ∧
    s.usage.versionsDropped + s.retained.length = s.latest ∧
    s.usage.commits + 1 = s.latest ∧
    (∀ a b, (∃ cs, s.changesBetween a b = .ok cs) ↔
      a = b ∨ s.oldest ≤ a ∧ a < b ∧ b ≤ s.latest) ∧
    (∀ a b cs, s.changesBetween a b = .ok cs →
      cs.map some = (List.range' (a + 1) (b - a)).map l.change?) := by
  have he := h.exact
  refine ⟨?_, he.pinCount, ⟨?_, ?_⟩, ?_, ?_, he.commits, he.changesBetween_ok_iff, ?_⟩
  · intro v
    have hv := he.retained v
    rwa [Ledger.Wanted, he.latest, ← List.count_pos_iff, ← he.pinCount, h.settings] at hv
  · obtain ⟨g, hg, -⟩ := he.complete.latest_kept
    obtain ⟨first, hfirst⟩ := oldest_kept hg
    exact Option.isSome_iff_exists.mpr ⟨first, hfirst⟩
  · intro v hv
    obtain ⟨g, hg⟩ := Option.isSome_iff_exists.mp hv
    exact oldest_le hg
  · exact NatMap.keys_eq_range' _ _ _ he.logged
  · rw [retained, NatMap.keys_length]
    exact he.dropped
  · exact fun a b cs => he.changesBetween_changes

/-- Three commits over a pinned first version, with two recent versions to keep. -/
theorem keeps_exactly_around_a_pin : ∃ s l, Reachable { historyRetention := 2 } s l ∧
    s.retained = [1, 3, 4] ∧ l.pins = [1] ∧ s.usage = ⟨0, 3, 1⟩ ∧
    s.changes.keys = List.range' 2 3 := by
  have ho : openNew "store" { historyRetention := 2 } = .ok
      ⟨"store", { historyRetention := 2 }, NatMap.empty.insert 1 .empty, ∅, ∅, 1, none, 1, {}⟩ :=
    rfl
  have h := (Reachable.opened ho).obeyAll [.pin none, .acquire 1 none,
    .commit 1 1 .empty true, .commit 1 2 .empty false, .commit 1 3 .empty false, .unpin 2]
  exact ⟨_, _, h, rfl, rfl, rfl, h.keeps_exactly.2.2.2.1⟩

end Store
end SnapshotStore
