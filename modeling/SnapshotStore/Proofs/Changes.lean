import SnapshotStore.Proofs.Chronicle
import SnapshotStore.Proofs.Store.Retention

/-!
Changes between versions. A run of commits invalidates what is bound to a table exactly when
the table is gone at its end or has other columns than at its start: neither a key nor a schema
epoch comes back once it is past.
-/

namespace SnapshotStore

/-- Whether the table is there with the columns of the schema epoch. -/
def Group.keeps (g : Group) (key : TableKey) (epoch : Nat) : Bool :=
  (g.table? key).any (·.schemaEpoch = epoch)

theorem Group.keeps_iff {g : Group} {key : TableKey} {epoch : Nat} :
    g.keeps key epoch ↔ ∃ t, g.table? key = some t ∧ t.schemaEpoch = epoch := by
  simp [keeps, Option.any_eq_true]

/-- The commit removed the table or changed its columns. -/
def Changeset.ends (c : Changeset) (key : TableKey) : Prop := key ∈ c.removed ∨ key ∈ c.reshaped

/-! Summaries -/

namespace ChangeSummary

theorem contains_mark (keys : List TableKey) (set : NatMap Unit) (key : TableKey) :
    (mark keys set).contains key ↔ key ∈ keys ∨ set.contains key := by
  induction keys generalizing set with
  | nil => simp [mark]
  | cons k keys ih =>
      have hinsert : (set.insert k ()).contains key ↔ key = k ∨ set.contains key := by
        rw [NatMap.contains_eq, NatMap.contains_eq, NatMap.get?_insert]
        by_cases h : key = k <;> simp [h]
      rw [mark, List.foldl_cons, ← mark, ih, hinsert, List.mem_cons, or_assoc, or_left_comm]

theorem invalidates_foldl (changes : List Changeset) (s : ChangeSummary) (key : TableKey) :
    (changes.foldl add s).invalidates key ↔ s.invalidates key ∨ ∃ c ∈ changes, c.ends key := by
  induction changes generalizing s with
  | nil => simp
  | cons c changes ih =>
      have hadd : (s.add c).invalidates key ↔ s.invalidates key ∨ c.ends key := by
        simp only [invalidates, add, Bool.or_eq_true, contains_mark, Changeset.ends]
        simp only [or_assoc, or_left_comm, or_comm]
      simp only [List.foldl_cons, ih, hadd, List.mem_cons, exists_eq_or_imp, or_assoc]

/-- A summary invalidates what one of its commits ended. -/
theorem invalidates_collect (changes : List Changeset) (key : TableKey) :
    (collect changes).invalidates key ↔ ∃ c ∈ changes, c.ends key := by
  rw [collect, invalidates_foldl]
  simp [invalidates, empty]

end ChangeSummary

/-! One commit -/

namespace Changeset
variable {old new : Group} {key : TableKey} {v : Version}

/-- A commit ends what the next version does not keep. -/
theorem ends_between {t : Table} (ht : old.table? key = some t) :
    (between v old new).ends key ↔ ¬new.keeps key t.schemaEpoch := by
  obtain ⟨before, hbefore, rfl⟩ := Option.map_eq_some_iff.mp ht
  have hkey : key ∈ old.tableKeys := by
    rw [Group.tableKeys, NatMap.mem_keys, hbefore, Option.isSome_some]
  simp only [ends, between, List.mem_filter, hkey, true_and, decide_eq_true_eq, Group.keeps,
    Group.table?, fate, hbefore]
  cases new.tables.get? key with
  | none => simp
  | some after =>
      by_cases he : before.table.schemaEpoch = after.table.schemaEpoch
      · by_cases hw : before.writtenIn = after.writtenIn <;> simp [he, hw]
      · simp [he, Ne.symm he]

end Changeset

/-! Runs of commits -/

namespace Chronicle.Sound
variable {ch : Chronicle} {a b m : Nat} {g g' f : Group} {key : TableKey} {epoch : Nat}

/-- What two versions keep, every version in between keeps. -/
theorem keeps_between (h : ch.Sound) (ham : a ≤ m) (hmb : m ≤ b)
    (hg : Version.nth? ch.groups a = some g) (hf : Version.nth? ch.groups m = some f)
    (hg' : Version.nth? ch.groups b = some g') (hk : g.keeps key epoch)
    (hk' : g'.keeps key epoch) : f.keeps key epoch := by
  obtain ⟨t, ht, rfl⟩ := Group.keeps_iff.mp hk
  obtain ⟨t', ht', he⟩ := Group.keeps_iff.mp hk'
  have hseen := h.seen_between ham hmb hg hf hg' (Group.sight?_columns ht)
    (he ▸ Group.sight?_columns ht')
  obtain ⟨u, hu, he', -⟩ := Group.sight?_columns_eq_some.mp hseen
  exact Group.keeps_iff.mpr ⟨u, hu, he'⟩

/-- A table is kept up to a version if no commit on the way ended it. -/
theorem keeps_iff_of_changes (h : ch.Sound) {l : Ledger} (hl : l.groups = ch.groups)
    (hab : a ≤ b) (hg : Version.nth? ch.groups a = some g) (hk : g.keeps key epoch)
    (hg' : Version.nth? ch.groups b = some g') : g'.keeps key epoch ↔
      ∀ (v : Nat) c, a < v → v ≤ b → l.change? v = some c → ¬c.ends key := by
  induction hab generalizing g' with
  | refl =>
      obtain rfl := Option.some.inj (hg.symm.trans hg')
      exact iff_of_true hk fun v c hlt hle => absurd hlt (Nat.not_lt_of_le hle)
  | @step b hab ih =>
      obtain ⟨f, hf⟩ := Option.isSome_iff_exists.mp ((Version.nth?_isSome ch.groups b).mpr
        ⟨Nat.le_trans (Version.nth?_bounds hg).1 hab,
          Nat.le_of_succ_le (Version.nth?_bounds hg').2⟩)
      have hchange : l.change? (b + 1) = some (.between (b + 1) f g') := by
        rw [Nat.succ_eq_add_one] at hg'
        simp only [Ledger.change?, hl, Nat.add_sub_cancel, hf, hg']
      have hlast : f.keeps key epoch → (g'.keeps key epoch ↔
          ¬(Changeset.between (b + 1) f g').ends key) := by
        intro hkF
        obtain ⟨u, hu, rfl⟩ := Group.keeps_iff.mp hkF
        rw [Changeset.ends_between hu, Decidable.not_not]
      constructor
      · intro hk' v c hlt hle hc
        have hkF := h.keeps_between hab (Nat.le_succ b) hg hf hg' hk hk'
        rcases Nat.lt_or_eq_of_le hle with hle | rfl
        · exact (ih hf).mp hkF v c hlt (Nat.le_of_lt_succ hle) hc
        · obtain rfl := Option.some.inj (hchange.symm.trans hc)
          exact (hlast hkF).mp hk'
      · intro hnone
        have hkF := (ih hf).mpr fun v c hlt hle => hnone v c hlt (Nat.le_succ_of_le hle)
        exact (hlast hkF).mpr (hnone _ _ (Nat.lt_succ_of_le hab) (Nat.le_refl _) hchange)

/-- The summary of the changes from a version on invalidates what the version at its end does
not keep. -/
theorem invalidates_iff (h : ch.Sound) {s : Store} {l : Ledger} (hs : Store.Exact s l)
    (hl : l.groups = ch.groups) {changes : List Changeset}
    (hchanges : s.changesBetween a b = .ok changes) (hab : a ≤ b)
    (hg : Version.nth? ch.groups a = some g) (hk : g.keeps key epoch)
    (hg' : Version.nth? ch.groups b = some g') :
    (ChangeSummary.collect changes).invalidates key ↔ ¬g'.keeps key epoch := by
  have hmem : ∀ c, c ∈ changes ↔ ∃ v, (a < v ∧ v ≤ b) ∧ l.change? v = some c := by
    intro c
    have hrange := hs.changesBetween_changes hchanges
    have hc : c ∈ changes ↔ some c ∈ changes.map some := by simp
    rw [hc, hrange, List.mem_map]
    refine exists_congr fun v => and_congr_left fun _ => ?_
    rw [List.mem_range'_1]
    omega
  rw [ChangeSummary.invalidates_collect, h.keeps_iff_of_changes hl hab hg hk hg']
  constructor
  · rintro ⟨c, hc, hends⟩ hnone
    obtain ⟨v, ⟨hlt, hle⟩, hv⟩ := (hmem c).mp hc
    exact hnone v c hlt hle hv hends
  · intro hsome
    refine Classical.byContradiction fun hnone => hsome fun v c hlt hle hv hends => hnone ?_
    exact ⟨c, (hmem c).mpr ⟨v, ⟨hlt, hle⟩, hv⟩, hends⟩

end Chronicle.Sound
end SnapshotStore
