import Mathlib.Data.List.Induction
import SnapshotStore.Proofs.Isolation

/-!
History. Whatever contexts do with a store, the versions it gives out make one history in which
numbers keep their meaning: what stands under a table key, a row identity or a schema epoch in
two versions is the same in both, and a number that is once out of use stays so. Writes that
were given up in between have no part in it.
-/

namespace SnapshotStore

/-- The table under the key has a row of the identity. -/
def Group.HasRow (g : Group) (key : TableKey) (id : RowId) : Prop :=
  ∃ t, g.table? key = some t ∧ id ∈ t.rowIds

theorem Group.hasRow_iff {g : Group} {key : TableKey} {id : RowId} :
    g.HasRow key id ↔ g.sight? (.row key id) = some .row := by
  simp [HasRow, sight?_row_eq_some]

namespace Connections

/-! What a store gives out -/

def makeAll (cs : Connections) (moves : List Move) : Connections := moves.foldl make cs

/-- At some time during the moves the store gave the group out as the version. -/
def Published (cs : Connections) (moves : List Move) (v : Version) (g : Group) : Prop :=
  ∃ done, done <+: moves ∧ (cs.makeAll done).store.snapshot v = .ok g

section Run
variable {settings : Settings} {cs : Connections} {ch : Chronicle} {moves : List Move}
  {v : Nat} {g : Group}

theorem run_contexts (cs : Connections) (ch : Chronicle) (moves : List Move) :
    (run cs ch moves).1 = cs.makeAll moves := by
  induction moves generalizing cs ch with
  | nil => rfl
  | cons m moves ih => exact ih (cs.make m) (note ch cs m)

theorem run_append (cs : Connections) (ch : Chronicle) (done rest : List Move) :
    run cs ch (done ++ rest) = run (run cs ch done).1 (run cs ch done).2 rest := by
  induction done generalizing cs ch with
  | nil => rfl
  | cons m done ih => exact ih (cs.make m) (note ch cs m)

theorem note_length (ch : Chronicle) (cs : Connections) (m : Move) :
    (note ch cs m).versions.length ≤ ch.versions.length + 1 := by
  cases m with
  | connect | disconnect id | compact => exact Nat.le_succ _
  | transact id t =>
      simp only [note]
      split
      · exact ch.note_length id t.deed
      · exact Nat.le_succ _
  | edit id e =>
      simp only [note]
      split
      · split
        · exact ch.note_length id _
        · exact Nat.le_succ _
      · exact Nat.le_succ _

/-- A version after a move was there before it or is the latest. -/
theorem note_groups {m : Move} (h : Version.nth? (note ch cs m).groups v = some g) :
    Version.nth? ch.groups v = some g ∨ v = (note ch cs m).groups.length := by
  obtain ⟨more, hmore⟩ := note_versions ch cs m
  have hlength := note_length ch cs m
  have hbound := Version.nth?_bounds h
  have hgroups : (note ch cs m).groups = ch.groups ++ more.map (·.group) := by
    rw [Chronicle.groups, hmore, List.map_append, Chronicle.groups]
  by_cases hold : v ≤ ch.groups.length
  · obtain ⟨f, hf⟩ := Option.isSome_iff_exists.mp
      ((Version.nth?_isSome ch.groups v).mpr ⟨hbound.1, hold⟩)
    have hkept := Version.nth?_append_left (more.map (·.group)) hf
    rw [← hgroups] at hkept
    exact .inl (Option.some.inj (hkept.symm.trans h) ▸ hf)
  · simp only [Chronicle.groups, List.length_map] at hbound hold ⊢
    exact .inr (by omega)

theorem Published.append (h : cs.Published moves v g) (rest : List Move) :
    cs.Published (moves ++ rest) v g := by
  obtain ⟨done, hdone, hsnap⟩ := h
  exact ⟨done, hdone.trans (List.prefix_append _ _), hsnap⟩

/-- What is given out after some of the moves is what the chronicle has after all of them. -/
theorem Published.chronicled (h : cs.Published moves v g) (hk : cs.Keyed)
    (hr : World.Reachable settings cs.world ch) :
    Version.nth? (run cs ch moves).2.groups v = some g := by
  obtain ⟨done, ⟨rest, rfl⟩, hsnap⟩ := h
  rw [← run_contexts cs ch] at hsnap
  have hthen := (run_reachable hk hr done).2.sound.store.snapshot (Store.snapshot_eq_ok.mp hsnap)
  obtain ⟨more, hmore⟩ := run_versions (run cs ch done).1 (run cs ch done).2 rest
  rw [run_append, Chronicle.groups, hmore, List.map_append]
  exact Version.nth?_append_left _ hthen

/-- The store gives out its latest version. -/
theorem published_latest (hk : cs.Keyed) (hr : World.Reachable settings cs.world ch)
    (h : Version.nth? (run cs ch moves).2.groups v = some g)
    (hv : v = (run cs ch moves).2.groups.length) : cs.Published moves v g := by
  have hstore := (run_reachable hk hr moves).2.sound.store
  obtain ⟨f, hf⟩ := hstore.latest_kept
  rw [← hstore.latest, ← hv] at hf
  obtain rfl := Option.some.inj ((hstore.snapshot hf).symm.trans h)
  refine ⟨moves, List.prefix_refl _, Store.snapshot_eq_ok.mpr ?_⟩
  rw [← run_contexts cs ch]
  exact hf

/-- Every version was given out when it was the latest. -/
theorem published_of_chronicled (hk : cs.Keyed) (hr : World.Reachable settings cs.world ch)
    (hstart : ch.groups.length = 1) (h : Version.nth? (run cs ch moves).2.groups v = some g) :
    cs.Published moves v g := by
  induction moves using List.reverseRecOn with
  | nil =>
      have hbound := Version.nth?_bounds h
      change _ ∧ v ≤ ch.groups.length at hbound
      exact published_latest hk hr h (by change v = ch.groups.length; omega)
  | append_singleton moves m ih =>
      have hrun : (run cs ch (moves ++ [m])).2 =
          note (run cs ch moves).2 (run cs ch moves).1 m := by
        rw [run_append]
        rfl
      rcases note_groups (hrun ▸ h) with hold | hlatest
      · exact (ih hold).append [m]
      · exact published_latest hk hr h (hrun ▸ hlatest)

end Run

/-! The history of a store -/

/-- The versions that a store has given out, up to the latest, as one history. -/
structure History (latest : Version) (published : Version → Group → Prop) : Prop where
  /-- Every version up to the latest is given out, and always as the same group. -/
  versions : ∀ v, ((∃ g, published v g) ↔ 1 ≤ (v : Nat) ∧ v ≤ latest) ∧
    ∀ g g', published v g → published v g' → g = g'
  /-- Under one key stands one table, and its columns change only with its schema epoch. -/
  tables : ∀ v w g g', v ≤ w → published v g → published w g' → ∀ key t t',
    g.table? key = some t → g'.table? key = some t' → t'.name = t.name ∧
      t.schemaEpoch ≤ t'.schemaEpoch ∧ (t'.schemaEpoch = t.schemaEpoch → t'.columns = t.columns)
  /-- A key that is out of use stays so. -/
  tableGone : ∀ u v w f g g', u ≤ v → v ≤ w → published u f → published v g → published w g' →
    ∀ key, (f.table? key).isSome → g.table? key = none → g'.table? key = none
  /-- A row identity that is out of use stays so. -/
  rowGone : ∀ u v w f g g', u ≤ v → v ≤ w → published u f → published v g → published w g' →
    ∀ key id, f.HasRow key id → ¬g.HasRow key id → ¬g'.HasRow key id
  /-- A row of two versions is a row of every version between. -/
  rowBetween : ∀ u v w f g g', u ≤ v → v ≤ w → published u f → published v g → published w g' →
    ∀ key id, f.HasRow key id → g'.HasRow key id → g.HasRow key id

/-- The versions of a sound chronicle are one history. -/
theorem history_of_sound {ch : Chronicle} (h : ch.Sound) :
    History ch.groups.length fun v g => Version.nth? ch.groups v = some g where
  versions v := by
    refine ⟨?_, fun g g' hg hg' => Option.some.inj (hg.symm.trans hg')⟩
    rw [← Option.isSome_iff_exists]
    exact Version.nth?_isSome ch.groups v
  tables v w g g' hvw hg hg' key t t' ht ht' := by
    have hl := h.table_leads hvw hg hg' ht ht'
    exact ⟨hl.name, hl.epoch, hl.columns⟩
  tableGone u v w f g g' huv hvw hf hg hg' key hthere hgone := by
    obtain ⟨t, ht⟩ := Option.isSome_iff_exists.mp hthere
    cases ht' : g'.table? key with
    | none => rfl
    | some t' =>
        have hseen := h.seen_between huv hvw hf hg hg' (Group.sight?_table ht)
          (Group.sight?_table ht')
        obtain ⟨u, hu, -⟩ := Group.sight?_table_eq_some.mp hseen
        simp [hgone] at hu
  rowGone u v w f g g' huv hvw hf hg hg' key id hthere hgone hagain := by
    rw [Group.hasRow_iff] at hthere hgone hagain
    exact hgone (h.seen_between huv hvw hf hg hg' hthere hagain)
  rowBetween u v w f g g' huv hvw hf hg hg' key id hthere hagain := by
    rw [Group.hasRow_iff] at hthere hagain ⊢
    exact h.seen_between huv hvw hf hg hg' hthere hagain

/-- Whatever moves contexts make and in whatever order, the versions that their store gives out
are one history. -/
theorem published_history {settings : Settings} {name : String} {s : Store}
    (h : Store.openNew name settings = .ok s) (moves : List Move) :
    History ((new s).makeAll moves).store.latest ((new s).Published moves) := by
  have hk : (new s).Keyed := fun id c hc => by simp [new] at hc
  have hr : World.Reachable settings (new s).world .opened := .opened h
  have hsound := (run_reachable hk hr moves).2.sound
  have hpublished : (new s).Published moves =
      fun v g => Version.nth? (run (new s) .opened moves).2.groups v = some g := by
    funext v g
    exact propext ⟨fun hp => hp.chronicled hk hr, published_of_chronicled hk hr rfl⟩
  have hlatest : ((new s).makeAll moves).store.latest =
      (run (new s) .opened moves).2.groups.length := by
    rw [← run_contexts _ .opened]
    exact hsound.store.latest.symm
  rw [hpublished, hlatest]
  exact history_of_sound hsound.chronicle

/-- A table that is removed and added again has a new key, also after a write that was given
up used that key for another table. -/
theorem renewed_table_published : ∃ latest published, History latest published ∧ latest = 3 ∧
    ∃ g g', published 2 g ∧ published 3 g' ∧
      (g.table? 1).map (·.name) = some "a" ∧ (g.table? 1).map (·.rowIds) = some [0] ∧
      g'.table? 1 = none ∧ (g'.table? 2).map (·.name) = some "a" := by
  have ho : Store.openNew "store" {} = .ok
      ⟨"store", {}, NatMap.empty.insert 1 .empty, ∅, ∅, 1, none, 1, {}⟩ := rfl
  have h := published_history ho [.connect, .connect,
    .transact 1 .beginWrite, .edit 1 (.addTable "a"), .edit 1 (.addRow 1), .transact 1 .commit,
    .transact 2 .beginWrite, .edit 2 (.addTable "b"), .transact 2 .rollback,
    .transact 1 .beginWrite, .edit 1 (.removeTable 1), .edit 1 (.addTable "a"),
    .transact 1 .commit]
  refine ⟨_, _, h, rfl, _, _, ⟨_, List.take_prefix 6 _, rfl⟩, ⟨_, List.prefix_refl _, rfl⟩, ?_⟩
  exact ⟨rfl, rfl, rfl, rfl⟩

end Connections
end SnapshotStore
