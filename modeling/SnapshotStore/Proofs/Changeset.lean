import SnapshotStore.Proofs.Group.Marks
import SnapshotStore.Proofs.History

/-!
Changesets. What a commit puts on record says of every table what became of it, and leaves out
the tables that no edit of its writer reached: these are the same as before, cell by cell.
-/

namespace SnapshotStore
namespace Changeset
variable {old new : Group} {key : TableKey} {v : Version}

/-- The changeset says of each table what became of it between the groups. -/
structure Tells (c : Changeset) (old new : Group) : Prop where
  removed : ∀ key, key ∈ c.removed ↔ (old.table? key).isSome ∧ new.table? key = none
  added : ∀ key, key ∈ c.added ↔ old.table? key = none ∧ (new.table? key).isSome
  reshaped : ∀ key, key ∈ c.reshaped ↔ ∃ t t', old.table? key = some t ∧
    new.table? key = some t' ∧ t.schemaEpoch ≠ t'.schemaEpoch
  modified : ∀ key ∈ c.modified, ∃ t t', old.table? key = some t ∧ new.table? key = some t' ∧
    t.schemaEpoch = t'.schemaEpoch
  distinct : (c.removed ++ c.reshaped ++ c.modified ++ c.added).Nodup
  /-- A table that is neither reshaped nor modified is the same table. -/
  untouched : ∀ key t t', old.table? key = some t → new.table? key = some t' →
    key ∉ c.reshaped → key ∉ c.modified → t' = t

/-! The lists -/

theorem mem_tableKeys {g : Group} : key ∈ g.tableKeys ↔ (g.table? key).isSome := by
  rw [Group.tableKeys, NatMap.mem_keys, Group.table?, Option.isSome_map]

theorem tableKeys_nodup (g : Group) : g.tableKeys.Nodup :=
  (NatMap.keys_ascending g.tables).imp Nat.ne_of_lt

theorem fate_eq_removed : fate old new key = .removed ↔
    old.table? key = none ∨ new.table? key = none := by
  simp only [fate, Group.table?]
  cases old.tables.get? key with
  | none => simp
  | some before =>
      cases new.tables.get? key with
      | none => simp
      | some after =>
          simp only [Option.map_some, reduceCtorEq, or_self, iff_false]
          split
          · simp
          · split <;> simp

/-- Any other fate is that of a table in both groups, and a matter of its two entries. -/
theorem mem_fated {f : Fate} (hf : f ≠ .removed) :
    key ∈ old.tableKeys.filter (fun key => fate old new key = f) ↔ ∃ before after,
      old.tables.get? key = some before ∧ new.tables.get? key = some after ∧
        (if before.table.schemaEpoch ≠ after.table.schemaEpoch then .reshaped
          else if before.writtenIn ≠ after.writtenIn then .modified else .kept) = f := by
  rw [List.mem_filter, Group.tableKeys, NatMap.mem_keys, decide_eq_true_eq, fate]
  cases old.tables.get? key with
  | none => simp
  | some before =>
      cases new.tables.get? key with
      | none => simpa using hf.symm
      | some after => simp

theorem mem_removed : key ∈ (between v old new).removed ↔
    (old.table? key).isSome ∧ new.table? key = none := by
  simp only [between, List.mem_filter, mem_tableKeys, decide_eq_true_eq, fate_eq_removed]
  refine and_congr_right fun hthere => or_iff_right fun hnone => ?_
  simp [hnone] at hthere

theorem mem_added : key ∈ (between v old new).added ↔
    old.table? key = none ∧ (new.table? key).isSome := by
  simp only [between, List.mem_filter, mem_tableKeys, Option.isNone_iff_eq_none]
  exact and_comm

theorem mem_reshaped : key ∈ (between v old new).reshaped ↔ ∃ before after,
    old.tables.get? key = some before ∧ new.tables.get? key = some after ∧
      before.table.schemaEpoch ≠ after.table.schemaEpoch := by
  refine (mem_fated (by decide)).trans (exists₂_congr fun before after => ?_)
  refine and_congr_right' (and_congr_right' ?_)
  split
  next hepoch => simp [hepoch]
  next hepoch => split <;> simp_all

theorem mem_modified : key ∈ (between v old new).modified ↔ ∃ before after,
    old.tables.get? key = some before ∧ new.tables.get? key = some after ∧
      before.table.schemaEpoch = after.table.schemaEpoch ∧
        before.writtenIn ≠ after.writtenIn := by
  refine (mem_fated (by decide)).trans (exists₂_congr fun before after => ?_)
  refine and_congr_right' (and_congr_right' ?_)
  split
  next hepoch => simp [hepoch]
  next hepoch => split <;> simp_all

/-- Lists of tables of the old group with different fates have no table in common. -/
theorem between_distinct (v : Version) (old new : Group) :
    ((between v old new).removed ++ (between v old new).reshaped ++
      (between v old new).modified ++ (between v old new).added).Nodup := by
  have hold := tableKeys_nodup old
  have hfates : ∀ {f f' : Fate} {key key' : TableKey}, f ≠ f' →
      key ∈ old.tableKeys.filter (fun key => fate old new key = f) →
      key' ∈ old.tableKeys.filter (fun key => fate old new key = f') → key ≠ key' := by
    rintro f f' key _ hne h h' rfl
    simp only [List.mem_filter, decide_eq_true_eq] at h h'
    exact hne (h.2.symm.trans h'.2)
  have hadded : ∀ key ∈ (between v old new).added, key ∉ old.tableKeys := fun key h => by
    rw [mem_tableKeys, (mem_added.mp h).1]
    exact Bool.false_ne_true
  refine List.nodup_append.mpr ⟨List.nodup_append.mpr ⟨List.nodup_append.mpr
    ⟨hold.filter _, hold.filter _, fun key h key' h' => hfates (by decide) h h'⟩,
    hold.filter _, fun key h key' h' => ?_⟩, (tableKeys_nodup new).filter _, ?_⟩
  · rcases List.mem_append.mp h with h | h
    · exact hfates (by decide) h h'
    · exact hfates (by decide) h h'
  · rintro key h _ h' rfl
    refine hadded key h' ?_
    rcases List.mem_append.mp h with h | h
    · rcases List.mem_append.mp h with h | h <;> exact List.mem_of_mem_filter h
    · exact List.mem_of_mem_filter h

/-! One commit -/

/-- Whatever a writer did to a copy of a group, also where an edit was refused, the changeset of
its commit tells it. -/
theorem between_tells (hold : old.Marked) (hv : (old.revision : Nat) < v) (edits : List Edit) :
    (between v old ({ old with revision := v }.editAll edits)).Tells old
      ({ old with revision := v }.editAll edits) where
  removed key := mem_removed
  added key := mem_added
  reshaped key := by
    rw [mem_reshaped]
    constructor
    · rintro ⟨before, after, hbefore, hafter, hepoch⟩
      exact ⟨_, _, by rw [Group.table?, hbefore]; rfl, by rw [Group.table?, hafter]; rfl, hepoch⟩
    · rintro ⟨t, t', ht, ht', hepoch⟩
      obtain ⟨before, hbefore, rfl⟩ := Option.map_eq_some_iff.mp ht
      obtain ⟨after, hafter, rfl⟩ := Option.map_eq_some_iff.mp ht'
      exact ⟨before, after, hbefore, hafter, hepoch⟩
  modified key h := by
    obtain ⟨before, after, hbefore, hafter, hepoch, -⟩ := mem_modified.mp h
    exact ⟨_, _, by rw [Group.table?, hbefore]; rfl, by rw [Group.table?, hafter]; rfl, hepoch⟩
  distinct := between_distinct v old _
  untouched key t t' ht ht' hreshaped hmodified := by
    obtain ⟨before, hbefore, rfl⟩ := Option.map_eq_some_iff.mp ht
    obtain ⟨after, hafter, rfl⟩ := Option.map_eq_some_iff.mp ht'
    rw [mem_reshaped] at hreshaped
    rw [mem_modified] at hmodified
    have hepoch : before.table.schemaEpoch = after.table.schemaEpoch :=
      Classical.byContradiction fun h => hreshaped ⟨_, _, hbefore, hafter, h⟩
    have hmark : before.writtenIn = after.writtenIn :=
      Classical.byContradiction fun h => hmodified ⟨_, _, hbefore, hafter, hepoch, h⟩
    rw [hold.same_entry hv hbefore hafter hmark.symm]

end Changeset

/-! All versions -/

namespace World
variable {settings : Settings} {w : World} {ch : Chronicle}

/-- The first version stays the first. -/
theorem Reachable.first (h : Reachable settings w ch) :
    Version.nth? ch.groups 1 = some .empty := by
  induction h with
  | opened _ => rfl
  | step _ _ ih => exact Chronicle.note_group _ _ ih

/-- A version is the revision of its group, and its tables are marked with revisions up to it. -/
theorem Reachable.marked (h : Reachable settings w ch) (v : Nat) {g : Group}
    (hg : Version.nth? ch.groups v = some g) : (g.revision : Nat) = v ∧ g.Marked := by
  induction v generalizing g with
  | zero => simp at hg
  | succ v ih =>
      cases v with
      | zero =>
          obtain rfl := Option.some.inj (h.first.symm.trans hg)
          exact ⟨rfl, Group.empty_marked⟩
      | succ v =>
          have hbound := (Version.nth?_bounds hg).2
          obtain ⟨old, hold⟩ := Option.isSome_iff_exists.mp
            ((Version.nth?_isSome ch.groups (v + 1)).mpr ⟨Nat.le_add_left 1 v, by omega⟩)
          obtain ⟨hrevision, hmarked⟩ := ih hold
          obtain ⟨edits, -, rfl⟩ := Connections.chain_of_sound h.sound.chronicle hold hg
          have hmarks := Group.editAll_marks { old with revision := v + 1 + 1 } edits
          refine ⟨hmarks.revision, (hmarked.revise ?_).marks hmarks⟩
          exact hrevision ▸ Nat.le_succ _

/-- What the versions on both sides of a commit are, its changeset tells. -/
theorem Reachable.tells (h : Reachable settings w ch) {v : Nat} {old new : Group}
    (hold : Version.nth? ch.groups v = some old)
    (hnew : Version.nth? ch.groups (v + 1) = some new) :
    (Changeset.between (v + 1) old new).Tells old new := by
  obtain ⟨hrevision, hmarked⟩ := h.marked v hold
  obtain ⟨edits, -, rfl⟩ := Connections.chain_of_sound h.sound.chronicle hold hnew
  exact Changeset.between_tells hmarked (hrevision ▸ Nat.lt_succ_self _) edits

end World

/-! Commits -/

theorem Store.Tracks.publish {settings : Settings} {groups : List Group} {s : Store} {c : Context}
    {c' : Connection} {base : Version} {g : Group} (h : s.Tracks settings groups)
    (writing : c.state = .writing base g) (hs : Connection.Step ⟨s, c⟩ .publish c') :
    c'.store.Tracks settings (groups ++ [g]) := by
  cases hs with
  | commit hstate hcommit | commitAndRead hstate hcommit =>
      obtain ⟨rfl, rfl⟩ := TransactionState.writing.inj (hstate.symm.trans writing)
      exact (h.commit hcommit).release c.id

/-- What is on record of the latest version is the changeset of its commit. -/
theorem Store.Tracks.recorded {settings : Settings} {groups : List Group} {s : Store}
    {old g : Group} (h : s.Tracks settings (groups ++ [g]))
    (hold : Version.nth? groups groups.length = some old) (change : Changeset) :
    s.changes.get? (groups.length + 1) = some change ↔
      s.oldest ≤ groups.length ∧ change = .between (groups.length + 1) old g := by
  obtain ⟨l, hexact, hl⟩ := h.exact
  rw [hexact.changes, Ledger.change?, hl, Nat.add_sub_cancel, Version.nth?_append_left [g] hold,
    Version.nth?_concat, if_pos rfl, Option.some.injEq, eq_comm]
  exact and_congr_left' Nat.lt_succ_iff

theorem Store.Tracks.last_kept {settings : Settings} {groups : List Group} {s : Store} {g : Group}
    (h : s.Tracks settings (groups ++ [g])) : s.snapshots.get? (groups.length + 1) = some g := by
  obtain ⟨g', hg'⟩ := h.latest_kept
  have hnth := h.snapshot hg'
  have hlatest := h.latest
  rw [List.length_append, List.length_singleton] at hlatest
  rw [← hlatest] at hg' hnth
  rw [Version.nth?_concat, if_pos rfl] at hnth
  rw [hg', hnth]

namespace Connections
variable {settings : Settings} {cs : Connections} {ch : Chronicle} {id : ContextId} {c : Context}
  {base : Version} {g : Group} {t : Transition}

/-- A writer can publish, by a commit of either kind. -/
theorem publishes (hr : World.Reachable settings cs.world ch)
    (hc : cs.contexts.get? id = some c) (writing : c.state = .writing base g)
    (ht : t = .commit ∨ t = .commitAndRead) : ∃ cs',
      cs.act id t.perform = some (.ok (.arrived (base + 1)), cs') ∧
        cs'.store.Tracks settings (ch.groups ++ [g]) := by
  have hcommits := (isolated_of_sound hr.sound).commits id c base g hc writing
  have hpublish : ∀ {a : Action Version} {cs' : Connections}, Connection.Does a .publish →
      cs.act id a = some (.ok (base + 1), cs') →
      cs.act id (do return Transition.Answer.arrived (← a)) =
          some (.ok (.arrived (base + 1)), cs') ∧
        cs'.store.Tracks settings (ch.groups ++ [g]) := by
    intro a cs' hdoes hact
    rw [act_eq _ hc] at hact ⊢
    cases ha : a ⟨cs.store, c⟩ with
    | error e c' => simp [ha] at hact
    | ok v c' =>
        simp only [ha, Option.some.injEq, Prod.mk.injEq, Except.ok.injEq] at hact
        obtain ⟨rfl, rfl⟩ := hact
        rw [bind_of_ok ha]
        exact ⟨rfl, hr.sound.store.publish writing (hdoes.ok ha)⟩
  rcases ht with rfl | rfl
  · obtain ⟨⟨cs', hact⟩, -⟩ := hcommits
    exact ⟨cs', hpublish Connection.commit_does hact⟩
  · obtain ⟨-, cs', hact⟩ := hcommits
    exact ⟨cs', hpublish Connection.commitAndRead_does hact⟩

/-- Whatever moves contexts have made, what is on record of a version is what the commit of it
did to each table, and a writer that commits puts that on record. The record is kept for as long
as an earlier version is. -/
theorem commits_classified {name : String} {s : Store} (h : Store.openNew name settings = .ok s)
    (moves : List Move) :
    (∀ v change, ((new s).makeAll moves).store.changes.get? (v + 1) = some change → ∃ old g,
      (new s).Published moves v old ∧ (new s).Published moves (v + 1) g ∧
        change.version = v + 1 ∧ change.Tells old g) ∧
    ∀ id c base g (t : Transition), ((new s).makeAll moves).contexts.get? id = some c →
      c.state = .writing base g → t = .commit ∨ t = .commitAndRead → ∃ old cs',
        ((new s).makeAll moves).store.snapshot base = .ok old ∧
        ((new s).makeAll moves).act id t.perform = some (.ok (.arrived (base + 1)), cs') ∧
        cs'.store.snapshot (base + 1) = .ok g ∧
        (∀ change, cs'.store.changes.get? (base + 1) = some change ↔
          cs'.store.oldest ≤ base ∧ change = .between (base + 1) old g) ∧
        (Changeset.between (base + 1) old g).Tells old g := by
  have hstart : World.Reachable settings (new s).world .opened := .opened h
  have hempty : (new s).Keyed := fun id c hc => by simp [new] at hc
  obtain ⟨hk, hr⟩ := run_reachable hempty hstart moves
  rw [run_contexts] at hk hr
  constructor
  · intro v change hchange
    obtain ⟨l, hexact, hl⟩ := hr.sound.store.exact
    obtain ⟨-, hlogged⟩ := (hexact.changes _ _).mp hchange
    rw [Ledger.change?, hl, Nat.add_sub_cancel] at hlogged
    split at hlogged
    next old g hold hg =>
      obtain rfl := Option.some.inj hlogged
      exact ⟨old, g, published_of_chronicled hempty hstart rfl hold,
        published_of_chronicled hempty hstart rfl hg, rfl, hr.tells hold hg⟩
    next => simp at hlogged
  · intro id c base g t hc writing ht
    obtain ⟨cs', hact, htracks⟩ := publishes hr hc writing ht
    have hlength := hr.sound.store.latest
    obtain ⟨rfl, g₀, hg₀, hg⟩ := (isolated_of_sound hr.sound).writers id c base g hc writing
    obtain ⟨old, hold⟩ := hr.sound.store.latest_kept
    obtain rfl := Option.some.inj (hg₀.symm.trans (hr.sound.store.snapshot hold))
    obtain ⟨hrevision, hmarked⟩ := hr.marked _ hg₀
    have hrecorded := htracks.recorded (hlength ▸ hg₀)
    rw [hlength] at hrecorded
    refine ⟨g₀, cs', Store.snapshot_eq_ok.mpr hold, hact, ?_, hrecorded, ?_⟩
    · exact Store.snapshot_eq_ok.mpr (hlength ▸ htracks.last_kept)
    · rw [hg]
      exact Changeset.between_tells hmarked (hrevision ▸ Nat.lt_succ_self _) _

/-- A writer removes a row of one table and so repairs a link in another, reshapes a third, removes
a fourth and adds another under its name. A link that is refused leaves the fifth out of it. -/
theorem repaired_link_recorded : ∃ (s : Store) (old g : Group) (change : Changeset),
    s.changes.get? 3 = some change ∧ change.Tells old g ∧ change.removed = [4] ∧
      change.reshaped = [3] ∧ change.modified = [1, 2] ∧ change.added = [6] := by
  have ho : Store.openNew "store" {} = .ok
      ⟨"store", {}, NatMap.empty.insert 1 .empty, ∅, ∅, 1, none, 1, {}⟩ := rfl
  have h := commits_classified ho [.connect, .transact 1 .beginWrite,
    .edit 1 (.addTable "a"), .edit 1 (.addTable "b"), .edit 1 (.addTable "c"),
    .edit 1 (.addTable "d"), .edit 1 (.addTable "e"),
    .edit 1 (.addColumn 2 ⟨"to", .link, true, some 1⟩), .edit 1 (.addRow 1),
    .edit 1 (.addRow 2), .edit 1 (.setLink 2 0 0 0), .transact 1 .commit,
    .transact 1 .beginWrite, .edit 1 (.removeRow 1 0),
    .edit 1 (.addColumn 3 ⟨"n", .int, false, none⟩), .edit 1 (.removeTable 4),
    .edit 1 (.addTable "d"), .edit 1 (.setLink 5 0 0 0)]
  obtain ⟨old, cs', hold, hact, -, hrecorded, htells⟩ := h.2 1 _ _ _ .commit rfl rfl (.inl rfl)
  obtain rfl := Except.ok.inj hold
  obtain rfl := (Prod.mk.inj (Option.some.inj hact)).2
  exact ⟨_, _, _, _, (hrecorded _).mpr ⟨Nat.le_of_ble_eq_true rfl, rfl⟩, htells, rfl, rfl, rfl,
    rfl⟩

end Connections
end SnapshotStore
