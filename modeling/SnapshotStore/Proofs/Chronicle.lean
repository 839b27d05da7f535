import SnapshotStore.Proofs.Connection.Step
import SnapshotStore.Proofs.Group.Identity

/-!
Chronicles: what an observer of all contexts writes down. The observer copies the latest
version when a write begins, repeats every edit of the writer on the copy, and files the copy
as the next version when the write is committed. For each subject it notes the time at which
it came to be, where time passes with every edit.
-/

namespace SnapshotStore

/-- A group and when its subjects came to be. -/
structure Edition where
  group : Group
  births : Subject → Nat

namespace Edition

def empty : Edition := ⟨.empty, fun _ => 0⟩

/-- An edition after an edit; what was not there before the edit comes to be now. -/
def edit (E : Edition) (now : Nat) (e : Edit) : Edition where
  group := (E.group.edit e).2
  births x := if (E.group.sight? x).isSome then E.births x else now

/-- A copy of the edition to be made into another version. -/
def revise (E : Edition) (v : Version) : Edition :=
  { E with group := { E.group with revision := v } }

/-- The later edition came about by edits of the earlier one. -/
structure Leads (E E' : Edition) : Prop where
  group : E.group.Leads E'.group
  births : ∀ x i, E.group.Minted x → E'.group.sight? x = some i → E'.births x = E.births x

/-- All subjects were handed out, and before now. -/
structure Dated (E : Edition) (now : Nat) : Prop where
  numbered : E.group.Numbered
  births : ∀ x i, E.group.sight? x = some i → E.births x < now

variable {E E' E'' : Edition} {now : Nat}

theorem Leads.refl (E : Edition) : E.Leads E := ⟨.refl _, fun _ _ _ _ => rfl⟩

theorem Leads.trans (h : E.Leads E') (h' : E'.Leads E'') : E.Leads E'' where
  group := h.group.trans h'.group
  births x i hx hi := by
    have hx' := h.group.minted hx
    exact (h'.births x i hx' hi).trans (h.births x i hx (h'.group.seen hx' hi))

theorem revise_leads (E : Edition) (v : Version) : E.Leads (E.revise v) :=
  ⟨Group.revision_leads _ _, fun _ _ _ _ => rfl⟩

theorem edit_leads (E : Edition) (now : Nat) (e : Edit) : E.Leads (E.edit now e) where
  group := E.group.edit_leads e
  births x i hx hi := by
    simp [edit, (E.group.edit_leads e).seen hx hi]

theorem empty_dated (now : Nat) : empty.Dated now where
  numbered := ⟨fun k t h => by simp [empty, Group.empty, Group.table?] at h,
    fun name k h => by simp [empty, Group.empty, Group.tableKey?] at h⟩
  births x i h := by cases x <;> simp [empty, Group.empty, Group.sight?, Group.table?] at h

theorem Dated.mono {later : Nat} (h : E.Dated now) (hle : now ≤ later) : E.Dated later :=
  ⟨h.numbered, fun x i hi => Nat.lt_of_lt_of_le (h.births x i hi) hle⟩

theorem Dated.revise (h : E.Dated now) (v : Version) : (E.revise v).Dated now :=
  ⟨(Group.revision_leads E.group v).numbered h.numbered, h.births⟩

theorem Dated.edit (h : E.Dated now) (e : Edit) : (E.edit now e).Dated (now + 1) where
  numbered := (E.group.edit_leads e).numbered h.numbered
  births x i hi := by
    simp only [Edition.edit]
    split
    next hx =>
      obtain ⟨i', hi'⟩ := Option.isSome_iff_exists.mp hx
      exact Nat.lt_succ_of_lt (h.births x i' hi')
    next => exact Nat.lt_succ_self now

end Edition

/-- An open write as the observer follows it. -/
structure Draft where
  edits : List Edit
  since : Nat
  edition : Edition

namespace Draft

def edit (d : Draft) (now : Nat) (e : Edit) : Draft :=
  ⟨d.edits ++ [e], d.since, d.edition.edit now e⟩

/-- The draft was begun on the edition of a version. What is new in it came to be since. -/
structure On (d : Draft) (base : Edition) (v : Nat) : Prop where
  replay : d.edition.group = { base.group with revision := v + 1 }.editAll d.edits
  leads : base.Leads d.edition
  before : base.Dated d.since
  since : ∀ x i, ¬base.group.Minted x → d.edition.group.sight? x = some i →
    d.since ≤ d.edition.births x

theorem On.begin {base : Edition} {now : Nat} (h : base.Dated now) (v : Nat) :
    On ⟨[], now, base.revise (v + 1)⟩ base v where
  replay := rfl
  leads := base.revise_leads (v + 1)
  before := h
  since _ _ hx hi := absurd (h.numbered.minted hi) hx

theorem On.edit {d : Draft} {base : Edition} {v now : Nat} (h : d.On base v)
    (hnow : d.since ≤ now) (e : Edit) : (d.edit now e).On base v where
  replay := by
    simp only [Draft.edit, Edition.edit, Group.editAll, List.foldl_append, List.foldl_cons,
      List.foldl_nil, h.replay]
  leads := h.leads.trans (d.edition.edit_leads now e)
  before := h.before
  since x i hx hi := by
    simp only [Draft.edit, Edition.edit]
    split
    next hs =>
      obtain ⟨i', hi'⟩ := Option.isSome_iff_exists.mp hs
      exact h.since x i' hx hi'
    next => exact hnow

end Draft

structure Chronicle where
  now : Nat
  /-- All versions, oldest first. -/
  versions : List Edition
  /-- The edits of each commit, oldest first. -/
  commits : List (List Edit)
  /-- The last write that each author began. -/
  drafts : Nat → Draft

namespace Chronicle

def opened : Chronicle := ⟨0, [.empty], [], fun _ => ⟨[], 0, .empty⟩⟩

def groups (ch : Chronicle) : List Group := ch.versions.map (·.group)

def latest (ch : Chronicle) : Edition := ch.versions.getLast?.getD .empty

def withDraft (ch : Chronicle) (n : Nat) (d : Draft) : Chronicle :=
  { ch with drafts := fun m => if m = n then d else ch.drafts m }

/-- Write down the deed of an author. -/
def note (ch : Chronicle) (n : Nat) : Deed → Chronicle
  | .rest | .retreat => ch
  | .draft => ch.withDraft n ⟨[], ch.now, ch.latest.revise (ch.versions.length + 1)⟩
  | .edit e => { ch.withDraft n ((ch.drafts n).edit ch.now e) with now := ch.now + 1 }
  | .publish => { ch with
      versions := ch.versions ++ [(ch.drafts n).edition]
      commits := ch.commits ++ [(ch.drafts n).edits] }

theorem edition_of_group {ch : Chronicle} {v : Nat} {g : Group}
    (h : Version.nth? ch.groups v = some g) :
    ∃ E, Version.nth? ch.versions v = some E ∧ E.group = g := by
  rw [groups, Version.nth?_map] at h
  exact Option.map_eq_some_iff.mp h

@[simp] theorem withDraft_self (ch : Chronicle) (n : Nat) (d : Draft) :
    (ch.withDraft n d).drafts n = d := by
  simp [withDraft]

theorem withDraft_ne (ch : Chronicle) {n m : Nat} (d : Draft) (h : m ≠ n) :
    (ch.withDraft n d).drafts m = ch.drafts m := by
  simp [withDraft, h]

theorem note_drafts_ne (ch : Chronicle) {n m : Nat} (d : Deed) (h : m ≠ n) :
    (ch.note n d).drafts m = ch.drafts m := by
  cases d with
  | rest | retreat | publish => rfl
  | draft | edit e => exact withDraft_ne ch _ h

theorem note_now_le (ch : Chronicle) (n : Nat) (d : Deed) : ch.now ≤ (ch.note n d).now := by
  cases d with
  | rest | retreat | publish | draft => exact Nat.le_refl _
  | edit e => exact Nat.le_succ _

/-- Versions are only added. -/
theorem note_versions (ch : Chronicle) (n : Nat) (d : Deed) :
    ∃ more, (ch.note n d).versions = ch.versions ++ more := by
  cases d with
  | rest | retreat | draft | edit e => exact ⟨[], (List.append_nil _).symm⟩
  | publish => exact ⟨_, rfl⟩

theorem note_version {ch : Chronicle} {v : Nat} {E : Edition} (n : Nat) (d : Deed)
    (h : Version.nth? ch.versions v = some E) : Version.nth? (ch.note n d).versions v = some E := by
  obtain ⟨more, hmore⟩ := ch.note_versions n d
  exact hmore ▸ Version.nth?_append_left more h

theorem note_group {ch : Chronicle} {v : Nat} {g : Group} (n : Nat) (d : Deed)
    (h : Version.nth? ch.groups v = some g) : Version.nth? (ch.note n d).groups v = some g := by
  obtain ⟨E, hE, rfl⟩ := edition_of_group h
  rw [groups, Version.nth?_map, note_version n d hE, Option.map_some]

theorem note_length (ch : Chronicle) (n : Nat) (d : Deed) :
    (ch.note n d).versions.length ≤ ch.versions.length + 1 := by
  cases d with
  | rest | retreat | draft | edit e => exact Nat.le_succ _
  | publish => simp [note]

/-- The versions make one chain of commits, each a run of edits of the version before. -/
structure Sound (ch : Chronicle) : Prop where
  commits : ch.commits.length + 1 = ch.versions.length
  chain : ∀ (v : Nat) E E', Version.nth? ch.versions v = some E →
    Version.nth? ch.versions (v + 1) = some E' → E.Leads E' ∧
      ∃ edits, ch.commits[v - 1]? = some edits ∧
        E'.group = { E.group with revision := v + 1 }.editAll edits
  dated : ∀ E ∈ ch.versions, E.Dated ch.now

theorem opened_sound : opened.Sound where
  commits := rfl
  chain v E E' hE hE' := by
    have h := Version.nth?_bounds hE
    have h' := Version.nth?_bounds hE'
    simp only [opened, List.length_singleton] at h h'
    omega
  dated E hE := by
    rw [List.mem_singleton.mp hE]
    exact Edition.empty_dated 0

namespace Sound
variable {ch : Chronicle}

theorem latest (h : ch.Sound) :
    Version.nth? ch.versions ch.versions.length = some ch.latest := by
  have hc := h.commits
  obtain ⟨E, hE⟩ := Option.isSome_iff_exists.mp
    ((Version.nth?_isSome ch.versions ch.versions.length).mpr ⟨by omega, Nat.le_refl _⟩)
  have hlast : ch.versions.getLast? = some E := by
    rwa [List.getLast?_eq_getElem?, ← Version.nth?_eq_getElem? _ (by omega)]
  rw [hE, Chronicle.latest, hlast, Option.getD_some]

theorem latest_dated (h : ch.Sound) : ch.latest.Dated ch.now := by
  have hl := h.latest
  rw [Version.nth?_eq_getElem? _ (Version.nth?_bounds hl).1] at hl
  exact h.dated _ (List.mem_of_getElem? hl)

theorem leads (h : ch.Sound) {v w : Nat} (hvw : v ≤ w) {E E' : Edition}
    (hE : Version.nth? ch.versions v = some E)
    (hE' : Version.nth? ch.versions w = some E') : E.Leads E' := by
  induction hvw generalizing E' with
  | refl => exact Option.some.inj (hE.symm.trans hE') ▸ .refl E
  | step hvw ih =>
      rename_i k
      obtain ⟨F, hF⟩ := Option.isSome_iff_exists.mp ((Version.nth?_isSome ch.versions k).mpr
        ⟨Nat.le_trans (Version.nth?_bounds hE).1 hvw,
          Nat.le_of_succ_le (Version.nth?_bounds hE').2⟩)
      exact (ih hF).trans (h.chain k F E' hF hE').1

section Groups
variable {v m w : Nat} {g f g' : Group}

theorem groups_lead (h : ch.Sound) (hvw : v ≤ w) (hg : Version.nth? ch.groups v = some g)
    (hg' : Version.nth? ch.groups w = some g') : g.Leads g' := by
  obtain ⟨E, hE, rfl⟩ := edition_of_group hg
  obtain ⟨E', hE', rfl⟩ := edition_of_group hg'
  exact (h.leads hvw hE hE').group

theorem numbered (h : ch.Sound) (hg : Version.nth? ch.groups v = some g) : g.Numbered := by
  obtain ⟨E, hE, rfl⟩ := edition_of_group hg
  exact (h.dated E (Version.nth?_mem hE)).numbered

/-- A table that two versions have under one key is one table. -/
theorem table_leads (h : ch.Sound) (hvw : v ≤ w) (hg : Version.nth? ch.groups v = some g)
    (hg' : Version.nth? ch.groups w = some g') {key : TableKey} {t t' : Table}
    (ht : g.table? key = some t) (ht' : g'.table? key = some t') : t.Leads t' := by
  obtain ⟨u, hu, hl⟩ :=
    (h.groups_lead hvw hg hg').table ((h.numbered hg).tables key t ht).2 ht'
  obtain rfl := Option.some.inj (ht.symm.trans hu)
  exact hl

/-- What was there once and is there later was there all the time. -/
theorem seen_between (h : ch.Sound) (hvm : v ≤ m) (hmw : m ≤ w)
    (hg : Version.nth? ch.groups v = some g) (hf : Version.nth? ch.groups m = some f)
    (hg' : Version.nth? ch.groups w = some g') {x : Subject} {i j : Sight}
    (hi : g.sight? x = some i) (hj : g'.sight? x = some j) : f.sight? x = some j := by
  have hminted := (h.groups_lead hvm hg hf).minted ((h.numbered hg).minted hi)
  exact (h.groups_lead hmw hf hg').seen hminted hj

end Groups

theorem publish (h : ch.Sound) {n : Nat} {E : Edition}
    (hE : Version.nth? ch.versions ch.versions.length = some E)
    (hd : (ch.drafts n).On E ch.versions.length)
    (hdated : (ch.drafts n).edition.Dated ch.now) : (ch.note n .publish).Sound where
  commits := by simp [note, h.commits]
  chain v F F' hF hF' := by
    have hc := h.commits
    simp only [note] at hF hF'
    rw [Version.nth?_concat] at hF hF'
    have hv := (Version.nth?_bounds hE).1
    by_cases hlast : v = ch.versions.length
    · subst hlast
      rw [if_neg (by omega), hE, Option.some.injEq] at hF
      rw [if_pos rfl, Option.some.injEq] at hF'
      subst hF hF'
      refine ⟨hd.leads, (ch.drafts n).edits, ?_, hd.replay⟩
      simp [note, ← hc]
    · by_cases hnew : v = ch.versions.length + 1
      · rw [if_neg (by omega)] at hF'
        have hb := (Version.nth?_bounds hF').2
        omega
      · rw [if_neg hnew] at hF
        rw [if_neg (by omega)] at hF'
        have hb := Version.nth?_bounds hF
        have hb' := (Version.nth?_bounds hF').2
        obtain ⟨hl, edits, he, hr⟩ := h.chain v F F' hF hF'
        refine ⟨hl, edits, ?_, hr⟩
        rw [note, List.getElem?_append_left (by omega), he]
  dated F hF := by
    rcases List.mem_append.mp hF with hF | hF
    · exact h.dated F hF
    · exact List.mem_singleton.mp hF ▸ hdated

end Sound
end Chronicle
end SnapshotStore
