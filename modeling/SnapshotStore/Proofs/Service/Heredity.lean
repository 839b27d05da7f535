import SnapshotStore.Proofs.Service.Run
import SnapshotStore.Proofs.Session.Edits

/-!
Heredity. What is true of the empty group and outlives every edit that a session makes is true of
all that is ever written and of all that is ever committed.
-/

namespace SnapshotStore

/-- What is true of a group to begin with, stays true when the group is taken for another version
and outlives every edit that a call comes to. -/
structure Group.Hereditary (P : Group → Prop) : Prop where
  empty : P .empty
  revise : ∀ g revision, P g → P { g with revision }
  addTable : ∀ g name, P g → P (g.edit (.addTable name)).2
  edit : ∀ (s : Session) c g e, s.context.group = .ok g → g.Numbered → s.plan c = .ok (.edit e) →
    P g → P (g.edit e).2

namespace Chronicle
variable {P : Group → Prop} {ch : Chronicle} {n : Nat} {d : Deed}

/-- It is true of all versions and all open writes. -/
structure Throughout (P : Group → Prop) (ch : Chronicle) : Prop where
  versions : ∀ E ∈ ch.versions, P E.group
  drafts : ∀ n, P (ch.drafts n).edition.group

namespace Throughout

theorem opened (hP : Group.Hereditary P) : Chronicle.opened.Throughout P where
  versions _ hE := List.mem_singleton.mp hE ▸ hP.empty
  drafts _ := hP.empty

theorem latest (hP : Group.Hereditary P) (h : ch.Throughout P) : P ch.latest.group := by
  unfold Chronicle.latest
  cases hlast : ch.versions.getLast? with
  | none => exact hP.empty
  | some E => exact h.versions E (List.mem_of_getLast? hlast)

theorem withDraft (h : ch.Throughout P) {draft : Draft} (hd : P draft.edition.group) (m : Nat) :
    P ((ch.withDraft n draft).drafts m).edition.group := by
  by_cases hm : m = n
  · rw [hm, withDraft_self]
    exact hd
  · rw [withDraft_ne ch draft hm]
    exact h.drafts m

theorem note (hP : Group.Hereditary P) (h : ch.Throughout P)
    (hedit : ∀ e, d = .edit e → P ((ch.drafts n).edition.group.edit e).2) :
    (ch.note n d).Throughout P := by
  cases d with
  | rest | retreat => exact h
  | draft => exact ⟨h.versions, h.withDraft (hP.revise _ _ (h.latest hP))⟩
  | edit e => exact ⟨h.versions, h.withDraft (hedit e rfl)⟩
  | publish =>
      refine ⟨fun E hE => ?_, h.drafts⟩
      rcases List.mem_append.mp hE with hE | hE
      · exact h.versions E hE
      · exact List.mem_singleton.mp hE ▸ h.drafts n

theorem visible (hP : Group.Hereditary P) (h : ch.Throughout P) (n : Nat) (c : Context) :
    P (ch.visible n c).group := by
  unfold Chronicle.visible
  split
  · exact hP.empty
  next v _ _ =>
    cases hv : Version.nth? ch.versions v with
    | none => exact hP.empty
    | some E => exact h.versions E (Version.nth?_mem hv)
  · exact h.drafts n

end Throughout
end Chronicle

namespace Service
variable {P : Group → Prop} {settings : Settings} {s : Service} {b : Notebook} {n : Nat}
  {session : Session} {g : Group}

/-- What a session writes is its draft. -/
theorem Kept.draft (h : Kept settings s b) (hs : s.sessions.get? n = some session)
    {base : Version} (writing : session.context.state = .writing base g) :
    (b.chronicle.drafts n).edition.group = g := by
  have hg : session.context.group = .ok g := Context.group_of_writing writing
  have hvisible := (h.sound.visible (world_context? hs) hg).1
  simpa only [Chronicle.visible, writing] using hvisible

theorem observe_throughout (hP : Group.Hereditary P) (h : Kept settings s b)
    (hb : b.chronicle.Throughout P) (m : Move) : (s.observe b m).chronicle.Throughout P := by
  cases m with
  | openSession n | closeSession n => exact hb
  | call n c =>
      simp only [observe]
      split
      next session hs =>
        refine hb.note hP (n := n) (d := (s.workspace session).deed c) fun e he => ?_
        obtain ⟨base, g, hstate, hplan⟩ := Workspace.deed_eq_edit he
        have hdraft := h.draft hs hstate
        have hg : P (b.chronicle.drafts n).edition.group := hb.drafts n
        rw [hdraft] at hg ⊢
        have hgroup : session.context.group = .ok g := Context.group_of_writing hstate
        rcases hplan with hplan | ⟨name, rfl⟩
        · exact hP.edit session c g e hgroup (h.numbered hs g hgroup) hplan hg
        · exact hP.addTable g name hg
      next => exact hb

theorem Reachable.throughout (hP : Group.Hereditary P) (h : Reachable settings s b) :
    b.chronicle.Throughout P :=
  h.induct (I := fun _ b => b.chronicle.Throughout P) (fun _ _ _ => .opened hP)
    fun _ _ m hk hb => observe_throughout hP hk hb m

/-- What is hereditary is true of whatever a session sees. -/
theorem Reachable.inherits (hP : Group.Hereditary P) (h : Reachable settings s b)
    (hs : s.sessions.get? n = some session) (hg : session.context.group = .ok g) : P g :=
  (h.kept.sound.visible (world_context? hs) hg).1 ▸
    (h.throughout hP).visible hP n session.context

end Service
end SnapshotStore
