import SnapshotStore.Proofs.Service.Heredity

/-!
Well-formed services. Every edit that a session makes is safe for the group that it writes, so
all that is ever written and all that is ever committed is well-formed.
-/

namespace SnapshotStore

theorem Group.wellFormed_hereditary : Hereditary WellFormed where
  empty := empty_wellFormed
  revise _ revision h := h.revise revision
  addTable _ _ h := h.edit trivial
  edit _ _ _ _ hg hn hp h := h.edit (Session.plan_edit_safe hg hn hp)

namespace Chronicle

/-- The versions and the open writes are well-formed. -/
structure WellFormed (ch : Chronicle) : Prop where
  versions : ∀ E ∈ ch.versions, E.group.WellFormed
  drafts : ∀ n, (ch.drafts n).edition.group.WellFormed

theorem WellFormed.visible {ch : Chronicle} (h : ch.WellFormed) (n : Nat) (c : Context) :
    (ch.visible n c).group.WellFormed :=
  Throughout.visible Group.wellFormed_hereditary ⟨h.versions, h.drafts⟩ n c

end Chronicle

namespace Service
variable {settings : Settings} {s : Service} {b : Notebook} {n : Nat} {session : Session}

theorem Reachable.wellFormed (h : Reachable settings s b) : b.chronicle.WellFormed :=
  have hb := h.throughout Group.wellFormed_hereditary
  ⟨hb.versions, hb.drafts⟩

/-- Whatever calls sessions make, every group that a session sees is well-formed, be it a
version or the session's own working copy, and so is every version that is kept or ever was. -/
theorem Reachable.groups_wellFormed (h : Reachable settings s b) :
    (∀ n session g, s.sessions.get? n = some session → session.context.group = .ok g →
      g.WellFormed) ∧
    (∀ v g, s.database.store.snapshot v = .ok g → g.WellFormed) ∧
    ∀ g ∈ b.chronicle.groups, g.WellFormed := by
  have hk := h.kept
  have hcommitted : ∀ g ∈ b.chronicle.groups, g.WellFormed := by
    intro g hg
    obtain ⟨E, hE, rfl⟩ := List.mem_map.mp hg
    exact h.wellFormed.versions E hE
  refine ⟨fun n session g hs hg => ?_, fun v g hv => hcommitted g ?_, hcommitted⟩
  · exact (hk.sound.visible (world_context? hs) hg).1 ▸ h.wellFormed.visible n session.context
  · exact Version.nth?_mem (hk.sound.store.snapshot (Store.snapshot_eq_ok.mp hv))

/-- A link follows its row when the row before goes. The next version keeps it, and it keeps the
identity of the row. -/
theorem groups_wellFormed_after_row_removed : ∃ s b g, Reachable {} s b ∧
    s.database.store.snapshot 2 = .ok g ∧ g.WellFormed ∧
    (g.table? 1).map (·.size) = some 1 ∧ (g.table? 1).map (·.rowIds) = some [1] ∧
    (g.table? 2).map (·.get 0 0) = some (.ok (.link 0)) := by
  have h := unused_reachable [.openSession 1, .call 1 (.transact .beginWrite),
    .call 1 (.addTable "town"), .call 1 (.addTable "road"),
    .call 1 (.addLinkColumn 0x100000100000001 .link "end" 0x100000100000000),
    .call 1 (.addEmptyRow 0x100000100000000), .call 1 (.addEmptyRow 0x100000100000000),
    .call 1 (.addEmptyRow 0x100000100000001),
    .call 1 (.setLink 0x100000100000001 0 0 1),
    .call 1 (.removeRow 0x100000100000000 0), .call 1 (.transact .commit)]
  exact ⟨_, _, _, h, rfl, h.groups_wellFormed.2.1 2 _ rfl, rfl, rfl, rfl⟩

end Service
end SnapshotStore
