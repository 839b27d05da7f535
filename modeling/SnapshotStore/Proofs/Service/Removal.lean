import SnapshotStore.Proofs.Group.Removal
import SnapshotStore.Proofs.Service.Bounds

/-!
Rows that are removed from what sessions work on. Whatever group calls have led to, the links that
are left in it after rows were removed lead to the rows that they led to.
-/

namespace SnapshotStore
namespace Service
variable {settings : Settings} {s : Service} {b : Notebook} {g : Group} {key : TableKey} {t : Table}

/-- The group is one that a session sees, be it a version or the session's own working copy, or a
version that is kept or ever was. -/
def Shows (s : Service) (b : Notebook) (g : Group) : Prop :=
  (∃ n session, s.sessions.get? n = some session ∧ session.context.group = .ok g) ∨
    (∃ v, s.database.store.snapshot v = .ok g) ∨ g ∈ b.chronicle.groups

theorem Reachable.wellFormed_of_shows (h : Reachable settings s b) (hg : s.Shows b g) :
    g.WellFormed := by
  rcases hg with ⟨n, session, hs, hg⟩ | ⟨v, hv⟩ | hg
  · exact (h.group_wellFormed hs hg).1
  · exact h.snapshot_wellFormed hv
  · obtain ⟨E, hE, rfl⟩ := List.mem_map.mp hg
    exact h.wellFormed.versions E hE

/-- To remove a row from a table of a group makes the links to it null, drops it from lists of
links and keeps all other links into the table, its own included, on the rows that they led to, at
whatever positions these stand then. To clear the table makes all links into it null and all lists
of such links empty. Neither changes anything else, but for the rows that go. -/
theorem Reachable.links_after_removal (h : Reachable settings s b) (hg : s.Shows b g)
    (ht : g.table? key = some t) :
    (∀ i < t.size, ∃ g', g.removeRow key i = (.ok (), g') ∧
      Group.Rewrites key (Value.Keeps i fun p p' => ∃ id, g.rowId? key p = some id ∧
        g'.rowId? key p' = some id) (t.withoutRow i) g g') ∧
    ∃ g', g.clearTable key = (.ok (), g') ∧ Group.Rewrites key Value.Empties t.clear g g' :=
  have hw := h.wellFormed_of_shows hg
  ⟨fun _ => hw.removeRow_rewrites ht, hw.clearTable_rewrites ht⟩

/-- A row that is linked to goes from between two rows, the first of which links to the other. -/
theorem links_after_removal_between : ∃ s b g g' g'' t, Reachable {} s b ∧ s.Shows b g ∧
    g.table? 1 = some t ∧ 1 < t.size ∧
    g.removeRow 1 1 = (.ok (), g') ∧ g.clearTable 1 = (.ok (), g'') ∧
    t.get 0 0 = .ok (.linkList [1, 2]) ∧ t.get 1 0 = .ok (.link 2) ∧
    (g'.table? 1).map (·.get 0 0) = some (.ok (.linkList [1])) ∧
    (g'.table? 1).map (·.get 1 0) = some (.ok (.link 1)) ∧
    (g'.table? 2).map (·.get 0 0) = some (.ok .null) ∧
    Group.Rewrites 1 Value.Empties t.clear g g'' := by
  have h := unused_reachable [.openSession 1, .call 1 (.transact .beginWrite),
    .call 1 (.addTable "people"), .call 1 (.addTable "pets"),
    .call 1 (.addLinkColumn 0x100000100000000 .linkList "friends" 0x100000100000000),
    .call 1 (.addLinkColumn 0x100000100000000 .link "best" 0x100000100000000),
    .call 1 (.addLinkColumn 0x100000100000001 .link "owner" 0x100000100000000),
    .call 1 (.addEmptyRow 0x100000100000000), .call 1 (.addEmptyRow 0x100000100000000),
    .call 1 (.addEmptyRow 0x100000100000000), .call 1 (.addEmptyRow 0x100000100000001),
    .call 1 (.getLinkList 0x100000100000000 0 0), .call 1 (.linkListAdd 0x500000100000000 1),
    .call 1 (.linkListAdd 0x500000100000000 2), .call 1 (.setLink 0x100000100000000 1 0 2),
    .call 1 (.setLink 0x100000100000001 0 0 1)]
  obtain ⟨hremove, g'', hclear, hemptied⟩ := h.links_after_removal (.inl ⟨1, _, rfl, rfl⟩)
    (show Group.table? _ 1 = _ from rfl)
  obtain ⟨g', hremoved, -⟩ := hremove 1 (by decide)
  obtain rfl : (Group.removeRow _ 1 1).2 = g' := congrArg Prod.snd hremoved
  exact ⟨_, _, _, _, g'', _, h, .inl ⟨1, _, rfl, rfl⟩, rfl, by decide, hremoved, hclear, rfl, rfl,
    rfl, rfl, rfl, hemptied⟩

end Service
end SnapshotStore
