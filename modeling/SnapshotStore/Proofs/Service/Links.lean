import SnapshotStore.Proofs.Group.Links
import SnapshotStore.Proofs.Service.Bounds

/-!
Links in what sessions see. Removing a row keeps every link on its row. Inserting a row keeps only
the links to rows before it, and every other link into the table comes to designate another row.
-/

namespace SnapshotStore
namespace Service
variable {settings : Settings} {s : Service} {b : Notebook} {n : Nat} {session : Session}
  {g : Group} {key : TableKey} {t : Table}

/-- What becomes of the links into a table as a row comes into it or goes. -/
theorem Reachable.links_as_rows_move (h : Reachable settings s b)
    (hs : s.sessions.get? n = some session) (hg : session.context.group = .ok g)
    (ht : g.table? key = some t) :
    (∀ i ≤ t.size, ∃ g', g.edit (.insertRow key i) = (.ok none, g') ∧
      ∀ x c v, g.HasCell x c v → c.target? = some key → g'.HasCell x c v ∧
        ∀ p ∈ v.targets, ∃ id, g.rowId? key p = some id ∧
          g'.rowId? key (if p < i then p else p + 1) = some id ∧
          (g'.rowId? key p = some id ↔ p < i) ∧
          (p = i → g'.rowId? key p = some t.nextRowId) ∧
          (i < p → g'.rowId? key p = g.rowId? key (p - 1))) ∧
    ∀ i < t.size, ∃ g', g.edit (.removeRow key i) = (.ok none, g') ∧
      ∀ x c v, g.HasCell x c v → c.target? = some key →
        (x.table = key → g.rowId? key i ≠ some x.row) → ∃ v', g'.HasCell x c v' ∧
          v'.targets.filterMap (g'.rowId? key) =
            (v.targets.filterMap (g.rowId? key)).filter (some · ≠ g.rowId? key i) :=
  have hw := (h.group_wellFormed hs hg).1
  ⟨fun _ => hw.links_insertRow ht, fun _ => hw.links_removeRow ht⟩

/-- A link keeps designating its row when a row is inserted after that. -/
theorem links_as_rows_move_at_end : ∃ s b session g g' c, Reachable {} s b ∧
    s.sessions.get? 1 = some session ∧ session.context.group = .ok g ∧
    g.edit (.insertRow 1 1) = (.ok none, g') ∧ c.target? = some 1 ∧
    g.HasCell ⟨2, 0, 0⟩ c (.link 0) ∧ g'.HasCell ⟨2, 0, 0⟩ c (.link 0) ∧
    g'.rowId? 1 0 = g.rowId? 1 0 := by
  have h := unused_reachable [.openSession 1, .call 1 (.transact .beginWrite),
    .call 1 (.addTable "town"), .call 1 (.addTable "road"),
    .call 1 (.addLinkColumn 0x100000100000001 .link "end" 0x100000100000000),
    .call 1 (.addEmptyRow 0x100000100000000), .call 1 (.addEmptyRow 0x100000100000001),
    .call 1 (.setLink 0x100000100000001 0 0 0)]
  obtain ⟨g', hedit, hlinks⟩ := (h.links_as_rows_move (n := 1) rfl rfl
    (show Group.table? _ 1 = _ from rfl)).1 1 (Nat.le_refl 1)
  obtain ⟨hcell, hrows⟩ := hlinks ⟨2, 0, 0⟩ _ (.link 0) ⟨_, rfl, rfl, 0, rfl, rfl⟩ rfl
  obtain ⟨id, hid, -, hsame, -⟩ := hrows 0 (.head _)
  exact ⟨_, _, _, _, g', _, h, rfl, rfl, hedit, rfl, ⟨_, rfl, rfl, 0, rfl, rfl⟩, hcell,
    (hsame.mpr Nat.zero_lt_one).trans hid.symm⟩

/-- A link comes to designate the row that is inserted where its row stood. -/
theorem redirected_by_insertion : ∃ s b session g g' c, Reachable {} s b ∧
    s.sessions.get? 1 = some session ∧ session.context.group = .ok g ∧
    g.edit (.insertRow 1 0) = (.ok none, g') ∧ c.target? = some 1 ∧
    g.HasCell ⟨2, 0, 0⟩ c (.link 0) ∧ g'.HasCell ⟨2, 0, 0⟩ c (.link 0) ∧
    g.rowId? 1 0 = some 0 ∧ g'.rowId? 1 0 = some 1 := by
  have h := unused_reachable [.openSession 1, .call 1 (.transact .beginWrite),
    .call 1 (.addTable "town"), .call 1 (.addTable "road"),
    .call 1 (.addLinkColumn 0x100000100000001 .link "end" 0x100000100000000),
    .call 1 (.addEmptyRow 0x100000100000000), .call 1 (.addEmptyRow 0x100000100000001),
    .call 1 (.setLink 0x100000100000001 0 0 0)]
  exact ⟨_, _, _, _, _, _, h, rfl, rfl, rfl, rfl, ⟨_, rfl, rfl, 0, rfl, rfl⟩,
    ⟨_, rfl, rfl, 0, rfl, rfl⟩, rfl, rfl⟩

end Service
end SnapshotStore
