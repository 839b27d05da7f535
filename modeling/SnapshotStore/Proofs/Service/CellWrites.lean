import SnapshotStore.Proofs.Service.Bounds
import SnapshotStore.Proofs.Service.Tally
import SnapshotStore.Proofs.Service.Windows
import SnapshotStore.Proofs.Session.CellWrites

/-!
Writing a cell. By whatever handle a call is led to it, the cell has the new content afterwards and
shows it, and nothing else is different to anyone.
-/

namespace SnapshotStore.Service
variable {settings : Settings} {s s' : Service} {b : Notebook} {n : Nat} {session : Session}
  {c : Call} {out : Outcome}

/-- A call that writes a cell and succeeds puts its content there, and the calls that read the cell,
by the same handle or by another, answer it. All other cells, the rows, the columns and the other
tables of the session's group are as they were. All handles of the session lead where they led, and
for the other sessions all is the same from then on as if the call had not been made. -/
theorem Reachable.cell_written (h : Reachable settings s b)
    (hs : s.sessions.get? n = some session) (hwrites : c.writesCell = true)
    (hc : s.call n c = some (.ok out, s')) : ∃ session' g g' t t' i j v,
      s'.sessions.get? n = some session' ∧
      session.context.group = .ok g ∧ g.table? t.key = some t ∧
      session'.context.group = .ok g' ∧ g'.table? t.key = some t' ∧
      session.Overwrites t i j c v ∧ t'.cell? i j = some v ∧
      (∀ r reply, session.Shows t i j v r reply → s'.Answers n r reply) ∧
      t.SameBut t' i j ∧ g.SameBut g' t.key ∧ session.SameHandles session' ∧
      DiffersIn n s s' ∧
      ∀ moves, (∀ x ∈ moves, x.number ≠ n) → s'.answers moves = s.answers moves := by
  have hg := fun g => h.group_wellFormed hs (g := g)
  obtain ⟨w', hcall, rfl, -, hs'⟩ := call_eq_ok hs hc
  obtain ⟨base, g, t, i, j, v, hstate, ht, hcell, hw, hoverwrites, -, rfl⟩ :=
    Workspace.call_writes (w := s.workspace session) hg hwrites hcall
  have hn : ∀ g, session.context.group = .ok g → g.Numbered := fun g hgroup => (hg g hgroup).2
  have same := t.putCell_sameBut i j v
  have hv : (t.putCell i j v).cell? i j = some v := Table.cell?_putCell_self hcell
  have hdiffers : DiffersIn n s (s.turned n { (s.workspace session).counted with
      session := session.working base (g.put t.key (t.putCell i j v)) }) := by
    refine ⟨rfl, ?_⟩
    intro m hm
    exact (NatMap.get?_insert ..).trans (if_neg hm)
  refine ⟨_, g, _, t, t.putCell i j v, i, j, v, hs', Context.group_of_writing hstate, ht, rfl,
    by rw [Group.table?_put, if_pos rfl], hoverwrites, hv, ?_, same, g.put_sameBut t.key _,
    Session.sameHandles_put hstate ht same, hdiffers, fun moves hmoves => hdiffers.answers hmoves⟩
  intro r reply hshows
  apply answers_of_read hs'
  exact hshows.plan hw same hv (fun _ => Session.table_put hstate ht same hn)
    (fun _ => Session.row_put hstate ht same hn) fun _ => Session.linkList_put hstate ht same hn

/-- A list is emptied, and a second session reads what it would have read anyway. -/
theorem cell_written_by_list : ∃ s b s', Reachable {} s b ∧
    s.call 1 (.linkListClear 0x500000100000000) = some (.ok ⟨.nothing, none⟩, s') ∧
    s'.Answers 1 (.linkListSize 0x500000100000000) (.number 0) ∧
    s'.answers [.call 2 (.transact (.beginRead none)), .call 2 (.hasTable "t")] =
      s.answers [.call 2 (.transact (.beginRead none)), .call 2 (.hasTable "t")] := by
  have h := unused_reachable [.openSession 1, .openSession 2, .call 1 (.transact .beginWrite),
    .call 1 (.addTable "t"),
    .call 1 (.addLinkColumn 0x100000100000000 .linkList "l" 0x100000100000000),
    .call 1 (.addEmptyRow 0x100000100000000), .call 1 (.getLinkList 0x100000100000000 0 0),
    .call 1 (.linkListAdd 0x500000100000000 0)]
  obtain ⟨_, _, _, _, _, _, _, _, -, -, -, -, -, hoverwrites, -, hshows, -, -, -, -, hanswers⟩ :=
    h.cell_written (n := 1) rfl (c := .linkListClear 0x500000100000000) rfl rfl
  cases hoverwrites with
  | clear found =>
      exact ⟨_, _, _, h, rfl, hshows _ _ (.size found rfl), hanswers _ (by decide)⟩

end SnapshotStore.Service
