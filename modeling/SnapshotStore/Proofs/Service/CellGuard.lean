import SnapshotStore.Proofs.Service.Counting
import SnapshotStore.Proofs.Service.Windows
import SnapshotStore.Proofs.Session.CellGuard

/-!
Reading and writing a cell as one of a type. What is checked is exactly what is needed, and of
several faults the first is reported.
-/

namespace SnapshotStore.Service
variable {settings : Settings} {s : Service} {b : Notebook} {n : Nat} {session : Session} {c : Call}
  {a : CellAccess} {e : Error}

theorem call_of_plan_error (hs : s.sessions.get? n = some session)
    (h : session.plan c = .error e) : s.call n c = some (.error e, s) :=
  call_unchanged_of_error hs (by simp only [Workspace.call, workspace, h])

theorem planned_of_succeeds (hs : s.sessions.get? n = some session) (h : s.Succeeds n c) :
    ∃ operation, session.plan c = .ok operation := by
  obtain ⟨out, s', hc⟩ := h
  obtain ⟨w', hw, -⟩ := call_eq_ok hs hc
  obtain ⟨operation, hplan, -⟩ := Workspace.call_ok_iff.mp hw
  exact ⟨operation, hplan⟩

/-- A call on a cell that passes its checks goes through. -/
theorem Reachable.succeeds_of_planned (h : Reachable settings s b)
    (hs : s.sessions.get? n = some session) (ha : c.cellAccess? = some a) {operation : Operation}
    (hplan : session.plan c = .ok operation) : s.Succeeds n c := by
  have hg := fun g => h.group_wellFormed hs (g := g)
  have hc := fun g => h.inherits Group.conforms_hereditary hs (g := g)
  obtain ⟨htable, hsized, hfit⟩ : c.isOfTable = true ∧ c.Sized ∧ ¬session.Misfits c := by
    cases c with
    | getScalar | getMixed | getLink | setScalar | setLink | nullifyLink =>
        exact ⟨rfl, trivial, id⟩
    | _ => cases ha
  obtain ⟨out, w', hp, -⟩ := Operation.perform_accepted (w := s.workspace session)
    (Session.plan_accepted hg hc htable hsized hfit operation hplan)
  have hcall : Workspace.call c (s.workspace session) = .ok out w' :=
    Workspace.call_ok_iff.mpr ⟨operation, hplan, hp⟩
  exact ⟨out, s.turned n w', by rw [call_eq hs, hcall]⟩

/-- A call that reads or writes one cell as one of a type succeeds just if its handle is that of an
attached table and all checks of the cell hold. Else it fails with the error of the first that does
not, the handle before all others, and changes nothing. What is read is what stands in the cell. -/
theorem Reachable.cell_guarded (h : Reachable settings s b) (hs : s.sessions.get? n = some session)
    (ha : c.cellAccess? = some a) :
    (s.Succeeds n c ↔ ∃ t, session.table a.handle = .ok t ∧
      ∀ check ∈ a.checks session.context t, check.holds) ∧
    (∀ e, session.tables.get a.handle = .error e → s.call n c = some (.error e, s)) ∧
    (∀ bound, session.tables.get a.handle = .ok bound →
      bound.isAttached session.context = false →
      s.call n c = some (.error (.detached HandleKind.table.name), s)) ∧
    (∀ t e, session.table a.handle = .ok t →
      Check.FirstFailing (a.checks session.context t) e → s.call n c = some (.error e, s)) ∧
    (a.writes = false → s.Succeeds n c → ∃ t v reply, session.table a.handle = .ok t ∧
      t.cell? a.column.toNat a.row.toNat = some v ∧ c.Reads a.handle a.column a.row v reply ∧
      s.Answers n c reply) := by
  have hg := fun g => h.group_wellFormed hs (g := g)
  have hguards := fun t => Session.plan_guards hg ha (t := t)
  have hchecked : s.Succeeds n c → ∃ t, session.table a.handle = .ok t ∧
      ∀ check ∈ a.checks session.context t, check.holds := by
    intro hok
    obtain ⟨operation, hplan⟩ := planned_of_succeeds hs hok
    cases ht : session.table a.handle with
    | ok t => exact ⟨t, rfl, (hguards t ht).ok_iff.mp ⟨operation, hplan⟩⟩
    | error e => exact nomatch hplan.symm.trans (Session.plan_of_handle_error ha ht)
  refine ⟨⟨hchecked, ?_⟩, ?_, ?_, ?_, ?_⟩
  · intro hfound
    obtain ⟨t, ht, hall⟩ := hfound
    obtain ⟨operation, hplan⟩ := (hguards t ht).passes hall
    exact h.succeeds_of_planned hs ha hplan
  · intro e hget
    have ht := Session.table_of_get_error hget
    exact call_of_plan_error hs (Session.plan_of_handle_error ha ht)
  · intro bound hget hdetached
    have ht := Session.table_of_detached hget hdetached
    exact call_of_plan_error hs (Session.plan_of_handle_error ha ht)
  · intro t e ht hfirst
    exact call_of_plan_error hs ((hguards t ht).fails e hfirst)
  · intro hreads hok
    obtain ⟨t, ht, hall⟩ := hchecked hok
    obtain ⟨g, -, hw, hseen⟩ := Session.table_found hg ht
    obtain ⟨v, reply, hv, hreply, hplan⟩ :=
      Session.plan_reads (hw.tables _ t hseen) ha hreads ht hall
    exact ⟨t, v, reply, ht, hv, hreply, answers_of_read hs hplan⟩

/-- A string is read from a mixed cell. A link into a row that is not there, from a column of
numbers, is refused for its row, which is checked before the column's type and the target. -/
theorem Reachable.cell_guarded_mixed : ∃ s b, Reachable {} s b ∧
    s.Succeeds 1 (.getScalar 0x100000100000000 .string 1 0) ∧
    s.call 1 (.setLink 0x100000100000000 0 7 9) =
      some (.error (.rowOutOfRange 7 1 false), s) := by
  have h := unused_reachable [.openSession 1, .call 1 (.transact .beginWrite),
    .call 1 (.addTable "t"), .call 1 (.addColumn 0x100000100000000 .int "n" false),
    .call 1 (.addColumn 0x100000100000000 .mixed "m" false),
    .call 1 (.addEmptyRow 0x100000100000000),
    .call 1 (.setMixed 0x100000100000000 1 0 (.string "x"))]
  obtain ⟨hread, -⟩ := h.cell_guarded (n := 1) rfl
    (c := .getScalar 0x100000100000000 .string 1 0) rfl
  obtain ⟨-, -, -, hfaults, -⟩ := h.cell_guarded (n := 1) rfl
    (c := .setLink 0x100000100000000 0 7 9) rfl
  refine ⟨_, _, h, hread.mpr ⟨_, rfl, ?_⟩,
    hfaults _ _ rfl (.inr ⟨by decide, .inl ⟨by decide, rfl⟩⟩)⟩
  exact CellAccess.hold_iff.mpr ⟨by decide, by decide,
    ⟨_, rfl, .inr ⟨rfl, rfl, .string "x", rfl, rfl⟩⟩, (fun _ h => nomatch h), fun h => nomatch h⟩

end SnapshotStore.Service
