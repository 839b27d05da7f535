import SnapshotStore.Error.Boundary
import SnapshotStore.Proofs.Service.WellFormed
import SnapshotStore.Proofs.Session.Faultless

/-!
Services that stay within bounds. Whatever calls have been made, everything that the next call
goes to by its position is there, and if the call fails, the library is not to blame.
-/

namespace SnapshotStore

/-- A handle that is good leads to a slot with an object in it, the slots to be used again are
there and empty, and the count of the objects is one from which each of them can be taken off. -/
structure Arena.InBounds {α : Type} (a : Arena α) : Prop where
  located : ∀ raw k, a.locate raw = .ok k →
    ∃ x, a.slots[k.slot]? = some ⟨k.generation, some x⟩
  free : ∀ slot ∈ a.free, ∃ generation, a.slots[slot]? = some ⟨generation, none⟩
  counted : a.size = a.occupied

theorem Arena.Stocks.inBounds {α : Type} {a : Arena α} {kind : HandleKind} (h : a.Stocks kind) :
    a.InBounds where
  located raw k hl := by
    obtain ⟨x, hk⟩ := Arena.locate_eq_ok.mp hl
    exact ⟨x, Arena.live?_eq_some.mp hk.live⟩
  free := h.tidy.empty
  counted := h.tidy.counted

/-- Positions that pass their checks are those of columns, rows and cells, all rows are as wide
as the table, identities reach as far as rows do, and what is read is what stands there. -/
structure Table.InBounds (t : Table) : Prop where
  width : ∀ r ∈ t.rows, r.length = t.columnCount
  identified : t.rowIds.length = t.size
  column : ∀ index i, t.checkColumn index = .ok i → i < t.columnCount
  row : ∀ index i, t.checkRow index false = .ok i → i < t.size
  insertion : ∀ index i, t.checkRow index true = .ok i → i ≤ t.size
  cell : ∀ column row type? i j, t.checkCell column row type? = .ok (i, j) →
    (t.cell? i j).isSome
  get : ∀ i j v, t.get i j = .ok v ↔ t.cell? i j = some v
  linkList : ∀ i j targets, t.linkList i j = .ok targets ↔ t.cell? i j = some (.linkList targets)

theorem Table.WellFormed.inBounds {t : Table} (h : t.WellFormed) : t.InBounds where
  width := h.width
  identified := h.identified
  column _ _ := Table.checkColumn_lt
  row _ _ := Table.checkRow_lt
  insertion _ _ := Table.checkRow_le
  cell _ _ _ _ _ := h.cell?_of_checkCell
  get _ _ _ := h.get_eq_ok
  linkList _ _ _ := h.linkList_eq_ok

/-- The tables stay within bounds, the columns of links lead to tables that are there, and an
edit that goes through has found everything that it names. -/
structure Group.InBounds (g : Group) : Prop where
  tables : ∀ key t, g.table? key = some t → t.InBounds
  targets : ∀ (key : TableKey) (t : Table) (i : Nat) (c : Column), g.table? key = some t →
    t.columns[i]? = some c → c.type.isLinkLike = true →
      ∃ (into : Nat) (u : Table), c.target? = some into ∧ g.table? into = some u
  edits : ∀ e made, (g.edit e).1 = .ok made → e.InBounds g

theorem Group.WellFormed.inBounds {g : Group} (h : g.WellFormed) : g.InBounds where
  tables key t ht := (h.tables key t ht).inBounds
  targets _ _ _ _ ht hc hlink := h.target_of_linkLike ht hc hlink
  edits _ _ := h.edit_inBounds

/-- Only a fault of the library is reported as fatal. -/
theorem Error.kind_of_faultless {e : Error} (h : e.isFault = false) (operation : String) :
    (e.atBoundary operation).kind ≠ .fatalError := by
  cases e with
  | internal reason | panicked reason => simp [isFault] at h
  | _ => exact BoundaryError.Kind.noConfusion

namespace Service

/-- The handles lead to objects, those of rows and lists to rows that are there. The edits that
the session comes to are of things that are there, so are the links that it reads from lists and
the objects that it takes handles to, and what it writes is based on the latest version. -/
structure SessionInBounds (s : Service) (session : Session) : Prop where
  tables : session.tables.InBounds
  rows : session.rows.InBounds
  queries : session.queries.InBounds
  views : session.views.InBounds
  lists : session.lists.InBounds
  rowFound : ∀ h t i, session.row h = .ok (t, i) → i < t.size
  listFound : ∀ h t column i, session.linkList h = .ok (t, column, i) → i < t.size
  edits : ∀ c e g, session.plan c = .ok (.edit e) → session.context.group = .ok g → e.Placed g
  links : ∀ h position n,
    session.plan (.linkListTarget h position) = .ok (.read (.ok (.number n))) →
    ∃ t column row targets, session.linkList h = .ok (t, column, row) ∧
      t.cell? column row = some (.linkList targets) ∧ targets[position.toNat]? = some n
  items : ∀ c item, session.plan c = .ok (.keep (.ok item)) →
    ∃ g, session.context.group = .ok g ∧ (g.sight? item.subject).isSome
  base : ∀ v g, session.context.state = .writing v g → v = s.database.store.latest

/-- All that sessions see and all that is kept stays within bounds. -/
structure InBounds (s : Service) : Prop where
  envelopes : s.database.envelopes.InBounds
  kept : ∀ v g, s.database.store.snapshot v = .ok g → g.InBounds
  seen : ∀ n session g, s.sessions.get? n = some session → session.context.group = .ok g →
    g.InBounds
  sessions : ∀ n session, s.sessions.get? n = some session → s.SessionInBounds session

/-- The next call, whichever it is, does not fail for a fault of the library, and an envelope
that was checked and a result that was asked for turn out to be of the kind they should be. What is
still reported as fatal is the panic of a sort, of a view with rows that are gone. -/
structure Trusty (s : Service) : Prop where
  faultless : ∀ n c e s', s.call n c = some (.error e, s') → ∀ reason, e ≠ .internal reason
  fatal : ∀ n c e s', s.call n c = some (.error e, s') →
    (e.atBoundary c.name).kind = .fatalError → (e.atBoundary c.name).code = "Panic" ∧
      ∃ session reason, s.sessions.get? n = some session ∧ e = .panicked reason ∧
        session.Panics c reason
  checked : ∀ n session kind e, s.sessions.get? n = some session →
    (s.workspace session).connection.checkEnvelope kind e = .ok () → e.payload.kind = kind
  thawed : ∀ n session kind e p c, s.sessions.get? n = some session →
    Connection.importAs kind e (s.workspace session).connection = .ok p c →
      p = e.payload ∧ p.kind = kind
  answered : ∀ n h request out s', s.call n (.run h request) = some (.ok out, s') →
    ∃ x, out.reply = .result x ∧ x.shape = request.shape

variable {settings : Settings} {s : Service} {b : Notebook} {n : Nat} {session : Session}

theorem Reachable.group_wellFormed (h : Reachable settings s b)
    (hs : s.sessions.get? n = some session) {g : Group} (hg : session.context.group = .ok g) :
    g.WellFormed ∧ g.Numbered :=
  ⟨(h.kept.sound.visible (world_context? hs) hg).1 ▸ h.wellFormed.visible n session.context,
    h.kept.numbered hs g hg⟩

theorem Reachable.snapshot_wellFormed (h : Reachable settings s b) {v : Version} {g : Group}
    (hv : s.database.store.snapshot v = .ok g) : g.WellFormed := by
  have hnth := h.kept.sound.store.snapshot (Store.snapshot_eq_ok.mp hv)
  obtain ⟨E, hE, rfl⟩ := List.mem_map.mp (Version.nth?_mem hnth)
  exact h.wellFormed.versions E hE

theorem Reachable.session_inBounds (h : Reachable settings s b)
    (hs : s.sessions.get? n = some session) : s.SessionInBounds session := by
  have hstocked := h.kept.stocked n session hs
  have hgroup : ∀ g, session.context.group = .ok g → g.WellFormed ∧ g.Numbered :=
    fun g hg => h.group_wellFormed hs hg
  exact {
    tables := hstocked.tables.inBounds
    rows := hstocked.rows.inBounds
    queries := hstocked.queries.inBounds
    views := hstocked.views.inBounds
    lists := hstocked.lists.inBounds
    rowFound := fun _ _ _ hr => (Session.row_seen (fun g hg => (hgroup g hg).2) hr).1
    listFound := fun _ _ _ _ hr => (Session.linkList_seen (fun g hg => (hgroup g hg).2) hr).1
    edits := fun c e g hp hg => (Session.plan_orderly hgroup (fun _ _ => trivial)
      (fun _ _ => trivial)).sure (.edit e) hp g hg
    links := fun h position n hp => Session.plan_linkListTarget hgroup hp
    items := fun c item hp => Session.plan_sends (w := s.workspace session)
      (fun g hg => (hgroup g hg).2) c _ hp item rfl
    base := fun v g hstate =>
      (h.kept.sound.publishable (world_context? hs) v g hstate).2.1 }

theorem Reachable.faults (h : Reachable settings s b) {c : Call} {e : Error} {s' : Service}
    (hc : s.call n c = some (.error e, s')) : e.isFault = false ∨ ∃ session reason,
      s.sessions.get? n = some session ∧ e = .panicked reason ∧ session.Panics c reason := by
  obtain ⟨session, hs⟩ := session_of_call hc
  obtain ⟨w', hw, -⟩ := call_eq_error hs hc
  have hfaults := Workspace.call_faults (w := s.workspace session)
    (fun g hg => h.group_wellFormed hs hg) (h.kept.sound.publishable (world_context? hs)) c e w' hw
  exact hfaults.imp_right fun ⟨reason, he, hpanics⟩ => ⟨session, reason, hs, he, hpanics⟩

theorem Reachable.trusty (h : Reachable settings s b) : s.Trusty where
  faultless n c e s' hc reason := by
    rintro rfl
    rcases h.faults hc with hfault | ⟨_, _, -, he, -⟩
    · simp [Error.isFault] at hfault
    · exact nomatch he
  fatal n c e s' hc hfatal := by
    rcases h.faults hc with hfault | ⟨session, reason, hs, rfl, hpanics⟩
    · exact absurd hfatal (Error.kind_of_faultless hfault c.name)
    · exact ⟨rfl, session, reason, hs, rfl, hpanics⟩
  checked _ _ _ _ _ hcheck := Connection.checkEnvelope_eq_ok hcheck
  thawed n session kind e p c hs hp := by
    obtain ⟨rfl, hkind, -⟩ := Connection.importAs_run_ok hp
    exact ⟨rfl, hkind⟩
  answered n h' request out s' hc := by
    obtain ⟨session, hs⟩ := session_of_call hc
    obtain ⟨w', hw, -⟩ := call_eq_ok hs hc
    exact Workspace.call_run_shape hw

/-- Whatever calls any sessions have made, with whatever arguments and handles, all that the
service goes to by its position is there, the next call does not fail for a fault of the
library, and what was checked to be of a kind turns out to be of it. -/
theorem Reachable.inBounds_and_trusty (h : Reachable settings s b) : s.InBounds ∧ s.Trusty := by
  refine ⟨⟨h.kept.envelopes.inBounds, fun v g hv => ?_, fun n session g hs hg => ?_,
    fun n session hs => h.session_inBounds hs⟩, h.trusty⟩
  · exact (h.snapshot_wellFormed hv).inBounds
  · exact (h.group_wellFormed hs hg).1.inBounds

/-- A list of links shrinks with the table that it leads to, and so does what may be asked of it. -/
theorem list_shrunk_within_bounds : ∃ s b s', Reachable {} s b ∧ s.InBounds ∧ s.Trusty ∧
    (s.call 1 (.linkListTarget 0x500000100000000 0)).map (·.1) = some (.ok ⟨.number 0, none⟩) ∧
    s.call 1 (.linkListTarget 0x500000100000000 1) =
      some (.error (.rowOutOfRange 1 1 false), s') := by
  have h := unused_reachable [.openSession 1, .call 1 (.transact .beginWrite),
    .call 1 (.addTable "town"), .call 1 (.addTable "road"),
    .call 1 (.addLinkColumn 0x100000100000001 .linkList "ends" 0x100000100000000),
    .call 1 (.addEmptyRow 0x100000100000000), .call 1 (.addEmptyRow 0x100000100000000),
    .call 1 (.addEmptyRow 0x100000100000001),
    .call 1 (.getLinkList 0x100000100000001 0 0),
    .call 1 (.linkListAdd 0x500000100000000 0), .call 1 (.linkListAdd 0x500000100000000 1),
    .call 1 (.removeRow 0x100000100000000 0)]
  obtain ⟨hbounds, htrusty⟩ := h.inBounds_and_trusty
  exact ⟨_, _, _, h, hbounds, htrusty, rfl, rfl⟩

end Service
end SnapshotStore
