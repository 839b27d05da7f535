import SnapshotStore.Proofs.Service.Lasting
import SnapshotStore.Proofs.Service.Target

/-!
The schema guard. A query or a view is evaluated against the columns that its table had when
it was built, which its label tells, unless the columns were given up with the write in which
they came to be. A table whose columns are different makes every call on it fail as detached.
-/

namespace SnapshotStore

namespace Session

/-- The table that the query or the view of a handle is evaluated against. -/
inductive Against (s : Session) : HandleKind → UInt64 → Table → Prop
  | query {h : UInt64} {q : Query} {t : Table} (found : s.query h = .ok (q, t)) :
      Against s .query h t
  | view {h : UInt64} {v : View} {t : Table} (found : s.view h = .ok (v, t)) : Against s .view h t

/-- The calls that build a query or a view, and the table that they build it on. -/
inductive Builds (s : Session) : Call → HandleKind → Table → Prop
  | query {h : UInt64} {t : Table} (found : s.table h = .ok t) : Builds s (.whereTable h) .query t
  | view {h : UInt64} {start stop limit : Int} {q : Query} {t : Table}
      (found : s.query h = .ok (q, t)) : Builds s (.queryFindAll h start stop limit) .view t

/-- The handle names a query or a view on the table with the key, attached or not. -/
inductive Holds (s : Session) : HandleKind → UInt64 → TableKey → Prop
  | query {h : UInt64} {q : Bound Query} (found : s.queries.get h = .ok q) :
      Holds s .query h q.object.table
  | view {h : UInt64} {v : Bound View} (found : s.views.get h = .ok v) :
      Holds s .view h v.object.table

variable {s : Session} {kind : HandleKind} {h : UInt64} {t : Table} {x : Subject} {c : Call}
  {key : TableKey}

theorem Against.targets (ha : s.Against kind h t) :
    s.Targets kind h (.columns t.key t.schemaEpoch) := by
  cases ha with
  | query found => exact .query found
  | view found => exact .view found

theorem Against.seen (hn : ∀ g, s.context.group = .ok g → g.Numbered) (ha : s.Against kind h t) :
    ∃ g, s.context.group = .ok g ∧ g.table? t.key = some t := by
  cases ha with
  | query found => exact (lookUp_seen hn found).2
  | view found => exact (lookUp_seen hn found).2

theorem Targets.against (hx : s.Targets kind h x) (hkind : kind = .query ∨ kind = .view) :
    ∃ t, s.Against kind h t := by
  cases hx with
  | query found => exact ⟨_, .query found⟩
  | view found => exact ⟨_, .view found⟩
  | table found => simp at hkind
  | row found row => simp at hkind
  | linkList found row => simp at hkind

theorem Builds.names {d : Database} (hb : s.Builds c kind t) :
    (Workspace.mk d s).Names c kind (.columns t.key t.schemaEpoch) := by
  cases hb with
  | query found => exact .query found
  | view found => exact .view found

theorem Builds.plan {operation : Operation} (hb : s.Builds c kind t)
    (hp : s.plan c = .ok operation) : ∃ found, operation = .keep found := by
  cases hb with
  | query found =>
      simp only [Session.plan, bind_eq_ok, pure_eq_ok] at hp
      obtain ⟨_, -, rfl⟩ := hp
      exact ⟨_, rfl⟩
  | view found =>
      simp only [Session.plan, bind_eq_ok, pure_eq_ok] at hp
      obtain ⟨_, -, _, -, rfl⟩ := hp
      exact ⟨_, rfl⟩

theorem Builds.seen (hn : ∀ g, s.context.group = .ok g → g.Numbered) (hb : s.Builds c kind t) :
    ∃ g, s.context.group = .ok g ∧ g.table? t.key = some t := by
  cases hb with
  | query found => exact table_seen hn found
  | view found => exact (lookUp_seen hn found).2

/-! Refusals -/

theorem lookUp_eq_error {α : Type} [Anchored α] {a : Arena (Bound α)} {b : Bound α} {e : Error}
    (hb : a.get h = .ok b) (hl : s.lookUp a h = .error e) :
    e = .detached (Anchored.kind α).name := by
  cases hr : b.resolve s.context with
  | ok t => simp [lookUp, hb, hr, bind, Except.bind, pure, Except.pure] at hl
  | error e' =>
      have he : e' = e := by simpa [lookUp, hb, hr, bind, Except.bind] using hl
      exact he ▸ Bound.resolve_eq_error hr

/-- A query or a view that is held is attached to its table, or every call on it fails. -/
theorem Holds.against_or_detached (hh : s.Holds kind h key) (hc : c.target? = some (kind, h)) :
    (∃ t, s.Against kind h t) ∨ s.plan c = .error (.detached kind.name) := by
  cases hh with
  | query found =>
      cases hq : s.query h with
      | ok r => exact .inl ⟨r.2, .query hq⟩
      | error e =>
          obtain rfl := lookUp_eq_error found hq
          exact .inr (plan_eq_error hc (map_eq_error.mpr hq))
  | view found =>
      cases hv : s.view h with
      | ok r => exact .inl ⟨r.2, .view hv⟩
      | error e =>
          obtain rfl := lookUp_eq_error found hv
          exact .inr (plan_eq_error hc (map_eq_error.mpr hv))

theorem Holds.key_eq (hn : ∀ g, s.context.group = .ok g → g.Numbered) (hh : s.Holds kind h key)
    (ha : s.Against kind h t) : t.key = key := by
  cases hh with
  | query found =>
      cases ha with
      | query hq =>
          obtain ⟨b, hb, rfl, -⟩ := lookUp_eq_ok hq
          obtain rfl := Except.ok.inj (found.symm.trans hb)
          exact (lookUp_seen hn hq).1
  | view found =>
      cases ha with
      | view hv =>
          obtain ⟨b, hb, rfl, -⟩ := lookUp_eq_ok hv
          obtain rfl := Except.ok.inj (found.symm.trans hb)
          exact (lookUp_seen hn hv).1

end Session

namespace Service

/-- Queries and views are guarded against other columns than those they were built on. -/
structure Guarded (s : Service) (b : Notebook) : Prop where
  /-- The label of a query or a view that was just built tells the columns of its table. -/
  built : ∀ n session c kind t out s', s.sessions.get? n = some session →
    session.Builds c kind t → s.call n c = some (.ok out, s') →
      ∃ raw slot generation, out.reply = .handle raw ∧
        raw = (Handle.ofParts kind slot generation).encode ∧
        ((s.observe b (.call n c)).label n kind slot).sight? = some (.columns t.columns) ∧
        ((s.observe b (.call n c)).label n kind slot).lost = false
  /-- What a session goes on holding has the same columns on its label, and is not given up
  unless the session gives up a write. -/
  carried : ∀ n session m session' kind slot, s.sessions.get? n = some session → ¬m.Ends n →
    (s.make m).sessions.get? n = some session' → kind ≠ .envelope →
      ((s.workspace session).shelf kind).keeps (((s.make m).workspace session').shelf kind) slot →
        (b.label n kind slot).Ages (m.Spares n) ((s.observe b m).label n kind slot)
  /-- The label goes along with a query or a view into an envelope, and stays on it. -/
  exported : ∀ n session kind h policy out s', s.sessions.get? n = some session →
    s.call n (.exportObject kind h policy) = some (.ok out, s') →
      ∃ k slot generation, Handle.decode? h = some k ∧
        out.reply = .handle (Handle.ofParts .envelope slot generation).encode ∧
        (s.observe b (.call n (.exportObject kind h policy))).envelopes slot =
          b.label n (Workspace.handleKind kind) k.slot
  enveloped : ∀ m slot, s.database.envelopes.shelf.keeps (s.make m).database.envelopes.shelf slot →
    (s.observe b m).envelopes slot = b.envelopes slot
  /-- It comes out of the envelope with the query or the view. -/
  imported : ∀ n session kind h out s', s.sessions.get? n = some session → kind ≠ .row →
    s.call n (.importObject kind h) = some (.ok out, s') →
      ∃ k slot generation, Handle.decode? h = some k ∧
        out.reply = .handle (Handle.ofParts (Workspace.handleKind kind) slot generation).encode ∧
        (s.observe b (.call n (.importObject kind h))).label n (Workspace.handleKind kind) slot =
          b.envelopes k.slot
  /-- Whatever a call on a query or a view succeeds against has the columns on the label. If
  they were given up, it has a schema epoch that was given out after the label was written. -/
  evaluated : ∀ n session c kind h out s', s.sessions.get? n = some session →
    c.target? = some (kind, h) → kind = .query ∨ kind = .view →
      s.call n c = some (.ok out, s') → ∃ t l, session.Against kind h t ∧ b.label? n h = some l ∧
        (l.lost = false → l.sight? = some (.columns t.columns)) ∧
        (l.lost = true → l.issued ≤ (b.edition n session).births (.columns t.key t.schemaEpoch))
  /-- A table with other columns makes the call fail and leaves the service as it is. -/
  refused : ∀ n session c kind h key l, s.sessions.get? n = some session →
    c.target? = some (kind, h) → session.Holds kind h key → b.label? n h = some l →
      l.lost = false → (∀ g t, session.context.group = .ok g → g.table? key = some t →
        l.sight? ≠ some (.columns t.columns)) →
      s.call n c = some (.error (.detached kind.name), s)

variable {settings : Settings} {s : Service} {b : Notebook} {n : Nat} {session : Session}
  {c : Call} {kind : HandleKind} {h : UInt64} {t : Table} {out : Outcome} {s' : Service}

/-- What the label of a query or a view tells of the table that it is evaluated against. -/
theorem Kept.against (hk : Kept settings s b) (hs : s.sessions.get? n = some session)
    (ha : session.Against kind h t) : ∃ l, b.label? n h = some l ∧
      (l.lost = false → l.sight? = some (.columns t.columns)) ∧
      (l.lost = true → l.issued ≤ (b.edition n session).births (.columns t.key t.schemaEpoch)) := by
  have hn := fun g => hk.numbered hs g
  obtain ⟨k, o, g, hm⟩ := Workspace.meets_of_targets (w := s.workspace session)
    (hk.stocked n session hs) hn ha.targets
  obtain ⟨g', hg', ht⟩ := ha.seen hn
  obtain rfl := Except.ok.inj (hm.group.symm.trans hg')
  have hkind : kind ≠ .envelope := by
    rintro rfl
    nomatch ha
  obtain ⟨hsubject, -, htells⟩ := hk.meets hs hm hkind (Group.sight?_columns ht)
  refine ⟨_, by rw [Notebook.label?, hm.decode, Option.map_some, hm.ofKind], ?_, ?_⟩
  · intro hl
    rw [Label.Tells, hl] at htells
    exact htells.2
  · intro hl
    rw [Label.Tells, hl] at htells
    exact hsubject ▸ htells

/-- The table that a query or a view was just built on is still there. -/
theorem Kept.built_sight (hk : Kept settings s b) (hs : s.sessions.get? n = some session)
    (hb : session.Builds c kind t) (hc : s.call n c = some (.ok out, s')) {session' : Session}
    (hs' : s'.sessions.get? n = some session') :
    ((s.observe b (.call n c)).edition n session').group.sight? (.columns t.key t.schemaEpoch) =
      some (.columns t.columns) := by
  have hn := fun g => hk.numbered hs g
  obtain ⟨g, hg, ht⟩ := hb.seen hn
  obtain ⟨w', hw, -, hmake, hs''⟩ := call_eq_ok hs hc
  obtain ⟨operation, hplan, -⟩ := Workspace.call_ok_iff.mp hw
  obtain ⟨found, rfl⟩ := hb.plan hplan
  obtain ⟨-, hcontext, -⟩ := Workspace.call_keeps (hk.stocked n session hs) hn hplan hw
  -- The call leaves the context alone, so the new session sees the same group.
  obtain rfl := Option.some.inj (hs'.symm.trans hs'')
  have hk' := hmake ▸ hk.call n c
  have hg' : w'.session.context.group = .ok g := (congrArg Context.group hcontext).trans hg
  obtain ⟨hvisible, -⟩ := hk'.sound.visible (world_context? hs') hg'
  exact (congrArg (Group.sight? · _) hvisible).trans (Group.sight?_columns ht)

theorem Kept.built (hk : Kept settings s b) (hs : s.sessions.get? n = some session)
    (hb : session.Builds c kind t) (hc : s.call n c = some (.ok out, s')) :
    ∃ raw slot generation, out.reply = .handle raw ∧
      raw = (Handle.ofParts kind slot generation).encode ∧
      ((s.observe b (.call n c)).label n kind slot).sight? = some (.columns t.columns) ∧
      ((s.observe b (.call n c)).label n kind slot).lost = false := by
  obtain ⟨raw, slot, o, session', hreply, hraw, hs', -, hlabel⟩ := hk.issue hs hb.names hc
  refine ⟨raw, slot, o.generation, hreply, hraw, ?_, by rw [hlabel]; rfl⟩
  rw [hlabel]
  exact hk.built_sight hs hb hc hs'

theorem Kept.carried (hk : Kept settings s b) (hs : s.sessions.get? n = some session) {m : Move}
    (hm : ¬m.Ends n) {session' : Session} (hs' : (s.make m).sessions.get? n = some session')
    (hkind : kind ≠ .envelope) {slot : Nat} (hkeeps : ((s.workspace session).shelf kind).keeps
      (((s.make m).workspace session').shelf kind) slot) :
    (b.label n kind slot).Ages (m.Spares n) ((s.observe b m).label n kind slot) := by
  simp only [Shelf.keeps, Bool.and_eq_true, decide_eq_true_eq] at hkeeps
  obtain ⟨hheld, hgen⟩ := hkeeps
  obtain ⟨o, ho⟩ := Option.isSome_iff_exists.mp hheld
  rcases hk.stays hs hm hs' hkind ho with ⟨-, hages⟩ | hne
  · exact hages
  · exact absurd hgen hne

theorem Kept.enveloped (hk : Kept settings s b) {m : Move} {slot : Nat}
    (hkeeps : s.database.envelopes.shelf.keeps (s.make m).database.envelopes.shelf slot) :
    (s.observe b m).envelopes slot = b.envelopes slot := by
  cases m with
  | openSession n => rfl
  | closeSession n => rfl
  | call n c =>
      cases hs : s.sessions.get? n with
      | none => simp only [observe, hs]
      | some session =>
          obtain ⟨w', -, hmake, hobserve⟩ := hk.call_turns hs c
          rw [hmake] at hkeeps
          rw [hobserve]
          exact Notebook.pick_kept hkeeps

theorem Kept.exported (hk : Kept settings s b) (hs : s.sessions.get? n = some session)
    {p : PayloadKind} {policy : HandoverPolicy}
    (hc : s.call n (.exportObject p h policy) = some (.ok out, s')) :
    ∃ k slot generation, Handle.decode? h = some k ∧
      out.reply = .handle (Handle.ofParts .envelope slot generation).encode ∧
      (s.observe b (.call n (.exportObject p h policy))).envelopes slot =
        b.label n (Workspace.handleKind p) k.slot := by
  obtain ⟨w', hw, -⟩ := call_eq_ok hs hc
  obtain ⟨k, x, raw, hdecode, hsource, hreply, hissues⟩ :=
    Workspace.call_export (hk.stocked n session hs) (fun g => hk.numbered hs g) hw
  obtain ⟨slot, o, rfl, -, hlabel⟩ := call_labels hs hw hissues
  refine ⟨k, slot, o.generation, hdecode, hreply, ?_⟩
  change (s.observe b _).label n .envelope slot = _
  rw [hlabel, hsource]
  exact b.note_label n _ _ fun hd => nomatch Workspace.deed_eq_retreat hd

theorem Kept.imported (hk : Kept settings s b) (hs : s.sessions.get? n = some session)
    {p : PayloadKind} (hp : p ≠ .row)
    (hc : s.call n (.importObject p h) = some (.ok out, s')) :
    ∃ k slot generation, Handle.decode? h = some k ∧
      out.reply = .handle (Handle.ofParts (Workspace.handleKind p) slot generation).encode ∧
      (s.observe b (.call n (.importObject p h))).label n (Workspace.handleKind p) slot =
        b.envelopes k.slot := by
  obtain ⟨w', hw, -⟩ := call_eq_ok hs hc
  obtain ⟨k, x, raw, hdecode, hsource, hreply, hissues⟩ :=
    Workspace.call_import (hk.stocked n session hs) hp hw
  obtain ⟨slot, o, rfl, -, hlabel⟩ := call_labels hs hw hissues
  refine ⟨k, slot, o.generation, hdecode, hreply, ?_⟩
  rw [hlabel, hsource]
  rfl

theorem Kept.refused (hk : Kept settings s b) (hs : s.sessions.get? n = some session)
    (hc : c.target? = some (kind, h)) {key : TableKey} (hh : session.Holds kind h key) {l : Label}
    (hl : b.label? n h = some l) (kept : l.lost = false)
    (differs : ∀ g t, session.context.group = .ok g → g.table? key = some t →
      l.sight? ≠ some (.columns t.columns)) :
    s.call n c = some (.error (.detached kind.name), s) := by
  rcases hh.against_or_detached hc with ⟨t, ha⟩ | hplan
  · -- It would be evaluated against the columns on the label.
    obtain ⟨l', hl', hsight, -⟩ := hk.against hs ha
    obtain rfl := Option.some.inj (hl.symm.trans hl')
    obtain ⟨g, hg, ht⟩ := ha.seen fun g => hk.numbered hs g
    exact absurd (hsight kept) (differs g t hg (hh.key_eq (fun g => hk.numbered hs g) ha ▸ ht))
  · exact call_unchanged_of_error hs (by simp only [Workspace.call, workspace, hplan])

theorem Kept.guarded (hk : Kept settings s b) : s.Guarded b where
  built _ _ _ _ _ _ _ hs hb hc := hk.built hs hb hc
  carried _ _ _ _ _ _ hs hm hs' hkind hkeeps := hk.carried hs hm hs' hkind hkeeps
  exported _ _ _ _ _ _ _ hs hc := hk.exported hs hc
  enveloped _ _ hkeeps := hk.enveloped hkeeps
  imported _ _ _ _ _ _ hs hp hc := hk.imported hs hp hc
  evaluated n session c kind h out s' hs ht hkind hc := by
    obtain ⟨w', hw, -⟩ := call_eq_ok hs hc
    obtain ⟨operation, hplan, -⟩ := Workspace.call_ok_iff.mp hw
    obtain ⟨x, hx⟩ := Session.plan_targets ht hplan
    obtain ⟨t, ha⟩ := hx.against hkind
    obtain ⟨l, hl⟩ := hk.against hs ha
    exact ⟨t, l, ha, hl⟩
  refused _ _ _ _ _ _ _ hs hc hh hl kept differs := hk.refused hs hc hh hl kept differs

/-- However sessions come, go and make calls, their queries and views are guarded. -/
theorem Reachable.schema_guard (h : Reachable settings s b) : s.Guarded b := h.kept.guarded

/-- A query goes on after a commit and is refused once its column is gone. -/
theorem guarded_until_column_removed : ∃ (s : Service) (b : Notebook), s.Guarded b ∧
    (s.call 1 (.queryCount 0x300000100000000 0 (-1) (-1))).map (·.1) =
      some (.ok ⟨.number 0, none⟩) ∧
    ((s.run b [.call 1 (.transact .promote), .call 1 (.removeColumn 0x100000100000000 0)]).1.call 1
      (.queryCount 0x300000100000000 0 (-1) (-1))).map (·.1) =
      some (.error (.detached "Query")) := by
  have h := unused_reachable [.openSession 1, .call 1 (.transact .beginWrite),
    .call 1 (.addTable "t"), .call 1 (.addColumn 0x100000100000000 .int "a" false),
    .call 1 (.whereTable 0x100000100000000), .call 1 (.transact .commitAndRead)]
  exact ⟨_, _, h.schema_guard, rfl, rfl⟩

/-- The exception. A view of a table with one column goes on with another column in its place:
the first was given up with its write, and its schema epoch was given out again. -/
theorem view_reads_another_column : ∃ s b s' b' session session' t t' v,
    Reachable {} s b ∧
    s.run b [.call 1 (.transact .rollbackAndRead), .call 1 (.transact .promote),
      .call 1 (.addColumn 0x100000100000000 .string "b" false)] = (s', b') ∧
    s.sessions.get? 1 = some session ∧ session.Against .view v t ∧
    t.columns.map (·.name) = ["a"] ∧
    (s.call 1 (.viewGet v 0 0)).map (·.1) = some (.ok ⟨.value (.int 0), none⟩) ∧
    s'.sessions.get? 1 = some session' ∧ session'.Against .view v t' ∧
    t'.columns.map (·.name) = ["b"] ∧
    (s'.call 1 (.viewGet v 0 0)).map (·.1) = some (.ok ⟨.value (.string ""), none⟩) := by
  have h := unused_reachable [.openSession 1, .call 1 (.transact .beginWrite),
    .call 1 (.addTable "t"), .call 1 (.addEmptyRow 0x100000100000000),
    .call 1 (.transact .commitAndRead), .call 1 (.transact .promote),
    .call 1 (.addColumn 0x100000100000000 .int "a" false),
    .call 1 (.whereTable 0x100000100000000),
    .call 1 (.queryFindAll 0x300000100000000 0 (-1) (-1))]
  exact ⟨_, _, _, _, _, _, _, _, 0x400000100000000, h, rfl, rfl, .view rfl, rfl, rfl, rfl,
    .view rfl, rfl, rfl⟩

end Service
end SnapshotStore
