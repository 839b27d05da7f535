import SnapshotStore.Proofs.Changes
import SnapshotStore.Proofs.Connection.Advance
import SnapshotStore.Proofs.Isolation
import SnapshotStore.Proofs.Service.Target

/-!
Reports. A context that moves its read on, or turns it into a write, is told which tables have
been removed or reshaped on the way. The report is collected from the change log and agrees
with the snapshots at the two ends, so queries and views go on after the move exactly where it
does not invalidate their tables.
-/

namespace SnapshotStore

/-- The report invalidates those tables of the one group that the other does not have, or has
at another schema epoch. -/
def Advance.Agrees (a : Advance) (g g' : Group) : Prop :=
  ∀ key t, g.table? key = some t →
    (a.invalidates key ↔ ¬∃ t', g'.table? key = some t' ∧ t'.schemaEpoch = t.schemaEpoch)

/-- The report is about two versions of the chronicle, of which the context has read the one
and goes on with the other. -/
def Chronicle.Reports (ch : Chronicle) (c : Context) (a : Advance) (c' : Context) : Prop :=
  ∃ g g', c.state = .reading a.before g ∧
    (c'.state = .reading a.after g' ∨
      c'.state = .writing a.after { g' with revision := a.after + 1 }) ∧
    Version.nth? ch.groups a.before = some g ∧ Version.nth? ch.groups a.after = some g' ∧
    a.Agrees g g'

/-! Reports and versions -/

theorem Chronicle.Sound.agrees {ch : Chronicle} (h : ch.Sound) {a : Advance} {g g' : Group}
    {s : Store} {l : Ledger} (hs : Store.Exact s l) (hl : l.groups = ch.groups)
    {changes : List Changeset} (hchanges : s.changesBetween a.before a.after = .ok changes)
    (hcollect : a.changes = .collect changes) (hg : Version.nth? ch.groups a.before = some g)
    (hg' : Version.nth? ch.groups a.after = some g') : a.Agrees g g' := by
  intro key t ht
  have hkeeps := h.invalidates_iff hs hl hchanges (Store.changesBetween_le hchanges) hg
    (Group.keeps_iff.mpr ⟨t, ht, rfl⟩) hg'
  rw [Advance.invalidates, hcollect, hkeeps, Group.keeps_iff]

namespace World.Sound
variable {settings : Settings} {w : World} {ch : Chronicle} {n : Nat} {c : Context}
  {c' : Connection} {a : Advance} {g g' : Group}

theorem reports (hw : Sound settings w ch) (hc : w.context? n = some c)
    (h : Connection.Advances ⟨w.store, c⟩ a c' g g') :
    Version.nth? ch.groups a.before = some g ∧ Version.nth? ch.groups a.after = some g' ∧
      a.Agrees g g' := by
  have hg := hw.committed hc h.leaves
  rcases h.log with ⟨ha, rfl⟩ | ⟨changes, hchanges, hcollect, hget⟩
  · refine ⟨hg, by rw [ha]; exact hg, fun key t ht => ?_⟩
    rw [ha]
    simp [Advance.invalidates, ChangeSummary.invalidates, ChangeSummary.empty, ht]
  · have hg' := hw.store.snapshot hget
    obtain ⟨l, hl, hgroups⟩ := hw.store.exact
    exact ⟨hg, hg', hw.chronicle.agrees hl hgroups hchanges hcollect hg hg'⟩

end World.Sound

/-! Queries and views -/

theorem Bound.resolve_of_suits {α : Type} [Anchored α] {b : Bound α} {c : Context} {g : Group}
    {t : Table} (hin : c.isInTransaction) (hepoch : b.epoch = c.epoch) (hg : c.group = .ok g)
    (ht : g.table? (Anchored.table b.object) = some t) (hs : Anchored.suits b.object t) :
    b.resolve c = .ok t := by
  simp [resolve, hin, hepoch, hg, bind, Except.bind, ht, hs, pure, Except.pure]

namespace Session
variable {α : Type} [Anchored α] {s : Session} {arena : Arena (Bound α)} {raw : UInt64} {x : α}
  {t : Table} {store : Store} {a : Advance} {c' : Connection} {g g' : Group}

/-- What is attached before a move stays attached unless its table is invalidated, given that
it suits a table as long as that has the same columns. -/
theorem lookUp_of_advances (h : Connection.Advances ⟨store, s.context⟩ a c' g g')
    (ha : a.Agrees g g') (hl : s.lookUp arena raw = .ok (x, t))
    (hsuits : ∀ t', g'.table? (Anchored.table x) = some t' →
      (Anchored.suits x t' ↔ t'.schemaEpoch = t.schemaEpoch)) :
    (∃ t', ({ s with context := c'.context } : Session).lookUp arena raw = .ok (x, t')) ↔
      ¬a.invalidates (Anchored.table x) := by
  obtain ⟨b, hb, rfl, hr⟩ := lookUp_eq_ok hl
  obtain ⟨-, hepoch, g₀, hg₀, ht, -⟩ := Bound.resolve_eq_ok hr
  obtain rfl := Except.ok.inj (hg₀.symm.trans (Context.group_of_reading h.leaves))
  obtain ⟨hin, f, hf, htables⟩ := h.group
  rw [ha _ t ht, Classical.not_not]
  constructor
  · rintro ⟨t', hl'⟩
    obtain ⟨b', hb', hobject, hr'⟩ := lookUp_eq_ok hl'
    obtain rfl := Except.ok.inj (hb.symm.trans hb')
    obtain ⟨-, -, f', hf', ht', hs⟩ := Bound.resolve_eq_ok hr'
    obtain rfl := Except.ok.inj (hf.symm.trans hf')
    rw [htables] at ht'
    exact ⟨t', ht', (hsuits t' ht').mp hs⟩
  · rintro ⟨t', ht', he⟩
    have hresolve : b.resolve c'.context = .ok t' :=
      Bound.resolve_of_suits hin (hepoch.trans h.epoch.symm) hf ((htables _).trans ht')
        ((hsuits t' ht').mpr he)
    refine ⟨t', ?_⟩
    simp only [lookUp, hb, bind, Except.bind, hresolve]
    rfl

theorem query_of_advances (h : Connection.Advances ⟨store, s.context⟩ a c' g g')
    (ha : a.Agrees g g') {q : Query} (hq : s.query raw = .ok (q, t)) :
    (∃ t', ({ s with context := c'.context } : Session).query raw = .ok (q, t')) ↔
      ¬a.invalidates q.table := by
  obtain ⟨b, -, hb, hr⟩ := lookUp_eq_ok hq
  obtain ⟨-, -, -, -, -, hs⟩ := Bound.resolve_eq_ok hr
  have he : t.schemaEpoch = q.schemaEpoch := of_decide_eq_true (hb ▸ hs)
  exact lookUp_of_advances h ha hq fun t' _ => by simp [Anchored.suits, he]

theorem view_of_advances (h : Connection.Advances ⟨store, s.context⟩ a c' g g')
    (ha : a.Agrees g g') (hn : g'.Numbered) {v : View} (hv : s.view raw = .ok (v, t)) :
    (∃ t', ({ s with context := c'.context } : Session).view raw = .ok (v, t')) ↔
      ¬a.invalidates v.table := by
  obtain ⟨b, -, hb, hr⟩ := lookUp_eq_ok hv
  obtain ⟨-, -, -, -, -, hs⟩ := Bound.resolve_eq_ok hr
  rw [hb] at hs
  simp only [Anchored.suits, View.isAttached, Bool.and_eq_true, decide_eq_true_eq] at hs
  refine lookUp_of_advances h ha hv fun t' ht' => ?_
  have hkey : t'.key = v.table := (hn.tables _ t' ht').1.key
  simp [Anchored.suits, View.isAttached, hkey, hs.2]

end Session

theorem World.Sound.answers {settings : Settings} {w : World} {ch : Chronicle} {n : Nat}
    {c : Context} {t : Transition} {a : Advance} {c' : Connection} (hw : Sound settings w ch)
    (hc : w.context? n = some c) (h : t.perform ⟨w.store, c⟩ = .ok (.advanced a) c') :
    ch.Reports c a c'.context := by
  obtain ⟨g, g', hadvances⟩ := Connection.perform_advances h
  exact ⟨g, g', hadvances.leaves, hadvances.arrives, hw.reports hc hadvances⟩

namespace Service
variable {settings : Settings} {s : Service} {b : Notebook} {n : Nat} {session : Session}
  {t : Transition} {a : Advance} {c' : Connection}

theorem transact_advanced (hs : s.sessions.get? n = some session)
    (h : t.perform (s.workspace session).counted.connection = .ok (.advanced a) c') :
    ∃ detail?, s.call n (.transact t) = some (.ok ⟨.version a.after, detail?⟩,
      s.turned n ((s.workspace session).counted.withConnection c')) := by
  have hcall := Workspace.call_transact_ok h
  obtain ⟨detail?, hdetail⟩ : ∃ detail?,
      Transition.Answer.outcome t (.advanced a) = ⟨.version a.after, detail?⟩ := by
    cases t <;> exact ⟨_, rfl⟩
  refine ⟨detail?, ?_⟩
  rw [workspace] at hcall
  simp only [call, hs, Option.map_some, hcall, hdetail]
  rfl

/-- What a session still has after its context has moved on. -/
theorem Kept.reports (hk : Kept settings s b) (hs : s.sessions.get? n = some session)
    (h : t.perform (s.workspace session).counted.connection = .ok (.advanced a) c') :
    b.chronicle.Reports session.context a c'.context ∧
    (∀ raw q table, session.query raw = .ok (q, table) →
      ((∃ table', ({ session with context := c'.context } : Session).query raw =
        .ok (q, table')) ↔ ¬a.invalidates q.table)) ∧
    ∀ raw v table, session.view raw = .ok (v, table) →
      ((∃ table', ({ session with context := c'.context } : Session).view raw =
        .ok (v, table')) ↔ ¬a.invalidates v.table) := by
  have hc := world_context? hs
  have hcounted : World.Sound settings
      (s.world.set n s.database.store.recordCall (some session.context)) b.chronicle :=
    hk.sound.act hc (.count ⟨s.world.store, session.context⟩)
  have hc' := World.set_context?_self s.world n s.database.store.recordCall (some session.context)
  obtain ⟨g, g', hadvances⟩ := Connection.perform_advances h
  obtain ⟨hg, hg', hagrees⟩ := hcounted.reports hc' hadvances
  refine ⟨⟨g, g', hadvances.leaves, hadvances.arrives, hg, hg', hagrees⟩, ?_, ?_⟩
  · exact fun raw q table hq => Session.query_of_advances hadvances hagrees hq
  · exact fun raw v table hv =>
      Session.view_of_advances hadvances hagrees (hk.sound.chronicle.numbered hg') hv

/-- The change log agrees with the snapshots. Whenever a context moves its read on or turns it
into a write, the report invalidates those tables of the version before that the version after
does not have with the same columns; in a session just the queries and views of these tables
get detached. -/
theorem reports_agree (settings : Settings) :
    (∀ w ch, World.Reachable settings w ch → ∀ n c (t : Transition) a c',
      w.context? n = some c → t.perform ⟨w.store, c⟩ = .ok (.advanced a) c' →
        ch.Reports c a c'.context) ∧
    ∀ s b, Reachable settings s b → ∀ n session (t : Transition) a c',
      s.sessions.get? n = some session →
      t.perform (s.workspace session).counted.connection = .ok (.advanced a) c' →
      ∃ detail? s' session', s.call n (.transact t) = some (.ok ⟨.version a.after, detail?⟩, s') ∧
        s'.sessions.get? n = some session' ∧
        b.chronicle.Reports session.context a session'.context ∧
        (∀ raw q table, session.query raw = .ok (q, table) →
          ((∃ table', session'.query raw = .ok (q, table')) ↔ ¬a.invalidates q.table)) ∧
        ∀ raw v table, session.view raw = .ok (v, table) →
          ((∃ table', session'.view raw = .ok (v, table')) ↔ ¬a.invalidates v.table) := by
  refine ⟨fun w ch hr n c t a c' hc h => hr.sound.answers hc h, ?_⟩
  intro s b hr n session t a c' hs h
  obtain ⟨detail?, hcall⟩ := transact_advanced hs h
  exact ⟨detail?, _, _, hcall, NatMap.get?_insert_self .., hr.kept.reports hs h⟩

/-- A reader of two tables moves on past a commit that has given one of them a column, and a
reader becomes a writer after one that has removed its table. -/
theorem reshaped_and_removed_reported :
    (∃ s b session a, ∃ session' : Session, Reachable {} s b ∧ s.sessions.get? 1 = some session ∧
      b.chronicle.Reports session.context a session'.context ∧
      a.invalidates 1 = true ∧ a.invalidates 2 = false ∧
      (∃ q table, session.query 0x300000100000000 = .ok (q, table) ∧
        ¬∃ table', session'.query 0x300000100000000 = .ok (q, table')) ∧
      ∃ v table, session.view 0x400000100000000 = .ok (v, table) ∧
        ∃ table', session'.view 0x400000100000000 = .ok (v, table')) ∧
    ∃ w ch c c' a, World.Reachable {} w ch ∧ w.context? 2 = some c ∧ ch.Reports c a c' ∧
      a.before = 2 ∧ a.after = 3 ∧ a.invalidates 1 = true := by
  constructor
  · have h := unused_reachable [.openSession 1, .openSession 2, .call 2 (.transact .beginWrite),
      .call 2 (.addTable "a"), .call 2 (.addTable "b"), .call 2 (.transact .commit),
      .call 1 (.transact (.beginRead none)), .call 1 (.getTable "a"), .call 1 (.getTable "b"),
      .call 1 (.whereTable 0x100000100000000), .call 1 (.whereTable 0x100000100000001),
      .call 1 (.queryFindAll 0x300000100000001 0 (-1) (-1)),
      .call 2 (.transact .beginWrite), .call 2 (.getTable "a"),
      .call 2 (.addColumn 0x100000100000002 .int "c" false), .call 2 (.transact .commit)]
    obtain ⟨-, -, session', -, -, hreports, hqueries, hviews⟩ :=
      (reports_agree {}).2 _ _ h 1 _ (.advance none) _ _ rfl rfl
    refine ⟨_, _, _, _, session', h, rfl, hreports, rfl, rfl, ⟨_, _, rfl, ?_⟩, _, _, rfl, ?_⟩
    · rw [hqueries 0x300000100000000 _ _ rfl]
      exact not_not_intro rfl
    · exact (hviews 0x400000100000000 _ _ rfl).mpr Bool.false_ne_true
  · have ho : Store.openNew "store" {} = .ok
        ⟨"store", {}, NatMap.empty.insert 1 .empty, ∅, ∅, 1, none, 1, {}⟩ := rfl
    have hkeyed : ∀ s, (Connections.new s).Keyed := fun s id c hc => by
      simp [Connections.new] at hc
    have hr := (Connections.run_reachable (hkeyed _) (World.Reachable.opened ho) [.connect,
      .connect, .transact 1 .beginWrite, .edit 1 (.addTable "a"), .transact 1 .commit,
      .transact 2 (.beginRead none), .transact 1 .beginWrite, .edit 1 (.removeTable 1),
      .transact 1 .commit]).2
    have hreports := (reports_agree {}).1 _ _ hr 2 _ .promote _ _ rfl rfl
    exact ⟨_, _, _, _, _, hr, rfl, hreports, rfl, rfl, rfl⟩

end Service
end SnapshotStore
