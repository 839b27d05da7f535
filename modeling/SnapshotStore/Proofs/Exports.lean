import SnapshotStore.Proofs.Connection.Run
import SnapshotStore.Proofs.Resources

/-!
Queries that were exported. Wherever a worker stands when it runs one, it answers as the latest
version would, as long as the version of the export can still be had once the worker has ended
its own read. Only a worker that was the last to hold that version finds it gone.
-/

namespace SnapshotStore

/-! What time does not change -/

namespace Store

@[simp] theorem publish_id (s : Store) (g previous : Group) (keepPinned : Bool) :
    (s.publish g previous keepPinned).id = s.id := by
  cases keepPinned <;> rfl

@[simp] theorem releaseWriter_id (s : Store) (context : ContextId) :
    (s.releaseWriter context).id = s.id := by
  unfold releaseWriter
  split <;> rfl

end Store

theorem Connection.Step.store_id {c c' : Connection} {d : Deed} (h : Step c d c') :
    c'.store.id = c.store.id := by
  cases h with
  | stay | count | beginWrite | edit => rfl
  | beginRead idle pin =>
      obtain ⟨-, -, rfl⟩ := Store.pin_eq_ok pin
      rfl
  | endRead => exact Store.unpin_id _ _
  | advance reading later pin =>
      obtain ⟨-, -, rfl⟩ := Store.pin_eq_ok pin
      exact Store.unpin_id _ _
  | promote => exact Store.unpin_id _ _
  | commit writing commit | commitAndRead writing commit =>
      obtain ⟨-, -, -, previous, -, rfl⟩ := Store.commit_eq_ok commit
      simp
  | abandon => exact Store.releaseWriter_id _ _
  | rollbackAndRead writing pin =>
      obtain ⟨-, -, rfl⟩ := Store.pin_eq_ok pin
      exact Store.releaseWriter_id _ _

namespace World
variable {settings : Settings} {w w' : World} {ch ch' : Chronicle}

theorem Path.store_id (h : Path w ch w' ch') : w'.store.id = w.store.id := by
  induction h with
  | refl => rfl
  | step _ hs ih =>
      refine Eq.trans ?_ ih
      cases hs with
      | act live step => exact step.store_id
      | join | compact => rfl
      | leave live => exact Connection.close_id _

theorem Path.nth? (h : Path w ch w' ch') {v : Nat} {g : Group}
    (hg : Version.nth? ch.groups v = some g) : Version.nth? ch'.groups v = some g := by
  induction h with
  | refl => exact hg
  | step _ _ ih => exact Chronicle.note_group _ _ ih

/-- The envelope was filled by a context of the world, now or some time ago. -/
def Exported (settings : Settings) (w : World) (ch : Chronicle) (e : Envelope) : Prop :=
  ∃ w₀ ch₀ n c p policy, Reachable settings w₀ ch₀ ∧ w₀.context? n = some c ∧
    Connection.enclose ⟨w₀.store, c⟩ p policy = .ok e ∧ Path w₀ ch₀ w ch

namespace Exported
variable {e : Envelope}

theorem reachable (h : Exported settings w ch e) : Reachable settings w ch := by
  obtain ⟨w₀, ch₀, n, c, p, policy, hr, -, -, hp⟩ := h
  exact hr.path hp

/-- What is in the envelope suits the version on it, and goes on doing so. -/
theorem fits (h : Exported settings w ch e) : e.store = w.store.id ∧
    ∃ g, Version.nth? ch.groups e.version = some g ∧ e.payload.check g = .ok () := by
  obtain ⟨w₀, ch₀, n, c, p, policy, hr, hc, he, hp⟩ := h
  obtain ⟨v, g, hstate, hcheck, rfl⟩ := Connection.enclose_cases he
  exact ⟨hp.store_id.symm, g, hp.nth? (hr.sound.committed hc hstate), hcheck⟩

theorem genuine (h : Exported settings w ch e) {q : Query} (hq : e.payload = .query q) :
    e.Genuine ch w.store.id q := by
  obtain ⟨hstore, g, hg, hcheck⟩ := h.fits
  exact ⟨hstore, hq, g, hg, hq ▸ hcheck⟩

end Exported

theorem Sound.ready (h : Sound settings w ch) {c : Context} (hw : c.isWriting = false) :
    (Connection.mk w.store c).Ready ch :=
  ⟨h.chronicle, h.store.close.exact, hw⟩

/-- What a context puts into an envelope is exported, whatever moves follow. -/
theorem exported_of_runs {name : String} {s : Store} (h : Store.openNew name settings = .ok s)
    (before after : List Connections.Move) {cs : Connections} (id : ContextId) {c : Context}
    (p : Payload) (policy : HandoverPolicy) {e : Envelope}
    (hrun : Connections.run (.new s) .opened before = (cs, ch))
    (hc : cs.contexts.get? id = some c) (he : Connection.enclose ⟨cs.store, c⟩ p policy = .ok e) :
    Exported settings (Connections.run cs ch after).1.world (Connections.run cs ch after).2 e := by
  have hk : (Connections.new s).Keyed := fun id c hc => by simp [Connections.new] at hc
  have hw : (Connections.new s).world = ⟨s, fun _ => none⟩ := rfl
  obtain ⟨hkeyed, hr⟩ := Connections.run_reachable hk (hw ▸ Reachable.opened h) before
  rw [hrun] at hkeyed hr
  exact ⟨_, _, _, _, _, _, hr, hc, he, (Connections.run_path hkeyed hr after).2⟩

/-- A worker answers as the latest version does, whichever version the query was exported from,
if only that version can still be had once the worker has ended its own read. -/
theorem Exported.answered_by_latest {e : Envelope} {q : Query} {c : Context}
    (h : Exported settings w ch e) (hq : e.payload = .query q) (hw : c.isWriting = false)
    (kept : (Connection.mk w.store c).close.isRetained e.version) (r : Request) :
    ∃ g, w.store.snapshot w.store.latest = .ok g ∧
      (∀ v x, (∃ c', Connection.runQuery e r ⟨w.store, c⟩ = .ok (v, x) c') ↔
        v = w.store.latest ∧ ∃ t f, g.table? q.table = some t ∧ t.schemaEpoch = q.schemaEpoch ∧
          r.evaluateOn q t = .ok f ∧ x = f.response w.store.id w.store.latest t) ∧
      (∀ t error, g.table? q.table = some t → r.evaluateOn q t = .error error →
        ∃ c', Connection.runQuery e r ⟨w.store, c⟩ = .error error c') ∧
      (∀ (v : Nat) g', e.version < v → Version.nth? ch.groups v = some g' →
        ¬g'.keeps q.table q.schemaEpoch → ∃ name c',
          Connection.runQuery e r ⟨w.store, c⟩ = .error (.schemaChanged "Query" name) c') := by
  have hs := h.reachable.sound
  have he := h.genuine hq
  obtain ⟨g, hg⟩ := hs.store.latest_kept
  have hlatest := hs.store.snapshot hg
  rw [Store.isRetained, NatMap.contains_eq] at kept
  have hrun := Connection.runQuery_of_kept (hs.ready hw) he kept hlatest r
  refine ⟨g, Store.snapshot_eq_ok.mpr hg, ?_, ?_, ?_⟩
  · intro v x
    rw [hrun.ok_iff, map_eq_ok]
    constructor
    · rintro ⟨y, hy, hvx⟩
      obtain ⟨rfl, rfl⟩ := Prod.mk.inj hvx
      exact ⟨rfl, Request.answer_eq_ok.mp hy⟩
    · rintro ⟨rfl, hx⟩
      exact ⟨x, Request.answer_eq_ok.mpr hx, rfl⟩
  · intro t error ht herror
    refine (hrun.error_iff error).mpr (map_eq_error.mpr ?_)
    simp only [Request.answer, ht, herror]
    rfl
  · intro v g' hlt hg' hended
    obtain ⟨g₀, hg₀, hfits⟩ := he.fits
    have hle : v ≤ w.store.latest := hs.store.latest ▸ (Version.nth?_bounds hg').2
    have hkept := Payload.keeps_of_check hfits
    have hgone : ¬g.keeps q.table q.schemaEpoch := fun hk =>
      hended (hs.chronicle.keeps_between (Nat.le_of_lt hlt) hle hg₀ hg' hlatest hkept hk)
    have hanswer : r.answer q w.store.id w.store.latest g = .error _ :=
      Request.answer_of_not_keeps (hs.chronicle.numbered hlatest) hgone
    exact ⟨_, (hrun.error_iff _).mpr (map_eq_error.mpr hanswer)⟩

/-- A query over an empty table counts the row that was added since. -/
theorem row_added_since_counted : ∃ w ch e c, Exported {} w ch e ∧ w.context? 3 = some c ∧
    e.version = 2 ∧ ∃ c', Connection.runQuery e (.count 0 (-1) (-1)) ⟨w.store, c⟩ =
      .ok (3, .count 1) c' := by
  have ho : Store.openNew "store" {} = .ok _ := rfl
  have he := exported_of_runs ho
    [.connect, .connect, .connect, .transact 1 .beginWrite, .edit 1 (.addTable "t"),
      .transact 1 .commit, .transact 2 (.beginRead none)]
    [.transact 1 .beginWrite, .edit 1 (.addRow 1), .transact 1 .commit]
    2 (.query ⟨1, 0, .all⟩) .copy rfl rfl rfl
  obtain ⟨g, hg, hiff, -⟩ := he.answered_by_latest rfl (c := .new 3) rfl rfl (.count 0 (-1) (-1))
  obtain rfl := Except.ok.inj (hg.symm.trans rfl)
  exact ⟨_, _, _, .new 3, he, rfl, rfl,
    (hiff 3 (.count 1)).mpr ⟨rfl, _, .count 1, rfl, rfl, rfl, rfl⟩⟩

end World

/-! Versions that the worker gives up itself -/

namespace Connection
variable {c : Connection} {v : Version}

/-- Nothing keeps the version but the context's own read. -/
def KeepsAlone (c : Connection) (v : Version) : Prop :=
  c.context.reads v ∧ c.store.pinCount v = 1 ∧
    v + c.store.settings.historyRetention ≤ c.store.latest

/-- A kept version stays when a reader leaves, unless the reader was all that kept it. -/
theorem close_keeps_iff {l : Ledger} (hs : Store.Exact c.store l)
    (hw : c.context.isWriting = false) (hv : (c.store.snapshots.get? v).isSome) :
    (c.close.snapshots.get? v).isSome ↔ ¬c.KeepsAlone v := by
  unfold close
  cases hc : c.context.state with
  | idle =>
      refine iff_of_true hv fun halone => ?_
      have hreads := halone.1
      rw [Context.reads_of_idle hc] at hreads
      exact Bool.false_ne_true hreads
  | writing base g => simp [Context.isWriting, hc] at hw
  | reading w g =>
      have hlatest := hs.latest
      have hcount := hs.pinCount v
      obtain ⟨hpos, hle, hwanted⟩ := (hs.retained v).mp hv
      simp only [(hs.unpin w).retained, Store.unpin_latest, Store.unpin_settings, hpos, hle,
        true_and, KeepsAlone, Context.reads_of_reading hc, decide_eq_true_eq, Ledger.Wanted]
        at hwanted ⊢
      by_cases he : v = w
      · subst he
        rw [← List.count_pos_iff] at hwanted ⊢
        rw [List.count_erase_self]
        dsimp only [Version]
        omega
      · rw [List.mem_erase_of_ne he]
        exact iff_of_true hwanted fun halone => he halone.1

theorem close_of_keepsAlone {l : Ledger} (hs : Store.Exact c.store l)
    (hw : c.context.isWriting = false) (hv : (c.store.snapshots.get? v).isSome)
    (halone : c.KeepsAlone v) : c.close.snapshots.get? v = none := by
  rw [← Option.not_isSome_iff_eq_none, close_keeps_iff hs hw hv]
  exact not_not_intro halone

variable {ch : Chronicle}

theorem runQuery_missesVersion_iff (hc : c.Ready ch) {l : Ledger} (hs : Store.Exact c.store l)
    {gl : Group} (hgl : Version.nth? ch.groups c.store.latest = some gl) {e : Envelope} {q : Query}
    (he : e.store = c.store.id → e.Genuine ch c.store.id q)
    (kept : (c.store.snapshots.get? e.version).isSome) (r : Request) :
    MissesVersion (runQuery e r) c ↔ e.store = c.store.id ∧ c.KeepsAlone e.version := by
  by_cases hstore : e.store = c.store.id
  · rw [and_iff_right hstore]
    by_cases halone : c.KeepsAlone e.version
    · have hgone := close_of_keepsAlone hs hc.notWriting kept halone
      exact iff_of_true (runQuery_of_not_kept hc (he hstore) hgone r) halone
    · have hstays := (close_keeps_iff hs hc.notWriting kept).mpr halone
      have hrun := runQuery_of_kept hc (he hstore) hstays hgl r
      exact iff_of_false
        (hrun.not_missesVersion ((r.answer_complains _ _ _ _).timeless.map _)) halone
  · exact iff_of_false (runQuery_of_foreign hstore r) fun h => hstore h.1

theorem runBatch_missesVersion_iff (hc : c.Ready ch) {l : Ledger} (hs : Store.Exact c.store l)
    {gl : Group} (hgl : Version.nth? ch.groups c.store.latest = some gl) {items : List BatchItem}
    (hne : items ≠ []) (hq : ∀ item ∈ items, item.envelope.isQuery ∧ item.envelope.version = v)
    (he : (∀ item ∈ items, item.envelope.store = c.store.id) → Uniform ch c.store.id v items)
    (kept : (c.store.snapshots.get? v).isSome) : MissesVersion (runBatch items) c ↔
      (∀ item ∈ items, item.envelope.store = c.store.id) ∧ c.KeepsAlone v := by
  by_cases hstore : ∀ item ∈ items, item.envelope.store = c.store.id
  · rw [and_iff_right hstore]
    by_cases halone : c.KeepsAlone v
    · have hgone := close_of_keepsAlone hs hc.notWriting kept halone
      exact iff_of_true (runBatch_of_not_kept hc hne (he hstore) hgone) halone
    · have hstays := (close_keeps_iff hs hc.notWriting kept).mpr halone
      obtain ⟨asks, -, hrun⟩ := runBatch_of_kept hc hne (he hstore) hstays hgl
      exact iff_of_false
        (hrun.not_missesVersion ((Request.answers_complains _ _ _ _).timeless.map _)) halone
  · exact iff_of_false (runBatch_of_foreign hne hq hstore) fun h => hstore h.1

end Connection

namespace World
variable {settings : Settings} {w : World} {ch : Chronicle}

/-- A run misses a version that was kept when it began only if nothing but the worker's own read
kept it. What comes from another store is turned down before. -/
theorem Reachable.missed_iff_kept_alone {c : Context} {v : Version} (h : Reachable settings w ch)
    (hw : c.isWriting = false) (kept : w.store.isRetained v) :
    (∀ e r, e.isQuery → e.version = v → (e.store = w.store.id → Exported settings w ch e) →
      (Connection.MissesVersion (Connection.runQuery e r) ⟨w.store, c⟩ ↔
        e.store = w.store.id ∧ (Connection.mk w.store c).KeepsAlone v)) ∧
    (∀ items, items ≠ [] →
      (∀ item ∈ items, item.envelope.isQuery ∧ item.envelope.version = v) →
      (∀ item ∈ items, item.envelope.store = w.store.id → Exported settings w ch item.envelope) →
      (Connection.MissesVersion (Connection.runBatch items) ⟨w.store, c⟩ ↔
        (∀ item ∈ items, item.envelope.store = w.store.id) ∧
          (Connection.mk w.store c).KeepsAlone v)) := by
  have hs := h.sound
  obtain ⟨l, hexact, -⟩ := hs.store.exact
  obtain ⟨g, hg⟩ := hs.store.latest_kept
  have hlatest := hs.store.snapshot hg
  rw [Store.isRetained, NatMap.contains_eq] at kept
  constructor
  · rintro e r hquery rfl he
    obtain ⟨q, hq⟩ := Envelope.isQuery_iff.mp hquery
    exact Connection.runQuery_missesVersion_iff (hs.ready hw) hexact hlatest
      (fun hstore => (he hstore).genuine hq) kept r
  · intro items hne hqueries he
    refine Connection.runBatch_missesVersion_iff (hs.ready hw) hexact hlatest hne hqueries ?_ kept
    intro hstore item hitem
    obtain ⟨hquery, hversion⟩ := hqueries item hitem
    obtain ⟨q, hq⟩ := Envelope.isQuery_iff.mp hquery
    exact ⟨hversion, q, (he item hitem (hstore item hitem)).genuine hq⟩

/-- Two readers hold an old version, so each can run what was exported from it. -/
theorem not_missed_while_shared : ∃ w ch e c, Exported { historyRetention := 1 } w ch e ∧
    w.context? 3 = some c ∧ c.reads e.version ∧ e.version = 2 ∧ w.store.latest = 3 ∧
    ¬Connection.MissesVersion (Connection.runQuery e (.count 0 (-1) (-1))) ⟨w.store, c⟩ := by
  have ho : Store.openNew "store" { historyRetention := 1 } = .ok _ := rfl
  have he := exported_of_runs ho
    [.connect, .connect, .connect, .transact 1 .beginWrite, .edit 1 (.addTable "t"),
      .transact 1 .commit, .transact 2 (.beginRead none)]
    [.transact 3 (.beginRead none), .transact 1 .beginWrite, .transact 1 .commit]
    2 (.query ⟨1, 0, .all⟩) .copy rfl rfl rfl
  refine ⟨_, _, _, _, he, rfl, rfl, rfl, rfl, ?_⟩
  rw [(he.reachable.missed_iff_kept_alone rfl rfl).1 _ (.count 0 (-1) (-1)) rfl rfl fun _ => he]
  rintro ⟨-, -, hcount, -⟩
  exact absurd hcount (by decide)

/-- The last reader of an old version cannot run what it exported there itself. -/
theorem missed_by_its_last_reader : ∃ w ch e c, Exported { historyRetention := 1 } w ch e ∧
    w.context? 2 = some c ∧ c.isWriting = false ∧ e.isQuery ∧ w.store.isRetained e.version ∧
    ∃ reason c', Connection.runQuery e (.count 0 (-1) (-1)) ⟨w.store, c⟩ =
      .error (.badVersion e.version reason) c' := by
  have ho : Store.openNew "store" { historyRetention := 1 } = .ok _ := rfl
  have he := exported_of_runs ho
    [.connect, .connect, .transact 1 .beginWrite, .edit 1 (.addTable "t"), .transact 1 .commit,
      .transact 2 (.beginRead none)]
    [.transact 1 .beginWrite, .transact 1 .commit]
    2 (.query ⟨1, 0, .all⟩) .copy rfl rfl rfl
  exact ⟨_, _, _, _, he, rfl, rfl, rfl, rfl, _, _, rfl⟩

end World
end SnapshotStore
