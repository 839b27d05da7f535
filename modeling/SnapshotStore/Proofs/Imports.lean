import SnapshotStore.Proofs.Exports
import SnapshotStore.Proofs.Pins
import SnapshotStore.Session.Accessor

/-!
Imports. A context that has not read past the version on an envelope comes to that version if it
is still kept, and finds there what was exported. In every other case it stays where it is.
-/

namespace SnapshotStore

/-! Attached objects -/

/-- Whether the object is attached when it is bound to the transaction of the context. -/
def Payload.isAttached (p : Payload) (c : Context) : Bool :=
  match p with
  | query q => (Bound.mk q c.epoch).isAttached c
  | row l => (Bound.mk l c.epoch).isAttached c
  | view v => (Bound.mk v c.epoch).isAttached c

section Attached
variable {c : Context} {v : Version} {g : Group} {t : Table}

theorem Bound.isAttached_of_reading {α : Type} [Anchored α] {x : α}
    (hc : c.state = .reading v g) (ht : g.table? (Anchored.table x) = some t)
    (hsuits : Anchored.suits x t) : (Bound.mk x c.epoch).isAttached c := by
  have hopen : c.isInTransaction = true := by
    simp only [Context.isInTransaction, hc, TransactionState.version?, Option.isSome_some]
  have hresolve : (Bound.mk x c.epoch).resolve c = .ok t := by
    simp only [resolve, hopen, Context.group_of_reading hc, bind, Except.bind, ht]
    simp [hsuits, pure, Except.pure]
  rw [isAttached, hresolve]
  rfl

/-- What passes the check against the version that is read is attached there. -/
theorem Payload.isAttached_of_check {p : Payload} (hc : c.state = .reading v g)
    (hg : g.Numbered) (h : p.check g = .ok ()) : p.isAttached c := by
  unfold check at h
  split at h
  next hany =>
    obtain ⟨t, ht, hsuits⟩ := (Option.any_eq_true _ _).mp hany
    have hkey : t.key = p.table := (hg.tables p.table t ht).1.key
    simp only [suits, Bool.and_eq_true, decide_eq_true_eq] at hsuits
    obtain ⟨hepoch, hrow⟩ := hsuits
    cases p with
    | query q => exact Bound.isAttached_of_reading hc ht (decide_eq_true hepoch)
    | row l => exact Bound.isAttached_of_reading hc ht hrow
    | view w =>
        refine Bound.isAttached_of_reading hc ht ?_
        simp only [Anchored.suits, View.isAttached, Bool.and_eq_true, decide_eq_true_eq]
        exact ⟨hkey, hepoch⟩
  next => simp at h

end Attached

/-! Coming to a version -/

/-- The context can still come to the version: it reads none, or none that is later. -/
def Context.Behind (c : Context) (v : Version) : Prop :=
  c.state = .idle ∨ ∃ u g, c.state = .reading u g ∧ u ≤ v

/-- An error that blames the version. -/
theorem Store.unavailable_eq (s : Store) (v : Version) :
    ∃ reason, s.unavailable v = .badVersion v reason := by
  unfold unavailable
  split <;> exact ⟨_, rfl⟩

namespace Connection
variable {s : Store} {d : Context} {l : Ledger} {u v : Version} {gu g : Group}

theorem advance_to_kept (hs : s.Exact l) (hd : d.state = .reading u gu)
    (hu : s.snapshots.get? u = some gu) (hlt : u < v) (hv : s.snapshots.get? v = some g) :
    ∃ a, advance (some v) ⟨s, d⟩ = .ok a ⟨(s.addPin v).unpin u, d.enterRead v g⟩ := by
  have hle : v ≤ s.latest := ((hs.retained v).mp (Option.isSome_iff_exists.mpr ⟨g, hv⟩)).2.1
  obtain ⟨changes, hchanges⟩ := (hs.changesBetween_ok_iff u v).mpr
    (.inr ⟨Store.oldest_le hu, hlt, hle⟩)
  refine ⟨⟨u, v, .collect changes⟩, ?_⟩
  simp only [advance, hd, Option.getD_some, if_neg (Nat.lt_asymm hlt), if_neg (Nat.ne_of_gt hlt),
    hchanges, Store.pin, Store.snapshot, hv, Except.map]

theorem advance_to_gone (hs : s.Exact l) (hd : d.state = .reading u gu)
    (hu : s.snapshots.get? u = some gu) (hlt : u < v) (hle : v ≤ s.latest)
    (hv : s.snapshots.get? v = none) :
    advance (some v) ⟨s, d⟩ = .error (s.unavailable v) ⟨s, d⟩ := by
  obtain ⟨changes, hchanges⟩ := (hs.changesBetween_ok_iff u v).mpr
    (.inr ⟨Store.oldest_le hu, hlt, hle⟩)
  simp only [advance, hd, Option.getD_some, if_neg (Nat.lt_asymm hlt), if_neg (Nat.ne_of_gt hlt),
    hchanges, Store.pin, Store.snapshot, hv, Except.map]

/-- A context that is not past a kept version comes to it. -/
theorem syncTo_of_kept (hs : s.Exact l)
    (own : ∀ u gu, d.state = .reading u gu → s.snapshots.get? u = some gu) (hd : d.Behind v)
    (hv : s.snapshots.get? v = some g) :
    ∃ c', syncTo v ⟨s, d⟩ = .ok () c' ∧ c'.context.state = .reading v g := by
  rcases hd with hidle | ⟨u, gu, hreads, hle⟩
  · have hbegin := beginRead_of_kept (some v) hidle rfl hv
    refine ⟨⟨s.addPin v, (d.enterRead v g).newEpoch⟩, ?_, rfl⟩
    simp only [syncTo, hidle]
    exact bind_of_ok hbegin
  · obtain hlt | rfl := Nat.lt_or_eq_of_le hle
    · obtain ⟨a, hadvance⟩ := advance_to_kept hs hreads (own u gu hreads) hlt hv
      refine ⟨⟨(s.addPin v).unpin u, d.enterRead v g⟩, ?_, rfl⟩
      simp only [syncTo, hreads, if_pos hlt]
      exact bind_of_ok hadvance
    · obtain rfl := Option.some.inj ((own u gu hreads).symm.trans hv)
      refine ⟨⟨s, d⟩, ?_, hreads⟩
      simp only [syncTo, hreads, if_neg (Nat.lt_irrefl u), if_true]

/-- A context that is not past a version that is gone misses it and stays where it is. -/
theorem syncTo_of_gone (hs : s.Exact l)
    (own : ∀ u gu, d.state = .reading u gu → s.snapshots.get? u = some gu) (hd : d.Behind v)
    (hle : v ≤ s.latest) (hv : s.snapshots.get? v = none) :
    syncTo v ⟨s, d⟩ = .error (s.unavailable v) ⟨s, d⟩ := by
  rcases hd with hidle | ⟨u, gu, hreads, hlater⟩
  · simp only [syncTo, hidle]
    exact bind_of_error (beginRead_of_not_kept hidle hv)
  · obtain hlt | rfl := Nat.lt_or_eq_of_le hlater
    · simp only [syncTo, hreads, if_pos hlt]
      exact bind_of_error (advance_to_gone hs hreads (own u gu hreads) hlt hle hv)
    · rw [own u gu hreads] at hv
      simp at hv

theorem syncTo_of_past (hd : d.state = .reading u gu) (hlt : v < u) :
    ∃ reason, syncTo v ⟨s, d⟩ = .error (.badVersion v reason) ⟨s, d⟩ := by
  simp only [syncTo, hd, if_neg (Nat.lt_asymm hlt), if_neg (Nat.ne_of_gt hlt)]
  exact ⟨_, rfl⟩

theorem syncTo_of_writing (hd : d.state = .writing u gu) :
    ∃ reason, syncTo v ⟨s, d⟩ = .error (.invalidState reason) ⟨s, d⟩ := by
  simp only [syncTo, hd]
  exact ⟨_, rfl⟩

/-! Taking over -/

variable {c c' : Connection} {e : Envelope} {error : Error}

theorem importAs_of_syncTo_error (hstore : e.store = c.store.id)
    (hsync : syncTo e.version c = .error error c') : importAs e.kind e c = .error error c' := by
  have hask := ask_of_ok (f := (·.checkEnvelope e.kind e)) (checkEnvelope_of_home hstore)
  rw [importAs, bind_of_ok hask, bind_of_error hsync]

/-- The failure says why the context cannot come to the version. -/
def Bars (d : Context) (v : Version) (error : Error) : Prop :=
  if d.isWriting then ∃ reason, error = .invalidState reason
  else ∃ reason, error = .badVersion v reason

/-- A context that cannot come to the version of the envelope stays where it is. -/
theorem importAs_of_barred (hs : s.Exact l)
    (own : ∀ u gu, d.state = .reading u gu → s.snapshots.get? u = some gu)
    (hstore : e.store = s.id) (hle : e.version ≤ s.latest)
    (hbarred : s.snapshots.get? e.version = none ∨ ¬d.Behind e.version) :
    ∃ error, importAs e.kind e ⟨s, d⟩ = .error error ⟨s, d⟩ ∧ Bars d e.version error := by
  have hgone : d.isWriting = false → d.Behind e.version →
      ∃ error, importAs e.kind e ⟨s, d⟩ = .error error ⟨s, d⟩ ∧ Bars d e.version error := by
    intro hw hbehind
    have hv := hbarred.resolve_right (not_not_intro hbehind)
    refine ⟨_, importAs_of_syncTo_error hstore (syncTo_of_gone hs own hbehind hle hv), ?_⟩
    rw [Bars, hw]
    exact s.unavailable_eq e.version
  cases hd : d.state with
  | idle => exact hgone (Context.isWriting_of_idle hd) (.inl hd)
  | reading u gu =>
      have hw := Context.isWriting_of_reading hd
      by_cases hlater : u ≤ e.version
      · exact hgone hw (.inr ⟨u, gu, hd, hlater⟩)
      · obtain ⟨reason, hsync⟩ := syncTo_of_past (s := s) hd (Nat.lt_of_not_le hlater)
        refine ⟨_, importAs_of_syncTo_error hstore hsync, ?_⟩
        rw [Bars, hw]
        exact ⟨reason, rfl⟩
  | writing base gw =>
      obtain ⟨reason, hsync⟩ := syncTo_of_writing (s := s) (v := e.version) hd
      refine ⟨_, importAs_of_syncTo_error hstore hsync, ?_⟩
      rw [Bars, (isWriting_iff d).mpr ⟨base, gw, hd⟩]
      exact ⟨reason, rfl⟩

end Connection

namespace World
variable {settings : Settings} {w w₀ : World} {ch ch₀ : Chronicle}

/-- An import is good exactly if the version of the export is still kept and the context has not
gone past it. Then it yields what was exported, attached in the version it was exported from.
Otherwise everything stays as it was, and the failure says whether the context writes or the
version cannot be had. -/
theorem Reachable.import_outcome {m n : Nat} {c₀ c : Context} {v : Version} {g : Group}
    {p : Payload} {policy : HandoverPolicy} {e : Envelope} (h : Reachable settings w₀ ch₀)
    (hexporter : w₀.context? m = some c₀) (hreads : c₀.state = .reading v g)
    (he : Connection.enclose ⟨w₀.store, c₀⟩ p policy = .ok e) (hpath : Path w₀ ch₀ w ch)
    (himporter : w.context? n = some c) :
    ((∃ x c', Connection.importAs p.kind e ⟨w.store, c⟩ = .ok x c') ↔
      w.store.isRetained v ∧ (c.state = .idle ∨ ∃ u gu, c.state = .reading u gu ∧ u ≤ v)) ∧
    (∀ x c', Connection.importAs p.kind e ⟨w.store, c⟩ = .ok x c' →
      x = p ∧ c'.context.state = .reading v g ∧ p.isAttached c'.context) ∧
    (∀ error c', Connection.importAs p.kind e ⟨w.store, c⟩ = .error error c' →
      c' = ⟨w.store, c⟩ ∧
      (c.isWriting = true → ∃ reason, error = .invalidState reason) ∧
      (c.isWriting = false → ∃ reason, error = .badVersion v reason)) := by
  have hr := h.path hpath
  have hg := hpath.nth? (h.sound.committed hexporter hreads)
  obtain ⟨v', g', hstate, hcheck, rfl⟩ := Connection.enclose_cases he
  obtain ⟨rfl, rfl⟩ := TransactionState.reading.inj (hstate.symm.trans hreads)
  obtain ⟨l, hexact, hgroups⟩ := hr.sound.store.exact
  have hle : v' ≤ w.store.latest := hexact.latest ▸ hgroups ▸ (Version.nth?_bounds hg).2
  have own := fun u gu (hu : c.state = .reading u gu) => hr.kept himporter hu
  change (_ ↔ _ ∧ c.Behind v') ∧ _
  rw [Store.isRetained, NatMap.contains_eq]
  by_cases hgood : (w.store.snapshots.get? v').isSome ∧ c.Behind v'
  · obtain ⟨g, hv⟩ := Option.isSome_iff_exists.mp hgood.1
    obtain rfl := Option.some.inj ((hr.sound.store.snapshot hv).symm.trans hg)
    obtain ⟨c', hsync, hc'⟩ := Connection.syncTo_of_kept hexact own hgood.2 hv
    have himport := Connection.importAs_of_syncTo (e := ⟨p, v', _, policy⟩)
      hpath.store_id.symm hsync hc' hcheck
    have hattached := Payload.isAttached_of_check hc' (hr.sound.chronicle.numbered hg) hcheck
    refine ⟨iff_of_true ⟨_, _, himport⟩ hgood, ?_, ?_⟩
    · intro x c'' hx
      obtain ⟨rfl, rfl⟩ := EStateM.Result.ok.inj (himport.symm.trans hx)
      exact ⟨rfl, hc', hattached⟩
    · intro error c'' herror
      exact absurd (himport.symm.trans herror) (by simp)
  · have hbarred : w.store.snapshots.get? v' = none ∨ ¬c.Behind v' := by
      rw [← Option.not_isSome_iff_eq_none]
      exact Classical.not_and_iff_not_or_not.mp hgood
    obtain ⟨error, himport, hbars⟩ := Connection.importAs_of_barred (e := ⟨p, v', _, policy⟩)
      hexact own hpath.store_id.symm hle hbarred
    have hfails : ∀ x c', Connection.importAs p.kind ⟨p, v', w₀.store.id, policy⟩ ⟨w.store, c⟩ ≠
        .ok x c' := fun x c' hx => absurd (himport.symm.trans hx) (by simp)
    refine ⟨iff_of_false ?_ hgood, ?_, ?_⟩
    · rintro ⟨x, c', hx⟩
      exact hfails x c' hx
    · intro x c' hx
      exact absurd hx (hfails x c')
    · intro error' c' herror
      obtain ⟨rfl, rfl⟩ := EStateM.Result.error.inj (himport.symm.trans herror)
      refine ⟨rfl, fun hw => ?_, fun hw => ?_⟩
      · simpa [Connection.Bars, hw] using hbars
      · simpa [Connection.Bars, hw] using hbars

/-- A reader of the version before takes over a row that is gone from the latest version, and has
it attached in the version of the export. -/
theorem gone_row_imported : ∃ w ch n c e p c', Reachable { historyRetention := 1 } w ch ∧
    w.context? n = some c ∧ c.reads 1 ∧ w.store.latest = 3 ∧
    Connection.importAs .row e ⟨w.store, c⟩ = .ok p c' ∧
    c'.context.reads 2 ∧ p.isAttached c'.context := by
  have ho : Store.openNew "store" { historyRetention := 1 } = .ok _ := rfl
  have hnew : ∀ s, (Connections.new s).Keyed := fun s id c hc => by simp [Connections.new] at hc
  obtain ⟨hkeyed, hr⟩ := Connections.run_reachable (hnew _) (.opened ho)
    [.connect, .connect, .connect, .transact 3 (.beginRead none), .transact 1 .beginWrite,
      .edit 1 (.addTable "t"), .edit 1 (.addRow 1), .transact 1 .commit,
      .transact 2 (.beginRead none)]
  obtain ⟨-, hpath⟩ := Connections.run_path hkeyed hr
    [.transact 1 .beginWrite, .edit 1 (.removeRow 1 0), .transact 1 .commit]
  obtain ⟨himport, hyields, -⟩ := hr.import_outcome (m := 2) (n := 3) (p := .row ⟨1, 0, 0, 0⟩)
    rfl rfl (show Connection.enclose _ _ .copy = .ok _ from rfl) hpath rfl
  obtain ⟨p, c', hok⟩ := himport.mpr ⟨rfl, .inr ⟨1, _, rfl, by decide⟩⟩
  obtain ⟨rfl, hstate, hattached⟩ := hyields p c' hok
  have hreads : c'.context.reads 2 := by
    rw [Context.reads_of_reading hstate]
    rfl
  exact ⟨_, _, 3, _, _, _, c', hr.path hpath, rfl, rfl, rfl, hok, hreads, hattached⟩

end World
end SnapshotStore
