import SnapshotStore.Proofs.Connection.Release
import SnapshotStore.Proofs.Group.Bounds

/-!
What connections can fail for. A version may be gone, the lock may be taken, and a question may
not suit its table; what the library should have seen to itself is in order whenever the write
that is to be published is based on the latest version.
-/

namespace SnapshotStore

/-! Stores -/

namespace Store
variable {s : Store}

theorem unavailable_isFault (s : Store) (v : Version) :
    (s.unavailable v).isFault = false := by
  unfold unavailable
  split <;> rfl

theorem snapshot_faultless (s : Store) (v : Version) : Faultless (s.snapshot v) := by
  unfold snapshot
  split
  · exact .ok _
  · exact .error (s.unavailable_isFault v)

theorem pin_faultless (s : Store) (at? : Option Version) : Faultless (s.pin at?) :=
  (s.snapshot_faultless _).map _

theorem changesBetween_faultless (s : Store) (start stop : Version) :
    Faultless (s.changesBetween start stop) :=
  .ite (.error rfl) <| .ite (.ok _) <| .ite (.error rfl) (.ok _)

theorem acquireWriter_faultless (s : Store) (context : ContextId) (timeout? : Option Nat) :
    Faultless (s.acquireWriter context timeout?) := by
  unfold acquireWriter
  split
  · exact .ok _
  · exact .ite (.error rfl) (.error rfl)

end Store

/-- If the action fails, it fails in one of these ways. -/
def ErrsBy {σ α : Type} (P : Error → Prop) (r : EStateM.Result Error σ α) : Prop :=
  ∀ e s, r = .error e s → P e

namespace ErrsBy
variable {σ α β : Type} {P Q : Error → Prop} {a : EStateM Error σ α} {s : σ}
  {r : EStateM.Result Error σ α}

theorem ok (x : α) (s : σ) : ErrsBy P (.ok x s) := fun _ _ h => by simp at h

theorem error {e : Error} (h : P e) (s : σ) :
    ErrsBy P (.error e s : EStateM.Result Error σ α) :=
  fun _ _ he => (EStateM.Result.error.inj he).1 ▸ h

theorem mono (hr : ErrsBy P r) (h : ∀ e, P e → Q e) : ErrsBy Q r :=
  fun e s he => h e (hr e s he)

theorem bind {f : α → EStateM Error σ β} (h : ErrsBy P (a s))
    (hf : ∀ x s', a s = .ok x s' → ErrsBy P (f x s')) : ErrsBy P ((a >>= f) s) := by
  intro e s' he
  rcases bind_run_error.mp he with ha | ⟨x, s₁, hx, hrest⟩
  · exact h e s' ha
  · exact hf x s₁ hx e s' hrest

theorem mapM {f : α → EStateM Error σ β} (hf : ∀ x s, ErrsBy P (f x s)) (xs : List α) :
    ErrsBy P (xs.mapM f s) := by
  induction xs generalizing s with
  | nil =>
      rw [List.mapM_nil]
      exact .ok [] s
  | cons x xs ih =>
      rw [List.mapM_cons]
      exact (hf x s).bind fun y s₁ _ => ih.bind fun ys s₂ _ => .ok (y :: ys) s₂

/-- Actions that stay where they are, one after the other. -/
theorem mapM_in_place {f : α → EStateM Error σ β} {xs : List α}
    (hf : ∀ x ∈ xs, ErrsBy P (f x s) ∧ ∀ y s', f x s = .ok y s' → s' = s) :
    ErrsBy P (xs.mapM f s) ∧ ∀ ys s', xs.mapM f s = .ok ys s' → s' = s := by
  induction xs with
  | nil =>
      rw [List.mapM_nil]
      exact ⟨.ok [] s, fun ys s' h => (pure_run_ok.mp h).2.symm⟩
  | cons x xs ih =>
      obtain ⟨⟨hx, hstays⟩, hxs⟩ := List.forall_mem_cons.mp hf
      obtain ⟨herrs, hrest⟩ := ih hxs
      rw [List.mapM_cons]
      constructor
      · refine hx.bind fun y s₁ hy => ?_
        obtain rfl := hstays y s₁ hy
        exact herrs.bind fun ys s₂ _ => .ok (y :: ys) s₂
      · intro zs s' hzs
        simp only [bind_run_ok, pure_run_ok] at hzs
        obtain ⟨y, s₁, hy, ys, s₂, hys, -, rfl⟩ := hzs
        obtain rfl := hstays y s₁ hy
        exact hrest ys s₂ hys

end ErrsBy

/-- If it went wrong, the library is not to blame. -/
def Blameless {σ α : Type} (r : EStateM.Result Error σ α) : Prop :=
  ∀ e s, r = .error e s → e.isFault = false

namespace Blameless
variable {σ α β : Type} {a : EStateM Error σ α} {s : σ}

theorem ok (x : α) (s : σ) : Blameless (.ok x s) := ErrsBy.ok x s

theorem error {e : Error} (h : e.isFault = false) (s : σ) :
    Blameless (.error e s : EStateM.Result Error σ α) := ErrsBy.error h s

theorem bind {f : α → EStateM Error σ β} (h : Blameless (a s))
    (hf : ∀ x s', a s = .ok x s' → Blameless (f x s')) : Blameless ((a >>= f) s) :=
  ErrsBy.bind h hf

theorem mapM {f : α → EStateM Error σ β} (hf : ∀ x s, Blameless (f x s)) (xs : List α) :
    Blameless (xs.mapM f s) := ErrsBy.mapM hf xs

end Blameless

namespace Connection
variable {α β : Type} {c c' : Connection}

/-! Transitions -/

theorem refuse_blameless (operation : String) (c : Connection) :
    Blameless (refuse operation c : EStateM.Result Error Connection α) := .error rfl c

theorem beginRead_blameless (at? : Option Version) (c : Connection) :
    Blameless (beginRead at? c) := by
  unfold beginRead
  split
  · split
    · exact .ok _ _
    next e he => exact .error (c.store.pin_faultless at? e he) c
  · exact refuse_blameless _ c

theorem endRead_blameless (c : Connection) : Blameless (endRead c) := by
  unfold endRead
  split
  · exact .ok _ _
  · exact refuse_blameless _ c

theorem advance_blameless (to? : Option Version) (c : Connection) :
    Blameless (advance to? c) := by
  unfold advance
  split
  · dsimp only
    split
    · exact .error rfl c
    · split
      · exact .ok _ _
      · split
        next e he => exact .error (c.store.changesBetween_faultless _ _ e he) c
        · split
          next e he => exact .error (c.store.pin_faultless _ e he) c
          · exact .ok _ _
  · exact refuse_blameless _ c

theorem beginWrite_blameless (c : Connection) : Blameless (beginWrite c) := by
  unfold beginWrite
  split
  · split
    next e he => exact .error (c.store.acquireWriter_faultless _ _ e he) c
    next s _ =>
      split
      next e he => exact .error (s.snapshot_faultless _ e he) _
      · exact .ok _ _
  · exact refuse_blameless _ c

theorem promote_blameless (c : Connection) : Blameless (promote c) := by
  unfold promote
  split
  · split
    next e he => exact .error (c.store.acquireWriter_faultless _ _ e he) c
    next s _ =>
      split
      · exact .ok _ _
      next e he => exact .error (s.changesBetween_faultless _ _ e he) _
      next e he _ => exact .error (s.snapshot_faultless _ e he) _
  · exact refuse_blameless _ c

theorem finishWrite_blameless (hc : c.Publishable) (operation : String) (keepPinned : Bool) :
    Blameless (finishWrite operation keepPinned c) := by
  unfold finishWrite
  split
  next base g writing =>
    obtain ⟨s, hs⟩ := hc.commit_ok writing keepPinned
    simp only [hs]
    exact .ok _ _
  · exact refuse_blameless _ c

theorem commit_blameless (hc : c.Publishable) : Blameless (commit c) := by
  unfold commit
  split
  · exact .ok _ _
  next e c' he => exact .error (finishWrite_blameless hc _ _ e c' he) c'

theorem commitAndRead_blameless (hc : c.Publishable) : Blameless (commitAndRead c) := by
  unfold commitAndRead
  split
  next e c' he => exact .error (finishWrite_blameless hc _ _ e c' he) c'
  next v c' _ =>
    split
    · exact .ok _ _
    next e he => exact .error (c'.store.snapshot_faultless v e he) _

theorem rollback_blameless (c : Connection) : Blameless (rollback c) := by
  unfold rollback
  split
  · exact .ok _ _
  · exact refuse_blameless _ c

theorem rollbackAndRead_blameless (c : Connection) : Blameless (rollbackAndRead c) := by
  unfold rollbackAndRead
  split
  · split
    · exact .ok _ _
    next e he => exact .error (c.store.pin_faultless _ e he) _
  · exact refuse_blameless _ c

theorem perform_blameless (hc : c.Publishable) (t : Transition) : Blameless (t.perform c) := by
  cases t with
  | beginRead at? => exact (beginRead_blameless at? c).bind fun _ _ _ => .ok _ _
  | endRead => exact (endRead_blameless c).bind fun _ _ _ => .ok _ _
  | advance to? => exact (advance_blameless to? c).bind fun _ _ _ => .ok _ _
  | beginWrite => exact (beginWrite_blameless c).bind fun _ _ _ => .ok _ _
  | promote => exact (promote_blameless c).bind fun _ _ _ => .ok _ _
  | commit => exact (commit_blameless hc).bind fun _ _ _ => .ok _ _
  | commitAndRead => exact (commitAndRead_blameless hc).bind fun _ _ _ => .ok _ _
  | rollback => exact (rollback_blameless c).bind fun _ _ _ => .ok _ _
  | rollbackAndRead => exact (rollbackAndRead_blameless c).bind fun _ _ _ => .ok _ _

theorem edit_complains (hc : ∀ g, c.context.group = .ok g → g.WellFormed) (e : Edit) :
    ErrsBy (·.isComplaint = true) (Connection.edit e c) := by
  unfold Connection.edit
  split
  next base g writing =>
    have hcomplains := (hc g (Context.group_of_writing writing)).edit_complains e
    split
    · exact .ok _ _
    next e' g' he => exact .error (hcomplains e' (by rw [he])) _
  · exact .error (by rfl) c

/-! Envelopes -/

theorem ask_errsBy {P : Error → Prop} {f : Connection → Except Error α} (h : FailsBy P (f c)) :
    ErrsBy P (ask f c) := by
  unfold ask
  split
  · exact .ok _ _
  next e he => exact .error (h e he) c

theorem ask_blameless {f : Connection → Except Error α} (h : Faultless (f c)) :
    Blameless (ask f c) := ask_errsBy h

theorem syncTo_blameless (v : Version) (c : Connection) : Blameless (syncTo v c) := by
  unfold syncTo
  split
  · exact (beginRead_blameless (some v) c).bind fun _ _ _ => .ok _ _
  · split
    · exact (advance_blameless (some v) c).bind fun _ _ _ => .ok _ _
    · split
      · exact .ok _ _
      · exact .error rfl c
  · exact .error rfl c

theorem importAs_blameless (kind : PayloadKind) (e : Envelope) (c : Connection) :
    Blameless (importAs kind e c) := by
  refine (ask_blameless (c.checkEnvelope_complains kind e).faultless).bind fun _ c₁ _ =>
    (syncTo_blameless e.version c₁).bind fun _ c₂ _ => .bind (ask_blameless ?_) fun _ _ _ => .ok _ _
  exact (c₂.context.group_complains.bind fun g _ => e.payload.check_complains g).faultless

/-- What passed as a query is one. -/
theorem importQuery_blameless (e : Envelope) (c : Connection) : Blameless (importQuery e c) := by
  refine (importAs_blameless .query e c).bind fun p c' hp => ?_
  obtain ⟨rfl, hkind, -⟩ := importAs_run_ok hp
  cases hpayload : e.payload with
  | query q => exact .ok q c'
  | row l | view v => simp [hpayload, Payload.kind] at hkind

/-! Runs -/

theorem handBack_complains (c : Connection) (t : Table) (f : Request.Found) :
    Complains (c.handBack t f) := by
  cases f with
  | row index? =>
      cases index? with
      | none => exact .ok _
      | some i => exact (c.enclose_complains _ .move).map _
  | view v => exact (c.enclose_complains _ .move).map _
  | count n | value v => exact .ok _

theorem evaluate_complains (c : Connection) (q : Query) (r : Request) :
    Complains (c.evaluate q r) :=
  c.context.group_complains.bind fun g _ => (g.requireTable_complains q.table).bind fun t _ =>
    (r.evaluateOn_complains q t).bind fun f _ => c.handBack_complains t f

theorem checkStillValid_complains (c : Connection) (q : Query) (a : Advance) :
    Complains (c.checkStillValid q a) :=
  .ite (c.context.group_complains.bind fun _ _ => .error rfl) (.ok _)

theorem checkBatch_faultless (c : Connection) (items : List BatchItem) :
    Faultless (c.checkBatch items) := by
  have hitem : ∀ v i e, Faultless (c.checkBatchItem v i e) := by
    intro v i e
    unfold checkBatchItem
    exact .stop rfl <| (c.checkEnvelope_complains .query e).faultless.bind fun _ _ =>
      .ite (.error rfl) (.ok _)
  have hfrom : ∀ v items i, Faultless (c.checkBatchFrom v i items) := by
    intro v items
    induction items with
    | nil => exact fun _ => .ok ()
    | cons item rest ih =>
        intro i
        unfold checkBatchFrom
        split
        · exact ih (i + 1)
        next e he => exact .error (hitem _ _ _ e he)
  cases items with
  | nil => exact .error rfl
  | cons first rest => exact (hfrom _ _ 0).map _

theorem releaseRead_blameless (operation : String) (c : Connection) :
    Blameless (releaseRead operation c) := by
  unfold releaseRead
  split
  · exact .ok _ _
  · exact endRead_blameless c
  · exact .error rfl c

theorem pinExported_blameless (target : Version) (c : Connection) :
    Blameless (pinExported target c) := by
  refine (beginRead_blameless none c).bind fun fresh c₁ _ => ?_
  split
  · exact .ok _ _
  · exact (endRead_blameless c₁).bind fun _ c₂ _ =>
      (beginRead_blameless (some target) c₂).bind fun _ _ _ => .ok _ _

theorem endReadOnError_errsBy {P : Error → Prop} {body : Action α} (h : ErrsBy P (body c)) :
    ErrsBy P (endReadOnError body c) := by
  unfold endReadOnError
  split
  · exact .ok _ _
  next e c' he =>
    have hbody := h e c' he
    split
    · exact .error hbody _
    · exact .error hbody _

theorem endReadOnError_blameless {body : Action α} (h : Blameless (body c)) :
    Blameless (endReadOnError body c) := endReadOnError_errsBy h

theorem lend_blameless {check : Connection → Except Error β} {operation : String}
    {work : β → Action α} (hcheck : Faultless (check c)) (hwork : ∀ x c', Blameless (work x c')) :
    Blameless (lend check operation work c) :=
  (ask_blameless hcheck).bind fun x c₁ _ => (releaseRead_blameless operation c₁).bind fun _ c₂ _ =>
    hwork x c₂

theorem beginRead_isReading {at? : Option Version} {v : Version}
    (h : beginRead at? c = .ok v c') : c'.context.isReading := by
  unfold beginRead at h
  split at h
  · split at h
    · obtain ⟨-, rfl⟩ := EStateM.Result.ok.inj h
      rfl
    · simp at h
  · simp [refuse] at h

theorem pinExported_isReading {target : Version} {b : Bool}
    (h : pinExported target c = .ok b c') : c'.context.isReading := by
  obtain ⟨fresh, c₁, hfresh, h⟩ := bind_run_ok.mp h
  split at h
  · obtain ⟨-, rfl⟩ := pure_run_ok.mp h
    exact beginRead_isReading hfresh
  · obtain ⟨_, c₂, -, h⟩ := bind_run_ok.mp h
    obtain ⟨v, c₃, hv, h⟩ := bind_run_ok.mp h
    obtain ⟨-, rfl⟩ := pure_run_ok.mp h
    exact beginRead_isReading hv

theorem KeepsReading.ok {a : Action α} {x : α} (h : KeepsReading a) (hc : c.context.isReading)
    (hx : a c = .ok x c') : c'.context.isReading := after_ok hx ▸ h c hc

/-- A run can always tell the version that it worked at. -/
theorem conclude_errsBy {P : Error → Prop} {work : Connection → Except Error β}
    (hc : c.context.isReading) (hwork : FailsBy P (work c)) :
    ErrsBy P ((do let x ← ask work; return (← ask (·.currentVersion), x) :
      Action (Version × β)) c) := by
  obtain ⟨v, g, hstate⟩ := Context.isReading_iff.mp hc
  rw [conclude hstate]
  exact ask_errsBy (hwork.map _)

theorem queryWork_blameless (e : Envelope) (r : Request) (c : Connection) :
    Blameless (queryWork e r c) := by
  refine (pinExported_blameless e.version c).bind fun historical c₁ hpin =>
    endReadOnError_blameless ((importQuery_blameless e c₁).bind fun q c₂ hq => ?_)
  have hreading := (importQuery_keepsReading e).ok (pinExported_isReading hpin) hq
  split
  · refine (advance_blameless none c₂).bind fun a c₃ ha =>
      .bind (ask_blameless (c₃.checkStillValid_complains q a).faultless) fun _ c₄ hvalid => ?_
    obtain ⟨-, rfl⟩ := ask_run_ok.mp hvalid
    exact conclude_errsBy ((advance_keepsReading none).ok hreading ha)
      (c₃.evaluate_complains q r).faultless
  · exact conclude_errsBy hreading (c₂.evaluate_complains q r).faultless

theorem runQuery_blameless (e : Envelope) (r : Request) (c : Connection) :
    Blameless (runQuery e r c) :=
  runQuery_eq_lend e r ▸ lend_blameless (c.checkEnvelope_complains .query e).faultless
    fun _ c' => queryWork_blameless e r c'

theorem batchWork_blameless (items : List BatchItem) (v : Version) (c : Connection) :
    Blameless (batchWork items v c) := by
  refine (beginRead_blameless (some v) c).bind fun _ c₁ hbegin => endReadOnError_blameless ?_
  have hitem : ∀ (item : BatchItem) c, Blameless
      ((do return (← importQuery item.envelope, item.request) : Action (Query × Request)) c) :=
    fun item c => (importQuery_blameless item.envelope c).bind fun _ _ _ => .ok _ _
  refine (Blameless.mapM hitem items).bind fun queries c₂ hqueries =>
    (advance_blameless none c₂).bind fun a c₃ ha => .bind (ask_blameless ?_) fun _ c₄ hvalid => ?_
  · exact (FailsBy.forM (fun p => c₃.checkStillValid_complains p.1 a) queries).faultless
  obtain ⟨-, rfl⟩ := ask_run_ok.mp hvalid
  have hkeeps := KeepsReading.mapM (fun item : BatchItem =>
    (importQuery_keepsReading item.envelope).bind fun q => .pure (q, item.request)) items
  have hreading := hkeeps.ok (beginRead_isReading hbegin) hqueries
  exact conclude_errsBy ((advance_keepsReading none).ok hreading ha)
    (FailsBy.mapM (fun p => c₃.evaluate_complains p.1 p.2) queries).faultless

theorem runBatch_blameless (items : List BatchItem) (c : Connection) :
    Blameless (runBatch items c) :=
  runBatch_eq_lend items ▸ lend_blameless (c.checkBatch_faultless items)
    fun v c' => batchWork_blameless items v c'

end Connection
end SnapshotStore
