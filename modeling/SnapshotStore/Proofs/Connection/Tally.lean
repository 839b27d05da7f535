import SnapshotStore.Proofs.Outcome
import SnapshotStore.Handover.Batch

/-!
The tally of calls. No action heeds it: with one more call on the tally an action comes to the same,
with one more call on the tally.
-/

namespace SnapshotStore

section Unheeding
variable {σ α β : Type} {f : σ → σ}

/-- The outcome with its state changed. -/
def withState (f : σ → σ) : EStateM.Result Error σ α → EStateM.Result Error σ α
  | .ok x s => .ok x (f s)
  | .error e s => .error e (f s)

/-- Whether the state is changed before or after makes no difference. -/
def Unheeding (f : σ → σ) (a : EStateM Error σ α) : Prop := ∀ s, a (f s) = withState f (a s)

namespace Unheeding
variable {a : EStateM Error σ α}

theorem pure (x : α) : Unheeding f (pure x : EStateM Error σ α) := fun _ => rfl

theorem throw (e : Error) : Unheeding f (throw e : EStateM Error σ α) := fun _ => rfl

theorem bind {g : α → EStateM Error σ β} (h : Unheeding f a) (hg : ∀ x, Unheeding f (g x)) :
    Unheeding f (a >>= g) := by
  intro s
  have hs := h s
  cases ha : a s with
  | ok x s' =>
      rw [ha] at hs
      rw [bind_of_ok hs, bind_of_ok ha]
      exact hg x s'
  | error e s' =>
      rw [ha] at hs
      rw [bind_of_error hs, bind_of_error ha]
      rfl

theorem map (h : Unheeding f a) (g : α → β) : Unheeding f (a >>= fun x => Pure.pure (g x)) :=
  h.bind fun x => pure (g x)

theorem mapM {g : α → EStateM Error σ β} (hg : ∀ x, Unheeding f (g x)) (xs : List α) :
    Unheeding f (xs.mapM g) := by
  induction xs with
  | nil =>
      rw [List.mapM_nil]
      exact pure []
  | cons x xs ih =>
      rw [List.mapM_cons]
      exact (hg x).bind fun y => ih.map (y :: ·)

end Unheeding
end Unheeding

namespace Store
variable (s : Store)

theorem recordCall_latest : s.recordCall.latest = s.latest := rfl

theorem recordCall_snapshot (v : Version) : s.recordCall.snapshot v = s.snapshot v := rfl

theorem recordCall_changesBetween (start stop : Version) :
    s.recordCall.changesBetween start stop = s.changesBetween start stop := rfl

theorem recordCall_pin (at? : Option Version) :
    s.recordCall.pin at? = (s.pin at?).map fun found => (found.1, found.2.recordCall) := by
  simp only [pin, recordCall_latest, recordCall_snapshot]
  cases s.snapshot (at?.getD s.latest) <;> rfl

theorem recordCall_unpin (v : Version) : s.recordCall.unpin v = (s.unpin v).recordCall := by
  have hpins : s.recordCall.pins = s.pins := rfl
  simp only [unpin, hpins]
  cases s.pins.get? v <;> rfl

theorem recordCall_acquireWriter (context : ContextId) (timeout? : Option Nat) :
    s.recordCall.acquireWriter context timeout? =
      (s.acquireWriter context timeout?).map recordCall := by
  have hwriter : s.recordCall.writer? = s.writer? := rfl
  simp only [acquireWriter, hwriter]
  cases s.writer? with
  | none => rfl
  | some holder => by_cases h : holder = context <;> simp only [h, if_true, if_false] <;> rfl

theorem recordCall_releaseWriter (context : ContextId) :
    s.recordCall.releaseWriter context = (s.releaseWriter context).recordCall := by
  have hwriter : s.recordCall.writer? = s.writer? := rfl
  simp only [releaseWriter, hwriter]
  split <;> rfl

theorem recordCall_publish (g previous : Group) (keepPinned : Bool) :
    s.recordCall.publish g previous keepPinned = (s.publish g previous keepPinned).recordCall := by
  cases keepPinned <;> rfl

theorem recordCall_commit (context : ContextId) (base : Version) (g : Group) (keepPinned : Bool) :
    s.recordCall.commit context base g keepPinned =
      (s.commit context base g keepPinned).map fun made => (made.1, made.2.recordCall) := by
  have hwriter : s.recordCall.writer? = s.writer? := rfl
  have hsnapshots : s.recordCall.snapshots = s.snapshots := rfl
  simp only [commit, recordCall_publish, recordCall_latest, hwriter, hsnapshots]
  split
  · rfl
  split
  · rfl
  cases s.snapshots.get? base <;> rfl

end Store

namespace Connection
variable {α : Type}

def tallied (c : Connection) : Connection := ⟨c.store.recordCall, c.context⟩

abbrev Unheeding (a : Action α) : Prop := SnapshotStore.Unheeding tallied a

/-! Transitions -/

theorem beginRead_unheeding (at? : Option Version) : Unheeding (beginRead at?) := by
  intro ⟨s, c⟩
  simp only [beginRead, tallied, s.recordCall_pin]
  cases c.state with
  | reading | writing => rfl
  | idle => cases s.pin at? <;> rfl

theorem endRead_unheeding : Unheeding endRead := by
  intro ⟨s, c⟩
  simp only [endRead, tallied, s.recordCall_unpin]
  cases c.state <;> rfl

theorem advance_unheeding (to? : Option Version) : Unheeding (advance to?) := by
  intro ⟨s, c⟩
  simp only [advance, tallied, s.recordCall_latest, s.recordCall_changesBetween, s.recordCall_pin]
  cases c.state with
  | idle | writing => rfl
  | reading v g =>
      dsimp only
      generalize to?.getD s.latest = target
      split
      · rfl
      split
      · rfl
      cases s.changesBetween v target with
      | error e => rfl
      | ok changes =>
          cases s.pin (some target) with
          | error e => rfl
          | ok found => simp only [Except.map, Store.recordCall_unpin]; rfl

theorem beginWrite_unheeding : Unheeding beginWrite := by
  intro ⟨s, c⟩
  have htimeout : s.recordCall.settings = s.settings := rfl
  simp only [beginWrite, tallied, s.recordCall_acquireWriter, htimeout]
  cases c.state with
  | reading | writing => rfl
  | idle =>
      cases s.acquireWriter c.id s.settings.writeTimeout? with
      | error e => rfl
      | ok t =>
          simp only [Except.map, t.recordCall_latest, t.recordCall_snapshot,
            t.recordCall_releaseWriter]
          cases t.snapshot t.latest <;> rfl

theorem promote_unheeding : Unheeding promote := by
  intro ⟨s, c⟩
  have htimeout : s.recordCall.settings = s.settings := rfl
  simp only [promote, tallied, s.recordCall_acquireWriter, htimeout]
  cases c.state with
  | idle | writing => rfl
  | reading v g =>
      cases s.acquireWriter c.id s.settings.writeTimeout? with
      | error e => rfl
      | ok t =>
          simp only [Except.map, t.recordCall_latest, t.recordCall_snapshot, t.recordCall_unpin,
            t.recordCall_changesBetween, t.recordCall_releaseWriter]
          cases t.changesBetween v t.latest <;> cases t.snapshot t.latest <;> rfl

theorem finishWrite_unheeding (operation : String) (keepPinned : Bool) :
    Unheeding (finishWrite operation keepPinned) := by
  intro ⟨s, c⟩
  simp only [finishWrite, tallied, s.recordCall_commit, s.recordCall_releaseWriter]
  cases c.state with
  | idle | reading => rfl
  | writing base g =>
      dsimp only
      cases s.commit c.id base g keepPinned with
      | error e => rfl
      | ok made => simp only [Except.map, Store.recordCall_releaseWriter]; rfl

theorem commit_unheeding : Unheeding commit := by
  intro c
  simp only [commit, finishWrite_unheeding "commit" false c]
  cases finishWrite "commit" false c <;> rfl

theorem commitAndRead_unheeding : Unheeding commitAndRead := by
  intro c
  simp only [commitAndRead, finishWrite_unheeding "commit_and_continue_as_read" true c]
  cases finishWrite "commit_and_continue_as_read" true c with
  | error e c' => rfl
  | ok v c' =>
      simp only [withState, tallied, Store.recordCall_snapshot, Store.recordCall_unpin]
      cases c'.store.snapshot v <;> rfl

theorem rollback_unheeding : Unheeding rollback := by
  intro ⟨s, c⟩
  simp only [rollback, tallied, s.recordCall_releaseWriter]
  cases c.state <;> rfl

theorem rollbackAndRead_unheeding : Unheeding rollbackAndRead := by
  intro ⟨s, c⟩
  simp only [rollbackAndRead, tallied, s.recordCall_pin, s.recordCall_releaseWriter]
  cases c.state with
  | idle | reading => rfl
  | writing base g =>
      dsimp only
      cases s.pin (some base) with
      | error e => rfl
      | ok found => simp only [Except.map, Store.recordCall_releaseWriter]; rfl

theorem perform_unheeding (t : Transition) : Unheeding t.perform := by
  cases t with
  | beginRead at? => exact (beginRead_unheeding at?).map _
  | endRead => exact endRead_unheeding.map _
  | advance to? => exact (advance_unheeding to?).map _
  | beginWrite => exact beginWrite_unheeding.map _
  | promote => exact promote_unheeding.map _
  | commit => exact commit_unheeding.map _
  | commitAndRead => exact commitAndRead_unheeding.map _
  | rollback => exact rollback_unheeding.map _
  | rollbackAndRead => exact rollbackAndRead_unheeding.map _

theorem edit_unheeding (e : Edit) : Unheeding (Connection.edit e) := by
  intro ⟨s, c⟩
  simp only [Connection.edit, tallied]
  cases c.state with
  | idle | reading => rfl
  | writing base g => dsimp only; split <;> rfl

theorem close_tallied (c : Connection) : c.tallied.close = c.close.recordCall := by
  obtain ⟨s, c⟩ := c
  simp only [close, tallied, s.recordCall_unpin, s.recordCall_releaseWriter]
  cases c.state <;> rfl

/-! Handing over -/

theorem ask_unheeding {f : Connection → Except Error α} (h : ∀ c, f c.tallied = f c) :
    Unheeding (ask f) := by
  intro c
  simp only [ask, h]
  cases f c <;> rfl

theorem syncTo_unheeding (v : Version) : Unheeding (syncTo v) := by
  intro ⟨s, c⟩
  simp only [syncTo, tallied]
  cases c.state with
  | idle => exact (beginRead_unheeding (some v)).map (fun _ => ()) ⟨s, c⟩
  | writing base g => rfl
  | reading current g =>
      dsimp only
      split
      · exact (advance_unheeding (some v)).map (fun _ => ()) ⟨s, c⟩
      split <;> rfl

theorem importAs_unheeding (kind : PayloadKind) (e : Envelope) : Unheeding (importAs kind e) :=
  (ask_unheeding fun _ => rfl).bind fun _ => (syncTo_unheeding e.version).bind fun _ =>
    (ask_unheeding fun _ => rfl).bind fun _ => .pure _

theorem importQuery_unheeding (e : Envelope) : Unheeding (importQuery e) :=
  (importAs_unheeding .query e).bind fun p => by
    cases p with
    | query q => exact .pure q
    | row l | view v => exact .throw _

theorem releaseRead_unheeding (operation : String) : Unheeding (releaseRead operation) := by
  intro ⟨s, c⟩
  simp only [releaseRead, tallied]
  cases c.state with
  | reading v g => exact endRead_unheeding ⟨s, c⟩
  | idle | writing => rfl

theorem pinExported_unheeding (target : Version) : Unheeding (pinExported target) :=
  (beginRead_unheeding none).bind fun fresh => by
    split
    · exact .pure _
    · exact endRead_unheeding.bind fun _ => (beginRead_unheeding (some target)).map _

theorem endReadOnError_unheeding {body : Action α} (h : Unheeding body) :
    Unheeding (endReadOnError body) := by
  intro c
  simp only [endReadOnError, h c]
  cases body c with
  | ok x c' => rfl
  | error e c' =>
      simp only [withState, endRead_unheeding c']
      cases endRead c' <;> rfl

theorem evaluate_tallied (c : Connection) (q : Query) (r : Request) :
    c.tallied.evaluate q r = c.evaluate q r := by
  have hback : ∀ (t : Table) (found : Request.Found),
      c.tallied.handBack t found = c.handBack t found := by
    intro t found
    cases found with
    | row index? => cases index? <;> rfl
    | view | count | value => rfl
  simp only [evaluate, hback]
  rfl

theorem checkBatch_tallied (c : Connection) (items : List BatchItem) :
    c.tallied.checkBatch items = c.checkBatch items := by
  have hfrom : ∀ (items : List BatchItem) (v : Version) (position : Nat),
      c.tallied.checkBatchFrom v position items = c.checkBatchFrom v position items := by
    intro items
    induction items with
    | nil => exact fun _ _ => rfl
    | cons item rest ih =>
        intro v position
        simp only [checkBatchFrom, ih]
        rfl
  cases items with
  | nil => rfl
  | cons first rest => simp only [checkBatch, hfrom]

theorem runQuery_unheeding (e : Envelope) (r : Request) : Unheeding (runQuery e r) := by
  apply (ask_unheeding fun _ => rfl).bind
  intro _
  apply (releaseRead_unheeding _).bind
  intro _
  apply (pinExported_unheeding _).bind
  intro historical
  apply endReadOnError_unheeding
  apply (importQuery_unheeding e).bind
  intro q
  have hanswer : Unheeding (do
      let response ← ask (·.evaluate q r)
      return (← ask (·.currentVersion), response)) :=
    (ask_unheeding fun c => evaluate_tallied c q r).bind fun _ => (ask_unheeding fun _ => rfl).map _
  split
  · exact (advance_unheeding none).bind fun a => (ask_unheeding fun _ => rfl).bind fun _ => hanswer
  · exact hanswer

theorem runBatch_unheeding (items : List BatchItem) : Unheeding (runBatch items) := by
  apply (ask_unheeding fun c => checkBatch_tallied c items).bind
  intro v
  apply (releaseRead_unheeding _).bind
  intro _
  apply (beginRead_unheeding (some v)).bind
  intro _
  apply endReadOnError_unheeding
  apply (SnapshotStore.Unheeding.mapM (fun item => (importQuery_unheeding _).map _) items).bind
  intro queries
  apply (advance_unheeding none).bind
  intro a
  apply (ask_unheeding fun _ => rfl).bind
  intro _
  apply (ask_unheeding fun c => ?_).bind
  · exact fun _ => (ask_unheeding fun _ => rfl).map _
  · simp only [evaluate_tallied]

end Connection
end SnapshotStore
