import SnapshotStore.Proofs.Connection.Quiet
import SnapshotStore.Proofs.Connection.Run
import SnapshotStore.Proofs.Store.Outlasting

/-!
Actions on two stores of which one keeps more of the past. Every action comes to the same on
both, unless on the shorter past it fails for want of a version.
-/

namespace SnapshotStore

/-! Failures for want of a version -/

namespace Store
variable {s : Store} {e : Error}

theorem snapshot_isBadVersion {v : Version} (h : s.snapshot v = .error e) :
    e.isBadVersion = true := by
  unfold snapshot at h
  split at h
  · simp at h
  · exact Except.error.inj h ▸ s.unavailable_isBadVersion v

theorem pin_isBadVersion {at? : Option Version} (h : s.pin at? = .error e) :
    e.isBadVersion = true :=
  snapshot_isBadVersion (map_eq_error.mp h)

theorem changesBetween_isBadVersion {a b : Version} (h : s.changesBetween a b = .error e) :
    e.isBadVersion = true := by
  unfold changesBetween at h
  split at h
  · exact Except.error.inj h ▸ rfl
  split at h
  · simp at h
  dsimp only at h
  split at h
  · exact Except.error.inj h ▸ rfl
  · simp at h

end Store

/-! Outcomes in two worlds -/

section Following
variable {σ α β : Type} {R : σ → σ → Prop}

/-- The second outcome is the first one over again, in a related state, unless the first one
is that a version is missing. -/
inductive Follows (R : σ → σ → Prop) :
    EStateM.Result Error σ α → EStateM.Result Error σ α → Prop
  | ok (x : α) {s t : σ} (related : R s t) : Follows R (.ok x s) (.ok x t)
  | error (e : Error) {s t : σ} (related : R s t) : Follows R (.error e s) (.error e t)
  | missing {e : Error} (bad : e.isBadVersion = true) (s : σ)
      (r : EStateM.Result Error σ α) : Follows R (.error e s) r

theorem Follows.elim {r r' : EStateM.Result Error σ α} (h : Follows R r r') :
    (∃ x s t, r = .ok x s ∧ r' = .ok x t ∧ R s t) ∨
    (∃ e s t, r = .error e s ∧ r' = .error e t ∧ R s t) ∨
    ∃ e s, r = .error e s ∧ e.isBadVersion = true := by
  cases h with
  | ok x related => exact .inl ⟨x, _, _, rfl, rfl, related⟩
  | error e related => exact .inr (.inl ⟨e, _, _, rfl, rfl, related⟩)
  | missing bad s => exact .inr (.inr ⟨_, s, rfl, bad⟩)

/-- From related states the outcomes are the same, unless a version is missing in the first. -/
def Repeats (R : σ → σ → Prop) (a : EStateM Error σ α) : Prop :=
  ∀ s t, R s t → Follows R (a s) (a t)

namespace Repeats
variable {a : EStateM Error σ α}

theorem pure (x : α) : Repeats R (pure x) := fun _ _ h => .ok x h

theorem throw (e : Error) : Repeats R (throw e : EStateM Error σ α) := fun _ _ h => .error e h

theorem bind {f : α → EStateM Error σ β} (h : Repeats R a) (hf : ∀ x, Repeats R (f x)) :
    Repeats R (a >>= f) := by
  intro s t hst
  rcases (h s t hst).elim with ⟨x, s', t', hs, ht, h'⟩ | ⟨e, s', t', hs, ht, h'⟩ | ⟨e, s', hs, bad⟩
  · rw [bind_of_ok hs, bind_of_ok ht]
    exact hf x s' t' h'
  · rw [bind_of_error hs, bind_of_error ht]
    exact .error e h'
  · rw [bind_of_error hs]
    exact .missing bad s' _

theorem map (h : Repeats R a) (f : α → β) : Repeats R (a >>= fun x => Pure.pure (f x)) :=
  h.bind fun x => pure (f x)

theorem mapM {f : α → EStateM Error σ β} (hf : ∀ x, Repeats R (f x)) (xs : List α) :
    Repeats R (xs.mapM f) := by
  induction xs with
  | nil =>
      rw [List.mapM_nil]
      exact pure []
  | cons x xs ih =>
      rw [List.mapM_cons]
      exact (hf x).bind fun y => ih.map (y :: ·)

end Repeats
end Following

namespace Connection

/-- The same context on two stores, of which the second keeps all that the first does. -/
inductive OutlastedBy : Connection → Connection → Prop
  | mk {s t : Store} (store : s.OutlastedBy t) (c : Context) : OutlastedBy ⟨s, c⟩ ⟨t, c⟩

/-- What the action does depends on the past only as far as it may miss a version. -/
abbrev Forgetful {α : Type} (a : Action α) : Prop := Repeats OutlastedBy a

variable {α : Type}

theorem ask_forgetful {f : Connection → Except Error α}
    (h : ∀ s t c, s.OutlastedBy t → f ⟨s, c⟩ = f ⟨t, c⟩) : Forgetful (ask f) := by
  rintro _ _ ⟨hst, c⟩
  simp only [ask, ← h _ _ c hst]
  cases f ⟨_, c⟩ with
  | ok x => exact .ok x ⟨hst, c⟩
  | error e => exact .error e ⟨hst, c⟩

/-! Questions, which are about the context and the identity of the store -/

section Questions
variable {s t : Store} (h : s.OutlastedBy t) (c : Context)
include h

theorem enclose_outlasted (p : Payload) (policy : HandoverPolicy) :
    enclose ⟨s, c⟩ p policy = enclose ⟨t, c⟩ p policy := by
  simp only [enclose, h.id_eq]

theorem checkEnvelope_outlasted (kind : PayloadKind) (e : Envelope) :
    checkEnvelope ⟨s, c⟩ kind e = checkEnvelope ⟨t, c⟩ kind e := by
  simp only [checkEnvelope, h.id_eq]

theorem evaluate_outlasted (q : Query) (r : Request) :
    evaluate ⟨s, c⟩ q r = evaluate ⟨t, c⟩ q r := by
  have hback : ∀ (u : Table) (found : Request.Found),
      handBack ⟨s, c⟩ u found = handBack ⟨t, c⟩ u found := by
    intro u found
    cases found with
    | row index? => cases index? <;> simp only [handBack, enclose_outlasted h]
    | view v => simp only [handBack, enclose_outlasted h]
    | count n | value v => rfl
  simp only [evaluate, hback]

theorem checkBatch_outlasted (items : List BatchItem) :
    checkBatch ⟨s, c⟩ items = checkBatch ⟨t, c⟩ items := by
  have hfrom : ∀ (items : List BatchItem) (v : Version) (position : Nat),
      checkBatchFrom ⟨s, c⟩ v position items = checkBatchFrom ⟨t, c⟩ v position items := by
    intro items
    induction items with
    | nil => exact fun _ _ => rfl
    | cons item rest ih =>
        intro v position
        simp only [checkBatchFrom, checkBatchItem, checkEnvelope_outlasted h, ih]
  cases items with
  | nil => rfl
  | cons first rest => simp only [checkBatch, hfrom]

end Questions

/-! Transitions -/

theorem beginRead_forgetful (at? : Option Version) : Forgetful (beginRead at?) := by
  rintro _ _ ⟨h, c⟩
  simp only [beginRead]
  cases hc : c.state with
  | reading v g | writing v g => exact .error _ ⟨h, c⟩
  | idle =>
      dsimp only
      split
      next v g s' hp =>
        obtain ⟨t', ht, h'⟩ := h.pin hp
        rw [ht]
        exact .ok v ⟨h', _⟩
      next e hp => exact .missing (Store.pin_isBadVersion hp) _ _

theorem endRead_forgetful : Forgetful endRead := by
  rintro _ _ ⟨h, c⟩
  simp only [endRead]
  cases hc : c.state with
  | reading v g => exact .ok () ⟨h.unpin v, _⟩
  | idle | writing v g => exact .error _ ⟨h, c⟩

theorem advance_forgetful (to? : Option Version) : Forgetful (advance to?) := by
  rintro _ _ ⟨h, c⟩
  simp only [advance]
  cases hc : c.state with
  | idle | writing v g => exact .error _ ⟨h, c⟩
  | reading v g =>
      rw [h.latest]
      generalize to?.getD _ = target
      dsimp only
      split
      · exact .missing rfl _ _
      split
      · exact .ok _ ⟨h, c⟩
      split
      next e hch => exact .missing (Store.changesBetween_isBadVersion hch) _ _
      next changes hch =>
        rw [h.changesBetween hch]
        dsimp only
        split
        next e hp => exact .missing (Store.pin_isBadVersion hp) _ _
        next w g' s' hp =>
          obtain ⟨t', ht, h'⟩ := h.pin hp
          rw [ht]
          exact .ok _ ⟨h'.unpin v, _⟩

theorem beginWrite_forgetful : Forgetful beginWrite := by
  rintro ⟨s, c⟩ ⟨t, _⟩ ⟨h, _⟩
  simp only [beginWrite]
  cases hc : c.state with
  | reading v g | writing v g => exact .error _ ⟨h, c⟩
  | idle =>
      dsimp only
      rw [h.writeTimeout?]
      rcases h.acquireWriter c.id s.settings.writeTimeout? with ⟨s', t', hs, ht, h'⟩ | ⟨e, hs, ht⟩
      · obtain ⟨g, hg, hg'⟩ := h'.snapshot_latest
        simp only [hs, ht, hg, hg', h'.latest]
        exact .ok _ ⟨h', _⟩
      · rw [hs, ht]
        exact .error e ⟨h, c⟩

theorem promote_forgetful : Forgetful promote := by
  rintro ⟨s, c⟩ ⟨t, _⟩ ⟨h, _⟩
  simp only [promote]
  cases hc : c.state with
  | idle | writing v g => exact .error _ ⟨h, c⟩
  | reading v g =>
      dsimp only
      rw [h.writeTimeout?]
      rcases h.acquireWriter c.id s.settings.writeTimeout? with ⟨s', t', hs, ht, h'⟩ | ⟨e, hs, ht⟩
      · obtain ⟨g', hg, hg'⟩ := h'.snapshot_latest
        simp only [hs, ht, hg, hg', h'.latest]
        cases hch : s'.changesBetween v s'.latest with
        | error e => exact .missing (Store.changesBetween_isBadVersion hch) _ _
        | ok changes =>
            rw [h'.changesBetween hch]
            exact .ok _ ⟨h'.unpin v, _⟩
      · rw [hs, ht]
        exact .error e ⟨h, c⟩

theorem finishWrite_forgetful (operation : String) (keepPinned : Bool) :
    Forgetful (finishWrite operation keepPinned) := by
  rintro _ _ ⟨h, c⟩
  simp only [finishWrite]
  cases hc : c.state with
  | idle | reading v g => exact .error _ ⟨h, c⟩
  | writing base g =>
      dsimp only
      rcases h.commit c.id base g keepPinned with ⟨v, s', t', hs, ht, h'⟩ | ⟨e, hs, ht⟩
      · rw [hs, ht]
        exact .ok v ⟨h'.releaseWriter c.id, _⟩
      · rw [hs, ht]
        exact .error e ⟨h.releaseWriter c.id, _⟩

theorem commit_forgetful : Forgetful commit := by
  intro c c' h
  simp only [commit]
  rcases (finishWrite_forgetful "commit" false c c' h).elim with
    ⟨v, _, _, hs, ht, ⟨h', d⟩⟩ | ⟨e, _, _, hs, ht, h'⟩ | ⟨e, c₁, hs, bad⟩
  · rw [hs, ht]
    exact .ok v ⟨h', d.enterIdle⟩
  · rw [hs, ht]
    exact .error e h'
  · rw [hs]
    exact .missing bad c₁ _

theorem commitAndRead_forgetful : Forgetful commitAndRead := by
  intro c c' h
  simp only [commitAndRead]
  rcases (finishWrite_forgetful "commit_and_continue_as_read" true c c' h).elim with
    ⟨v, _, _, hs, ht, ⟨h', d⟩⟩ | ⟨e, _, _, hs, ht, h'⟩ | ⟨e, c₁, hs, bad⟩
  · rw [hs, ht]
    dsimp only
    split
    next g hg =>
      rw [h'.snapshot hg]
      exact .ok v ⟨h', _⟩
    next e he => exact .missing (Store.snapshot_isBadVersion he) _ _
  · rw [hs, ht]
    exact .error e h'
  · rw [hs]
    exact .missing bad c₁ _

theorem rollback_forgetful : Forgetful rollback := by
  rintro _ _ ⟨h, c⟩
  simp only [rollback]
  cases hc : c.state with
  | writing base g => exact .ok () ⟨h.releaseWriter c.id, _⟩
  | idle | reading v g => exact .error _ ⟨h, c⟩

theorem rollbackAndRead_forgetful : Forgetful rollbackAndRead := by
  rintro _ _ ⟨h, c⟩
  simp only [rollbackAndRead]
  cases hc : c.state with
  | idle | reading v g => exact .error _ ⟨h, c⟩
  | writing base g =>
      dsimp only
      split
      next v g' s' hp =>
        obtain ⟨t', ht, h'⟩ := h.pin hp
        rw [ht]
        exact .ok v ⟨h'.releaseWriter c.id, _⟩
      next e hp => exact .missing (Store.pin_isBadVersion hp) _ _

theorem perform_forgetful (t : Transition) : Forgetful t.perform := by
  cases t with
  | beginRead at? => exact (beginRead_forgetful at?).map _
  | endRead => exact endRead_forgetful.map _
  | advance to? => exact (advance_forgetful to?).map _
  | beginWrite => exact beginWrite_forgetful.map _
  | promote => exact promote_forgetful.map _
  | commit => exact commit_forgetful.map _
  | commitAndRead => exact commitAndRead_forgetful.map _
  | rollback => exact rollback_forgetful.map _
  | rollbackAndRead => exact rollbackAndRead_forgetful.map _

theorem edit_forgetful (e : Edit) : Forgetful (Connection.edit e) := by
  rintro _ _ ⟨h, c⟩
  simp only [Connection.edit]
  cases hc : c.state with
  | idle | reading v g => exact .error _ ⟨h, c⟩
  | writing base g =>
      dsimp only
      split
      · exact .ok _ ⟨h, _⟩
      · exact .error _ ⟨h, _⟩

theorem close_outlasted {c c' : Connection} (h : c.OutlastedBy c') :
    c.close.OutlastedBy c'.close := by
  obtain ⟨hst, d⟩ := h
  simp only [close]
  cases d.state with
  | idle => exact hst
  | reading v g => exact hst.unpin v
  | writing base g => exact hst.releaseWriter d.id

/-! Handing over -/

theorem syncTo_forgetful (v : Version) : Forgetful (syncTo v) := by
  rintro ⟨s, c⟩ ⟨t, _⟩ ⟨h, _⟩
  simp only [syncTo]
  cases hc : c.state with
  | idle => exact (beginRead_forgetful (some v)).map (fun _ => ()) _ _ ⟨h, c⟩
  | writing base g => exact .error _ ⟨h, c⟩
  | reading current g =>
      dsimp only
      split
      · exact (advance_forgetful (some v)).map (fun _ => ()) _ _ ⟨h, c⟩
      split
      · exact .ok () ⟨h, c⟩
      · exact .missing rfl _ _

theorem importAs_forgetful (kind : PayloadKind) (e : Envelope) : Forgetful (importAs kind e) :=
  (ask_forgetful fun _ _ c h => checkEnvelope_outlasted h c kind e).bind fun _ =>
    (syncTo_forgetful e.version).bind fun _ =>
      (ask_forgetful fun _ _ _ _ => rfl).bind fun _ => .pure _

theorem importQuery_forgetful (e : Envelope) : Forgetful (importQuery e) :=
  (importAs_forgetful .query e).bind fun p => by
    cases p with
    | query q => exact .pure q
    | row l | view v => exact .throw _

theorem releaseRead_forgetful (operation : String) : Forgetful (releaseRead operation) := by
  rintro _ _ ⟨h, c⟩
  simp only [releaseRead]
  cases hc : c.state with
  | idle => exact .ok () ⟨h, c⟩
  | reading v g => exact endRead_forgetful _ _ ⟨h, c⟩
  | writing base g => exact .error _ ⟨h, c⟩

theorem pinExported_forgetful (target : Version) : Forgetful (pinExported target) :=
  (beginRead_forgetful none).bind fun fresh => by
    split
    · exact .pure _
    · exact endRead_forgetful.bind fun _ => (beginRead_forgetful (some target)).map _

theorem endReadOnError_forgetful {body : Action α} (h : Forgetful body) :
    Forgetful (endReadOnError body) := by
  intro c c' hc
  simp only [endReadOnError]
  rcases (h c c' hc).elim with
    ⟨x, _, _, hs, ht, h'⟩ | ⟨e, _, _, hs, ht, ⟨h', d⟩⟩ | ⟨e, c₁, hs, bad⟩
  · rw [hs, ht]
    exact .ok x h'
  · -- Whether there is a read to end is the same in both.
    rw [hs, ht]
    simp only [endRead]
    cases d.state with
    | reading v g => exact .error e ⟨h'.unpin v, d.enterIdle⟩
    | idle | writing v g => exact .error e ⟨h', d⟩
  · rw [hs]
    dsimp only
    split <;> exact .missing bad _ _

theorem runQuery_forgetful (e : Envelope) (r : Request) : Forgetful (runQuery e r) := by
  refine (ask_forgetful fun _ _ c h => checkEnvelope_outlasted h c .query e).bind fun _ =>
    (releaseRead_forgetful _).bind fun _ => (pinExported_forgetful _).bind fun historical =>
      endReadOnError_forgetful ((importQuery_forgetful e).bind fun q => ?_)
  have hanswer : Forgetful (do
      let response ← ask (·.evaluate q r)
      return (← ask (·.currentVersion), response)) :=
    (ask_forgetful fun _ _ c h => evaluate_outlasted h c q r).bind fun _ =>
      (ask_forgetful fun _ _ _ _ => rfl).map _
  split
  · exact (advance_forgetful none).bind fun a => (ask_forgetful fun _ _ _ _ => rfl).bind fun _ =>
      hanswer
  · exact hanswer

theorem runBatch_forgetful (items : List BatchItem) : Forgetful (runBatch items) := by
  refine (ask_forgetful fun _ _ c h => checkBatch_outlasted h c items).bind fun v =>
    (releaseRead_forgetful _).bind fun _ => (beginRead_forgetful (some v)).bind fun _ =>
      endReadOnError_forgetful ?_
  refine (Repeats.mapM (fun item => ?_) items).bind fun queries => ?_
  · exact (importQuery_forgetful item.envelope).map _
  · refine (advance_forgetful none).bind fun a =>
      (ask_forgetful fun _ _ _ _ => rfl).bind fun _ => ?_
    refine (ask_forgetful fun s t c h => ?_).bind fun _ => (ask_forgetful fun _ _ _ _ => rfl).map _
    exact mapM_congr fun _ _ => evaluate_outlasted h c _ _

end Connection
end SnapshotStore
