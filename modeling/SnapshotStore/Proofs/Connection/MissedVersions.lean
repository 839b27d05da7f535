import SnapshotStore.Proofs.Connection.Faultless
import SnapshotStore.Proofs.Imports

/-!
Which version is to blame. A store that cannot give a version out blames the one that it was asked
for, and so does the change log, but for versions that do not exist yet: then it blames the one to
start from. Contexts pass the blame on.
-/

namespace SnapshotStore

/-- If the error blames a version, it is one of these. -/
def Error.Blames (P : Version → Prop) : Error → Prop
  | badVersion u _ => P u
  | _ => True

namespace Error
variable {P Q : Version → Prop} {e : Error}

theorem Blames.mono (he : e.Blames P) (h : ∀ u, P u → Q u) : e.Blames Q := by
  cases e <;> first | exact h _ he | trivial

theorem blames_of_isComplaint (h : e.isComplaint = true) : e.Blames P := by
  cases e <;> trivial

end Error

theorem FailsBy.blames {α : Type} {P : Version → Prop} {x : Except Error α} (h : Complains x) :
    FailsBy (Error.Blames P) x := h.mono fun _ => Error.blames_of_isComplaint

/-! Stores -/

namespace Store
variable {s : Store} {l : Ledger} {u v : Version} {g : Group}

theorem snapshot_blames (s : Store) (v : Version) :
    FailsBy (Error.Blames (v = ·)) (s.snapshot v) := by
  unfold snapshot
  split
  · exact .ok _
  · obtain ⟨reason, hreason⟩ := s.unavailable_eq v
    exact hreason ▸ .error rfl

/-- The latest version can always be pinned. -/
theorem Exact.pin_blames (hs : s.Exact l) (at? : Option Version) :
    FailsBy (Error.Blames (at? = some ·)) (s.pin at?) := by
  cases at? with
  | none =>
      obtain ⟨g, hg, -⟩ := hs.complete.latest_kept
      simp only [pin, snapshot, Option.getD_none, hg]
      exact .ok _
  | some v => exact ((s.snapshot_blames v).mono fun e he => he.mono fun u => congrArg some).map _

/-- The log reaches from a version that is kept to the latest. -/
theorem Exact.changesBetween_latest (hs : s.Exact l) (hu : s.snapshots.get? u = some g) :
    ∃ changes, s.changesBetween u s.latest = .ok changes := by
  have hle : u ≤ s.latest := ((hs.retained u).mp (Option.isSome_of_eq_some hu)).2.1
  refine (hs.changesBetween_ok_iff u s.latest).mpr ?_
  exact (Nat.eq_or_lt_of_le hle).imp_right fun hlt => ⟨oldest_le hu, hlt, Nat.le_refl _⟩

theorem Exact.changesBetween_blames (hs : s.Exact l) (hu : s.snapshots.get? u = some g)
    (v : Version) : FailsBy (Error.Blames fun x => v = x ∨ s.latest < v ∧ u = x)
      (s.changesBetween u v) := by
  rcases Nat.lt_trichotomy u v with hlt | rfl | hlt
  · rw [hs.changesBetween_eq hlt]
    split
    · exact .ok _
    next hreach => exact .error (.inr ⟨Nat.lt_of_not_le fun hle => hreach ⟨oldest_le hu, hle⟩, rfl⟩)
  · simp only [changesBetween, Nat.lt_irrefl, if_false, if_true]
    exact .ok _
  · simp only [changesBetween, hlt, if_true]
    exact .error (.inl rfl)

end Store

namespace Connection
variable {c c' : Connection} {s : Store} {d : Context} {l : Ledger} {u v : Version} {g : Group}

/-- The store goes by a ledger, and has what the context reads or started to write from. -/
structure Supplied (c : Connection) : Prop where
  exact : ∃ l, Store.Exact c.store l
  reads : ∀ v g, c.context.state = .reading v g → c.store.snapshots.get? v = some g
  writes : c.Publishable

/-! Transitions -/

theorem refuse_blames {α : Type} {P : Version → Prop} (operation : String) (c : Connection) :
    ErrsBy (Error.Blames P) (refuse operation c : EStateM.Result Error Connection α) :=
  .error (by trivial) c

theorem beginRead_blames (hs : c.store.Exact l) (at? : Option Version) :
    ErrsBy (Error.Blames (at? = some ·)) (beginRead at? c) := by
  unfold beginRead
  split
  · split
    · exact .ok _ _
    next e he => exact .error (hs.pin_blames at? e he) c
  · exact refuse_blames _ c

/-- The read is to be moved past the latest version; it is at this one. -/
def Overshoots (c : Connection) (to? : Option Version) (u : Version) : Prop :=
  ∃ v g, to? = some v ∧ c.store.latest < v ∧ c.context.state = .reading u g

theorem advance_blames (h : c.Supplied) (to? : Option Version) :
    ErrsBy (Error.Blames fun u => to? = some u ∨ c.Overshoots to? u) (advance to? c) := by
  obtain ⟨l, hs⟩ := h.exact
  unfold advance
  split
  next current g hstate =>
    have hkept := h.reads current g hstate
    cases to? with
    | none =>
        obtain ⟨changes, hchanges⟩ := hs.changesBetween_latest hkept
        obtain ⟨gl, hgl, -⟩ := hs.complete.latest_kept
        have hle : ¬c.store.latest < current :=
          Nat.not_lt_of_le ((hs.retained current).mp (Option.isSome_of_eq_some hkept)).2.1
        simp only [Option.getD_none, hle, if_false, hchanges, Store.pin, Store.snapshot,
          Option.getD_some, hgl, Except.map]
        split <;> exact .ok _ _
    | some v =>
        dsimp only [Option.getD_some]
        split
        · exact .error (.inl rfl) c
        · split
          · exact .ok _ _
          · split
            next e he =>
              refine .error ((hs.changesBetween_blames hkept v e he).mono fun u hu => ?_) c
              rcases hu with rfl | ⟨hlt, rfl⟩
              · exact .inl rfl
              · exact .inr ⟨v, g, rfl, hlt, hstate⟩
            next =>
              split
              next e he => exact .error ((hs.pin_blames (some v) e he).mono fun u => .inl) c
              next => exact .ok _ _
  next => exact refuse_blames _ c

/-- A read that overshoots blames the version that it is at. -/
theorem advance_overshooting (h : c.Supplied) (hstate : c.context.state = .reading u g)
    (hlt : c.store.latest < v) : u < v ∧ advance (some v) c =
      .error (.badVersion u "its change log has been compacted") c := by
  obtain ⟨l, hs⟩ := h.exact
  have hle : u ≤ c.store.latest :=
    ((hs.retained u).mp (Option.isSome_of_eq_some (h.reads u g hstate))).2.1
  have huv : u < v := Nat.lt_of_le_of_lt hle hlt
  have hchanges := hs.changesBetween_eq huv
  rw [if_neg fun hreach => Nat.not_lt_of_le hreach.2 hlt] at hchanges
  refine ⟨huv, ?_⟩
  simp only [advance, hstate, Option.getD_some, if_neg (Nat.lt_asymm huv),
    if_neg (Nat.ne_of_gt huv), hchanges]

section Elsewhere
variable {P : Version → Prop}

theorem acquireWriter_blames (s : Store) (context : ContextId) (timeout? : Option Nat) :
    FailsBy (Error.Blames P) (s.acquireWriter context timeout?) := by
  unfold Store.acquireWriter
  split
  · exact .ok _
  · exact .ite (.error (by trivial)) (.error (by trivial))

theorem beginWrite_blames (hs : c.store.Exact l) : ErrsBy (Error.Blames P) (beginWrite c) := by
  unfold beginWrite
  split
  · split
    next e he => exact .error (acquireWriter_blames _ _ _ e he) c
    next s hacquire =>
      obtain ⟨-, rfl⟩ := Store.acquireWriter_eq_ok hacquire
      obtain ⟨g, hg, -⟩ := hs.complete.latest_kept
      simp only [Store.snapshot, hg]
      exact .ok _ _
  · exact refuse_blames _ c

theorem promote_blames (h : c.Supplied) : ErrsBy (Error.Blames P) (promote c) := by
  obtain ⟨l, hs⟩ := h.exact
  unfold promote
  split
  next current g hstate =>
    split
    next e he => exact .error (acquireWriter_blames _ _ _ e he) c
    next s hacquire =>
      obtain ⟨-, rfl⟩ := Store.acquireWriter_eq_ok hacquire
      obtain ⟨gl, hgl, -⟩ := hs.complete.latest_kept
      obtain ⟨changes, hchanges⟩ :=
        (hs.writer (some c.context.id)).changesBetween_latest (h.reads current g hstate)
      dsimp only at hchanges
      simp only [hchanges, Store.snapshot, hgl]
      exact .ok _ _
  · exact refuse_blames _ c

theorem endRead_blames (c : Connection) : ErrsBy (Error.Blames P) (endRead c) := by
  unfold endRead
  split
  · exact .ok _ _
  · exact refuse_blames _ c

theorem rollback_blames (c : Connection) : ErrsBy (Error.Blames P) (rollback c) := by
  unfold rollback
  split
  · exact .ok _ _
  · exact refuse_blames _ c

/-- A write can be published, and what it makes can be read. -/
theorem commit_blames (hc : c.Publishable) : ErrsBy (Error.Blames P) (commit c) := by
  cases hstate : c.context.state with
  | writing base g =>
      obtain ⟨s, hs⟩ := hc.commit_ok hstate false
      obtain ⟨c₁, hok⟩ := commit_ok hstate hs
      exact hok ▸ .ok _ _
  | idle | reading v g =>
      simp only [commit, finishWrite, hstate]
      exact refuse_blames _ c

theorem commitAndRead_blames (hc : c.Publishable) : ErrsBy (Error.Blames P) (commitAndRead c) := by
  cases hstate : c.context.state with
  | writing base g =>
      obtain ⟨s, hs⟩ := hc.commit_ok hstate true
      obtain ⟨c₁, hok⟩ := commitAndRead_ok hstate hs
      exact hok ▸ .ok _ _
  | idle | reading v g =>
      simp only [commitAndRead, finishWrite, hstate]
      exact refuse_blames _ c

/-- What a write started from is kept. -/
theorem rollbackAndRead_blames (hc : c.Publishable) :
    ErrsBy (Error.Blames P) (rollbackAndRead c) := by
  unfold rollbackAndRead
  split
  next base g writing =>
    obtain ⟨-, -, hkept⟩ := hc base g writing
    obtain ⟨f, hf⟩ := Option.isSome_iff_exists.mp hkept
    simp only [Store.pin, Store.snapshot, Option.getD_some, hf, Except.map]
    exact .ok _ _
  · exact refuse_blames _ c

end Elsewhere

end Connection

/-- The version that the caller of a transition asks for. -/
def Transition.target? : Transition → Option Version
  | beginRead at? => at?
  | advance to? => to?
  | _ => none

namespace Connection
variable {c c' : Connection} {s : Store} {d : Context} {l : Ledger} {u v : Version} {g : Group}

/-- A transition that blames a version blames the one it is asked for, or overshoots. -/
theorem perform_blames (h : c.Supplied) (t : Transition) :
    ErrsBy (Error.Blames fun u => t.target? = some u ∨
      ∃ to?, t = .advance to? ∧ c.Overshoots to? u) (t.perform c) := by
  obtain ⟨l, hs⟩ := h.exact
  cases t with
  | beginRead at? =>
      exact .bind ((beginRead_blames hs at?).mono fun e he => he.mono fun u => .inl)
        fun _ _ _ => .ok _ _
  | advance to? =>
      refine .bind ((advance_blames h to?).mono fun e he => he.mono fun u hu => ?_)
        fun _ _ _ => .ok _ _
      exact hu.imp_right fun hu => ⟨to?, rfl, hu⟩
  | endRead => exact (endRead_blames c).bind fun _ _ _ => .ok _ _
  | beginWrite => exact (beginWrite_blames hs).bind fun _ _ _ => .ok _ _
  | promote => exact (promote_blames h).bind fun _ _ _ => .ok _ _
  | commit => exact (commit_blames h.writes).bind fun _ _ _ => .ok _ _
  | commitAndRead => exact (commitAndRead_blames h.writes).bind fun _ _ _ => .ok _ _
  | rollback => exact (rollback_blames c).bind fun _ _ _ => .ok _ _
  | rollbackAndRead => exact (rollbackAndRead_blames h.writes).bind fun _ _ _ => .ok _ _

/-! Envelopes -/

section Imports
variable {e : Envelope} {q : Query} {groups : List Group}

theorem syncTo_blames (h : c.Supplied) (hle : v ≤ c.store.latest) :
    ErrsBy (Error.Blames (· = v)) (syncTo v c) := by
  obtain ⟨l, hs⟩ := h.exact
  have hsome : ∀ {u}, some v = some u → u = v := fun hu => (Option.some.inj hu).symm
  unfold syncTo
  split
  · exact ((beginRead_blames hs (some v)).mono fun e he => he.mono fun u => hsome).bind
      fun _ _ _ => .ok _ _
  · split
    · refine ((advance_blames h (some v)).mono fun e he => he.mono fun u hu => ?_).bind
        fun _ _ _ => .ok _ _
      rcases hu with hu | ⟨w, g, hw, hlt, -⟩
      · exact hsome hu
      · obtain rfl := Option.some.inj hw
        exact absurd hle (Nat.not_le_of_lt hlt)
    · split
      · exact .ok _ _
      · exact .error (by rfl) c
  · exact .error (by trivial) c

/-- An import blames the version on the envelope. -/
theorem importAs_blames (h : c.Supplied) (hle : e.version ≤ c.store.latest) (kind : PayloadKind) :
    ErrsBy (Error.Blames (· = e.version)) (importAs kind e c) := by
  refine (ask_errsBy (c.checkEnvelope_complains kind e).blames).bind fun _ c₁ hask => ?_
  obtain ⟨-, rfl⟩ := ask_run_ok.mp hask
  refine (syncTo_blames h hle).bind fun _ c₂ _ => .bind (ask_errsBy ?_) fun _ _ _ => .ok _ _
  exact (c₂.context.group_complains.bind fun g _ => e.payload.check_complains g).blames

theorem importQuery_blames (h : c.Supplied) (hle : e.version ≤ c.store.latest) :
    ErrsBy (Error.Blames (· = e.version)) (importQuery e c) := by
  refine (importAs_blames h hle .query).bind fun p c' _ => ?_
  cases p with
  | query q => exact .ok q c'
  | row l | view v => exact .error (by trivial) c'

/-- An import into the version on the envelope stays there. -/
theorem importQuery_in_place (hc : c.context.state = .reading e.version g)
    (h : importQuery e c = .ok q c') : c' = c := by
  have hsync : syncTo e.version c = .ok () c := by
    simp [syncTo, hc]
  simp only [importQuery, importAs, bind_run_ok, pure_run_ok, ask_run_ok] at h
  obtain ⟨p, _, ⟨_, _, ⟨-, rfl⟩, _, c₁, hthere, _, _, ⟨-, rfl⟩, -, rfl⟩, h⟩ := h
  obtain ⟨-, rfl⟩ := EStateM.Result.ok.inj (hsync.symm.trans hthere)
  cases p with
  | query q => exact (pure_run_ok.mp h).2.symm
  | row l | view v => cases h

theorem Reading.supplied (h : Reading groups c v g) : c.Supplied where
  exact := h.exact.imp fun _ hl => hl.1
  reads w f hstate := by
    obtain ⟨rfl, rfl⟩ := TransactionState.reading.inj (h.state.symm.trans hstate)
    exact h.kept
  writes base f hstate := by
    have hreads := h.state
    rw [hstate] at hreads
    cases hreads

theorem importQuery_of_reading (h : Reading groups c v g) (he : e.version = v) :
    ErrsBy (Error.Blames (· = v)) (importQuery e c) ∧
      ∀ q c', importQuery e c = .ok q c' → c' = c := by
  subst he
  exact ⟨importQuery_blames h.supplied h.le_latest, fun q c' => importQuery_in_place h.state⟩

end Imports

/-! Runs -/

section Runs
variable {α β : Type} {e : Envelope} {ch : Chronicle} {P : Error → Prop}

theorem pinExported_blames (hs : s.Exact l) (idle : d.state = .idle) :
    ErrsBy (Error.Blames (· = v)) (pinExported v ⟨s, d⟩) := by
  obtain ⟨c₁, d', hbegin, hend, -, hexact, -⟩ := glance hs idle
  unfold pinExported
  rw [bind_of_ok hbegin]
  split
  · exact .ok _ _
  · rw [bind_of_ok hend]
    have hbegin := beginRead_blames (c := ⟨_, d'⟩) hexact (some v)
    exact (hbegin.mono fun e he => he.mono fun u hu => (Option.some.inj hu).symm).bind
      fun _ _ _ => .ok _ _

theorem pinExported_reading {historical : Bool} (hs : s.Exact l) (idle : d.state = .idle)
    (h : pinExported v ⟨s, d⟩ = .ok historical c) : ∃ g, Reading l.groups c v g := by
  cases hv : s.snapshots.get? v with
  | none =>
      obtain ⟨e, c', hfails, -⟩ := pinExported_of_not_kept hs idle hv
      exact absurd (hfails.symm.trans h) (by simp)
  | some g =>
      obtain ⟨c', hpin, hreads, -⟩ := pinExported_of_kept hs idle hv
      exact ⟨g, (EStateM.Result.ok.inj (hpin.symm.trans h)).2 ▸ hreads⟩

theorem beginRead_reading {w : Version} (hs : s.Exact l) (idle : d.state = .idle)
    (h : beginRead (some v) ⟨s, d⟩ = .ok w c) : ∃ g, Reading l.groups c v g := by
  cases hv : s.snapshots.get? v with
  | none => exact absurd ((beginRead_of_not_kept idle hv).symm.trans h) (by simp)
  | some g =>
      have hbegin := beginRead_of_kept (v := v) (some v) idle rfl hv
      obtain ⟨-, rfl⟩ := EStateM.Result.ok.inj (hbegin.symm.trans h)
      exact ⟨g, rfl, hv, _, hs.addPin hv, rfl⟩

/-- The context is free for the work when it begins. -/
theorem lend_errsBy {check : Connection → Except Error β} {operation : String}
    {work : β → Action α} (hstate : ∀ text, P (.invalidState text)) (hcheck : FailsBy P (check c))
    (hwork : ∀ x d, check c = .ok x → d.state = .idle → ErrsBy P (work x ⟨c.close, d⟩)) :
    ErrsBy P (lend check operation work c) := by
  refine (ask_errsBy hcheck).bind fun x c₁ hask => ?_
  obtain ⟨hx, rfl⟩ := ask_run_ok.mp hask
  cases hw : c.context.isWriting with
  | false =>
      obtain ⟨d, hrelease, hidle⟩ := releaseRead_of_not_writing operation hw
      rw [bind_of_ok hrelease]
      exact hwork x d hx hidle
  | true =>
      obtain ⟨base, g, writing⟩ := (isWriting_iff _).mp hw
      refine .bind ?_ fun _ _ hrelease => ?_
      · simp only [releaseRead, writing]
        exact .error (hstate _) c
      · simp [releaseRead, writing] at hrelease

/-- Moving on to the latest version and working there blames no version. -/
theorem advance_then_errsBy {P : Version → Prop} {f : Advance → Action α} (hch : ch.Sound)
    (hreads : Reading ch.groups c v g)
    (hf : ∀ a c', c'.context.isReading → ErrsBy (Error.Blames P) (f a c')) :
    ErrsBy (Error.Blames P) ((advance none >>= f) c) := by
  obtain ⟨l, hs, hl⟩ := hreads.exact
  obtain ⟨gl, -, hgl⟩ := hs.complete.latest_kept
  obtain ⟨a, c', hadvance, hstate, -⟩ := advance_to_latest hch hreads (hl ▸ hgl)
  rw [bind_of_ok hadvance]
  exact hf a c' (Context.isReading_of_reading hstate)

/-- A run blames the version on the envelope. Once the context reads that, it can only move on. -/
theorem runQuery_blames (hch : ch.Sound) (hs : c.close.Exact l) (hl : l.groups = ch.groups)
    (e : Envelope) (r : Request) : ErrsBy (Error.Blames (· = e.version)) (runQuery e r c) := by
  rw [runQuery_eq_lend]
  refine lend_errsBy (fun _ => trivial) (c.checkEnvelope_complains .query e).blames
    fun _ d _ idle => ?_
  refine (pinExported_blames hs idle).bind fun historical c₁ hpin => endReadOnError_errsBy ?_
  obtain ⟨g, hreads⟩ := pinExported_reading hs idle hpin
  rw [hl] at hreads
  obtain ⟨himport, hstays⟩ := importQuery_of_reading hreads (e := e) rfl
  refine himport.bind fun q c₂ hq => ?_
  obtain rfl := hstays q c₂ hq
  split
  · refine advance_then_errsBy hch hreads fun a c₃ hreading => ?_
    refine (ask_errsBy (c₃.checkStillValid_complains q a).blames).bind fun _ c₄ hvalid => ?_
    obtain ⟨-, rfl⟩ := ask_run_ok.mp hvalid
    exact conclude_errsBy hreading (c₃.evaluate_complains q r).blames
  · exact conclude_errsBy (Context.isReading_of_reading hreads.state)
      (c₂.evaluate_complains q r).blames

end Runs
end Connection

/-! Batches -/

/-- What a batch from these versions can fail for: the version of them all, or one that is not
that of the first. -/
def Version.AtIssue (versions : List Version) (u : Version) : Prop :=
  u ∈ versions ∧ ((∀ v ∈ versions, v = u) ∨ versions.head? ≠ some u)

namespace Connection
variable {c : Connection} {l : Ledger} {v : Version} {items : List BatchItem} {ch : Chronicle}

theorem checkBatchItem_blames (c : Connection) (v : Version) (position : Nat) (e : Envelope) :
    FailsBy (Error.Blames fun u => e.version = u ∧ u ≠ v) (c.checkBatchItem v position e) := by
  unfold checkBatchItem
  refine .stop trivial <| (c.checkEnvelope_complains .query e).blames.bind fun _ _ => ?_
  split
  next hne => exact .error ⟨rfl, hne⟩
  next => exact .ok ()

theorem checkBatchFrom_blames (c : Connection) (v : Version) (items : List BatchItem)
    (position : Nat) : FailsBy (Error.Blames fun u =>
      (∃ item ∈ items, item.envelope.version = u) ∧ u ≠ v) (c.checkBatchFrom v position items) := by
  induction items generalizing position with
  | nil => exact .ok ()
  | cons item rest ih =>
      unfold checkBatchFrom
      split
      · refine (ih (position + 1)).mono fun e he => he.mono fun u hu => hu.imp_left ?_
        exact fun ⟨other, hother, hu⟩ => ⟨other, List.mem_cons_of_mem _ hother, hu⟩
      next e he =>
        refine .error ((c.checkBatchItem_blames v position _ e he).mono fun u hu => ?_)
        exact hu.imp_left fun hu => ⟨item, List.mem_cons_self, hu⟩

/-- A batch that is not from one version is blamed on a version that the first entry does not
have. -/
theorem checkBatch_blames (c : Connection) (items : List BatchItem) :
    FailsBy (Error.Blames (Version.AtIssue (items.map (·.envelope.version))))
      (c.checkBatch items) := by
  cases items with
  | nil => exact .error trivial
  | cons first rest =>
      refine ((c.checkBatchFrom_blames _ _ 0).mono fun e he => he.mono fun u hu => ?_).map _
      obtain ⟨⟨item, hitem, rfl⟩, hne⟩ := hu
      exact ⟨List.mem_map_of_mem hitem, .inr fun hu => hne (Option.some.inj hu).symm⟩

theorem checkBatchFrom_versions {position : Nat} (h : c.checkBatchFrom v position items = .ok ()) :
    ∀ item ∈ items, item.envelope.version = v := by
  induction items generalizing position with
  | nil => exact List.forall_mem_nil _
  | cons item rest ih =>
      unfold checkBatchFrom at h
      split at h
      next hitem =>
        refine List.forall_mem_cons.mpr ⟨?_, ih h⟩
        refine Classical.byContradiction fun (hne : item.envelope.version ≠ v) => ?_
        rw [checkBatchItem, if_pos hne] at hitem
        split at hitem <;> simp at hitem
      next => simp at h

theorem checkBatch_versions (h : c.checkBatch items = .ok v) :
    v ∈ items.map (·.envelope.version) ∧ ∀ item ∈ items, item.envelope.version = v := by
  cases items with
  | nil => simp [checkBatch] at h
  | cons first rest =>
      obtain ⟨_, hfrom, rfl⟩ := map_eq_ok.mp h
      exact ⟨List.mem_map_of_mem List.mem_cons_self, checkBatchFrom_versions hfrom⟩

/-- A batch blames a version that is at issue in it. -/
theorem runBatch_blames (hch : ch.Sound) (hs : c.close.Exact l) (hl : l.groups = ch.groups)
    (items : List BatchItem) :
    ErrsBy (Error.Blames (Version.AtIssue (items.map (·.envelope.version))))
      (runBatch items c) := by
  rw [runBatch_eq_lend]
  refine lend_errsBy (fun _ => trivial) (c.checkBatch_blames items) fun v d hcheck idle => ?_
  obtain ⟨hmem, hversions⟩ := checkBatch_versions hcheck
  have hissue : ∀ u, u = v → Version.AtIssue (items.map (·.envelope.version)) u := by
    rintro u rfl
    exact ⟨hmem, .inl (List.forall_mem_map.mpr hversions)⟩
  have hbegin := beginRead_blames (c := ⟨c.close, d⟩) hs (some v)
  refine (hbegin.mono fun e he => he.mono fun u hu => hissue u (Option.some.inj hu).symm).bind
    fun _ c₁ hok => endReadOnError_errsBy ?_
  obtain ⟨g, hreads⟩ := beginRead_reading hs idle hok
  rw [hl] at hreads
  have hitem : ∀ item ∈ items, ErrsBy (Error.Blames (· = v))
      ((do return (← importQuery item.envelope, item.request) : Action (Query × Request)) c₁) ∧
      ∀ y c', (do return (← importQuery item.envelope, item.request) :
        Action (Query × Request)) c₁ = .ok y c' → c' = c₁ := by
    intro item hitem
    obtain ⟨himport, hstays⟩ := importQuery_of_reading hreads (hversions item hitem)
    refine ⟨himport.bind fun _ _ _ => .ok _ _, fun y c' hy => ?_⟩
    simp only [bind_run_ok, pure_run_ok] at hy
    obtain ⟨q, c₂, hq, -, rfl⟩ := hy
    exact hstays q c₂ hq
  obtain ⟨himports, hstays⟩ := ErrsBy.mapM_in_place hitem
  refine (himports.mono fun e he => he.mono hissue).bind fun queries c₂ hqueries => ?_
  obtain rfl := hstays queries c₂ hqueries
  refine advance_then_errsBy hch hreads fun a c₃ hreading => ?_
  have hvalid := FailsBy.forM (fun p => c₃.checkStillValid_complains p.1 a) queries
  refine (ask_errsBy hvalid.blames).bind fun _ c₄ hask => ?_
  obtain ⟨-, rfl⟩ := ask_run_ok.mp hask
  exact conclude_errsBy hreading
    (FailsBy.mapM (fun p => c₃.evaluate_complains p.1 p.2) queries).blames

end Connection
end SnapshotStore
