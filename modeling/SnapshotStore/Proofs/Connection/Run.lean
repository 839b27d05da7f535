import SnapshotStore.Handover.Batch
import SnapshotStore.Proofs.Connection.Answer
import SnapshotStore.Proofs.Connection.Handover
import SnapshotStore.Proofs.World

/-!
Runs of what was handed over. Whether the worker reads the latest version from the start or
comes to it from the version of the export, it gives the answers of the latest version, and goes
on reading it if they are good.
-/

namespace SnapshotStore

/-! Failures of a run -/

/-- Fail unless the version has the table of the query with the columns it was made for. -/
def Query.checkKept (q : Query) (g : Group) : Except Error Unit :=
  if g.keeps q.table q.schemaEpoch then .ok ()
  else .error (.schemaChanged "Query"
    (((g.table? q.table).map (·.name)).getD (TableKey.text q.table)))

/-- The answers of a version to several requests, all queries checked before. -/
def Request.answers (asks : List (Query × Request)) (store : String) (v : Version) (g : Group) :
    Except Error (List Response) := do
  asks.forM fun (q, _) => q.checkKept g
  asks.mapM fun (q, r) => r.answer q store v g

theorem Request.answers_complains (asks : List (Query × Request)) (store : String) (v : Version)
    (g : Group) : Complains (Request.answers asks store v g) := by
  have hkept : ∀ q : Query, Complains (q.checkKept g) := fun q => .ite (.ok ()) (.error rfl)
  exact (FailsBy.forM (fun (q, _) => hkept q) asks).bind fun _ _ =>
    .mapM (fun (q, r) => r.answer_complains q store v g) asks

theorem Payload.keeps_of_check {q : Query} {g : Group} (h : (Payload.query q).check g = .ok ()) :
    g.keeps q.table q.schemaEpoch := by
  unfold Payload.check at h
  split at h
  next hany =>
    obtain ⟨t, ht, hsuits⟩ := (Option.any_eq_true _ _).mp hany
    simp only [Payload.suits, Payload.schemaEpoch, Bool.and_true] at hsuits
    exact Group.keeps_iff.mpr ⟨t, ht, of_decide_eq_true hsuits⟩
  next => simp at h

theorem Store.unavailable_isBadVersion (s : Store) (v : Version) :
    (s.unavailable v).isBadVersion = true := by
  unfold unavailable
  split <;> rfl

namespace Connection
variable {α : Type} {c c' : Connection} {groups : List Group} {v : Version} {g : Group}

/-- The connection's store was given the groups, and the context reads a version of them. -/
structure Reading (groups : List Group) (c : Connection) (v : Version) (g : Group) : Prop where
  state : c.context.state = .reading v g
  kept : c.store.snapshots.get? v = some g
  exact : ∃ l, Store.Exact c.store l ∧ l.groups = groups

/-- The result is that of a check: if that is good, the context reads the version, if not, it
is idle. -/
def ComesTo (result : EStateM.Result Error Connection α) (v : Version) (g : Group) :
    Except Error α → Prop
  | .ok x => ∃ c, result = .ok x c ∧ c.context.state = .reading v g
  | .error e => ∃ c, result = .error e c ∧ c.context.state = .idle

/-- The action fails and blames a version. -/
def MissesVersion (a : Action α) (c : Connection) : Prop :=
  ∃ e c', a c = .error e c' ∧ e.isBadVersion = true

theorem not_missesVersion_of_error {a : Action α} {e : Error} (h : a c = .error e c')
    (he : e.isBadVersion = false) : ¬MissesVersion a c := by
  rintro ⟨e', c₁, h', hbad⟩
  obtain ⟨rfl, -⟩ := EStateM.Result.error.inj (h.symm.trans h')
  exact Bool.false_ne_true (he.symm.trans hbad)

namespace ComesTo
variable {result : EStateM.Result Error Connection α} {check : Except Error α}

theorem ok_iff (h : ComesTo result v g check) (x : α) :
    (∃ c, result = .ok x c) ↔ check = .ok x := by
  cases check with
  | ok y =>
      obtain ⟨c, rfl, -⟩ := h
      simp [eq_comm]
  | error e =>
      obtain ⟨c, rfl, -⟩ := h
      simp

theorem error_iff (h : ComesTo result v g check) (e : Error) :
    (∃ c, result = .error e c) ↔ check = .error e := by
  cases check with
  | ok y =>
      obtain ⟨c, rfl, -⟩ := h
      simp
  | error e' =>
      obtain ⟨c, rfl, -⟩ := h
      simp [eq_comm]

theorem not_missesVersion {a : Action α} (h : ComesTo (a c) v g check) (ht : Timeless check) :
    ¬MissesVersion a c := by
  rintro ⟨e, c', he, hbad⟩
  have hcheck := (h.error_iff e).mp ⟨c', he⟩
  exact Bool.false_ne_true ((ht e hcheck).symm.trans hbad)

end ComesTo

/-! Reading a version and moving on -/

theorem Reading.nth? (h : Reading groups c v g) : Version.nth? groups v = some g := by
  obtain ⟨l, he, rfl⟩ := h.exact
  exact he.complete.sound v g h.kept

theorem Reading.le_latest (h : Reading groups c v g) : (v : Nat) ≤ c.store.latest := by
  have hle := (Version.nth?_bounds h.nth?).2
  obtain ⟨l, he, rfl⟩ := h.exact
  exact he.latest ▸ hle

theorem beginRead_of_kept {s : Store} {d : Context} (at? : Option Version)
    (idle : d.state = .idle) (hat : at?.getD s.latest = v) (hv : s.snapshots.get? v = some g) :
    beginRead at? ⟨s, d⟩ = .ok v ⟨s.addPin v, (d.enterRead v g).newEpoch⟩ := by
  simp only [beginRead, idle, Store.pin, Store.snapshot, hat, hv, Except.map]

theorem beginRead_of_not_kept {s : Store} {d : Context} (idle : d.state = .idle)
    (hv : s.snapshots.get? v = none) :
    beginRead (some v) ⟨s, d⟩ = .error (s.unavailable v) ⟨s, d⟩ := by
  simp only [beginRead, idle, Store.pin, Store.snapshot, Option.getD_some, hv, Except.map]

theorem endRead_of_reading (h : c.context.state = .reading v g) :
    endRead c = .ok () ⟨c.store.unpin v, c.context.enterIdle⟩ := by
  simp only [endRead, h]

theorem releaseRead_of_not_writing (operation : String) (h : c.context.isWriting = false) :
    ∃ d, releaseRead operation c = .ok () ⟨c.close, d⟩ ∧ d.state = .idle := by
  unfold releaseRead close
  cases hc : c.context.state with
  | idle => exact ⟨c.context, rfl, hc⟩
  | reading v g => exact ⟨_, endRead_of_reading hc, rfl⟩
  | writing base g => simp [Context.isWriting, hc] at h

theorem close_latest (c : Connection) : c.close.latest = c.store.latest := by
  unfold close
  split
  · rfl
  · exact Store.unpin_latest _ _
  · unfold Store.releaseWriter
    split <;> rfl

theorem close_id (c : Connection) : c.close.id = c.store.id := by
  unfold close
  split
  · rfl
  · exact Store.unpin_id _ _
  · unfold Store.releaseWriter
    split <;> rfl

section Pin
variable {s : Store} {d : Context} {l : Ledger}

/-- A read of the latest version that is ended again leaves the kept versions alone. -/
theorem glance (hs : s.Exact l) (idle : d.state = .idle) : ∃ c₁ d',
    beginRead none ⟨s, d⟩ = .ok s.latest c₁ ∧
    endRead c₁ = .ok () ⟨(s.addPin s.latest).unpin s.latest, d'⟩ ∧ d'.state = .idle ∧
    Store.Exact ((s.addPin s.latest).unpin s.latest) l ∧
    ∀ v, ((s.addPin s.latest).unpin s.latest).snapshots.get? v = s.snapshots.get? v := by
  obtain ⟨gl, hgl, -⟩ := hs.complete.latest_kept
  have hexact := (hs.addPin hgl).unpin s.latest
  rw [List.erase_cons_head] at hexact
  refine ⟨_, _, beginRead_of_kept none idle rfl hgl, endRead_of_reading rfl, rfl, hexact, ?_⟩
  exact hs.snapshots_eq hexact (by simp [Store.addPin])

theorem pinExported_of_kept (hs : s.Exact l) (idle : d.state = .idle)
    (hv : s.snapshots.get? v = some g) : ∃ c', pinExported v ⟨s, d⟩ =
      .ok (decide (s.latest ≠ v)) c' ∧ Reading l.groups c' v g ∧ c'.store.id = s.id ∧
        c'.store.latest = s.latest := by
  unfold pinExported
  by_cases hlatest : s.latest = v
  · have hbegin := beginRead_of_kept none idle hlatest hv
    refine ⟨⟨s.addPin v, (d.enterRead v g).newEpoch⟩, ?_, ⟨rfl, hv, _, hs.addPin hv, rfl⟩, rfl, rfl⟩
    rw [bind_of_ok hbegin, if_pos rfl, decide_eq_false (not_not_intro hlatest)]
    rfl
  · obtain ⟨c₁, d', hbegin, hend, hidle, hexact, hsame⟩ := glance hs idle
    have hv' := (hsame v).trans hv
    have hagain := beginRead_of_kept (v := v) (some v) hidle rfl hv'
    refine ⟨⟨((s.addPin s.latest).unpin s.latest).addPin v, (d'.enterRead v g).newEpoch⟩, ?_,
      ⟨rfl, hv', _, hexact.addPin hv', rfl⟩, by simp [Store.addPin], by simp [Store.addPin]⟩
    rw [bind_of_ok hbegin, if_neg hlatest, bind_of_ok hend, bind_of_ok hagain,
      decide_eq_true hlatest]
    rfl

theorem pinExported_of_not_kept (hs : s.Exact l) (idle : d.state = .idle)
    (hv : s.snapshots.get? v = none) : MissesVersion (pinExported v) ⟨s, d⟩ := by
  have hlatest : s.latest ≠ v := by
    rintro rfl
    obtain ⟨gl, hgl, -⟩ := hs.complete.latest_kept
    simp [hgl] at hv
  obtain ⟨c₁, d', hbegin, hend, hidle, -, hsame⟩ := glance hs idle
  have hagain := beginRead_of_not_kept hidle ((hsame v).trans hv)
  rw [MissesVersion, pinExported, bind_of_ok hbegin, if_neg hlatest, bind_of_ok hend,
    bind_of_error hagain]
  exact ⟨_, _, rfl, Store.unavailable_isBadVersion _ v⟩

end Pin

/-- From any version the context comes to the latest, and is told what is no longer kept. -/
theorem advance_to_latest {ch : Chronicle} (hch : ch.Sound) (h : Reading ch.groups c v g)
    {gl : Group} (hgl : Version.nth? ch.groups c.store.latest = some gl) :
    ∃ a c', advance none c = .ok a c' ∧ c'.context.state = .reading c.store.latest gl ∧
      c'.store.id = c.store.id ∧ ∀ key epoch, g.keeps key epoch →
        (a.invalidates key ↔ ¬gl.keeps key epoch) := by
  have hnth := h.nth?
  have hle := h.le_latest
  obtain ⟨l, he, hl⟩ := h.exact
  have hkept := he.latest_get (hl ▸ hgl)
  unfold advance
  simp only [h.state, Option.getD_none]
  rw [if_neg (Nat.not_lt_of_le hle)]
  by_cases hv : c.store.latest = v
  · rw [if_pos hv]
    subst hv
    obtain rfl := Option.some.inj (hnth.symm.trans hgl)
    refine ⟨_, c, rfl, h.state, rfl, fun key epoch hk => ?_⟩
    simp [Advance.invalidates, ChangeSummary.invalidates, ChangeSummary.empty, hk]
  · have hlt : (v : Nat) < c.store.latest := Nat.lt_of_le_of_ne hle (Ne.symm hv)
    obtain ⟨changes, hchanges⟩ := (he.changesBetween_ok_iff v c.store.latest).mpr
      (.inr ⟨Store.oldest_le h.kept, hlt, Nat.le_refl _⟩)
    rw [if_neg hv, hchanges]
    simp only [Store.pin, Store.snapshot, Option.getD_some, hkept, Except.map]
    refine ⟨_, _, rfl, rfl, by simp [Store.addPin], fun key epoch hk => ?_⟩
    exact hch.invalidates_iff he hl hchanges hle hnth hk hgl

/-! What is asked of a context that reads -/

theorem ask_of_ok {f : Connection → Except Error α} {x : α} (h : f c = .ok x) :
    ask f c = .ok x c := by
  simp only [ask, h]

theorem ask_of_error {f : Connection → Except Error α} {e : Error} (h : f c = .error e) :
    ask f c = .error e c := by
  simp only [ask, h]

theorem endReadOnError_ask {body : Action α} {check : Except Error α}
    (h : body c = ask (fun _ => check) c') (hc' : c'.context.state = .reading v g) :
    ComesTo (endReadOnError body c) v g check := by
  unfold endReadOnError
  rw [h]
  cases check with
  | ok x => exact ⟨c', rfl, hc'⟩
  | error e =>
      simp only [ask, endRead_of_reading hc']
      exact ⟨_, rfl, rfl⟩

theorem checkEnvelope_of_home {e : Envelope} (h : e.store = c.store.id) :
    c.checkEnvelope e.kind e = .ok () := by
  simp [checkEnvelope, h, pure, Except.pure]

/-- What suits the version that the context comes to is taken over there. -/
theorem importAs_of_syncTo {e : Envelope} (hstore : e.store = c.store.id)
    (hsync : syncTo e.version c = .ok () c') (hc' : c'.context.state = .reading e.version g)
    (hcheck : e.payload.check g = .ok ()) : importAs e.kind e c = .ok e.payload c' := by
  have hask := ask_of_ok (f := (·.checkEnvelope e.kind e)) (checkEnvelope_of_home hstore)
  have hthere : ask (fun c => c.context.group >>= e.payload.check) c' = .ok () c' := by
    simp only [ask, Context.group_of_reading hc', bind, Except.bind, hcheck]
  rw [importAs, bind_of_ok hask, bind_of_ok hsync, bind_of_ok hthere]
  rfl

theorem importQuery_of_check {e : Envelope} {q : Query}
    (hc : c.context.state = .reading e.version g) (hstore : e.store = c.store.id)
    (hq : e.payload = .query q) (hcheck : (Payload.query q).check g = .ok ()) :
    importQuery e c = .ok q c := by
  have hkind : e.kind = .query := by rw [Envelope.kind, hq, Payload.kind]
  have hsync : syncTo e.version c = .ok () c := by
    simp [syncTo, hc]
  have himport := importAs_of_syncTo hstore hsync hc (hq ▸ hcheck)
  rw [hkind, hq] at himport
  rw [importQuery, bind_of_ok himport]
  rfl

theorem checkStillValid_eq {q : Query} {a : Advance} (hc : c.context.state = .reading v g)
    (ha : a.invalidates q.table ↔ ¬g.keeps q.table q.schemaEpoch) :
    c.checkStillValid q a = q.checkKept g := by
  unfold checkStillValid Query.checkKept
  by_cases hk : g.keeps q.table q.schemaEpoch
  · rw [if_pos hk, if_neg fun hinv => ha.mp hinv hk]
    rfl
  · rw [if_neg hk, if_pos (ha.mpr hk), Context.group_of_reading hc]
    rfl

theorem checkStillValid_all {asks : List (Query × Request)} {a : Advance}
    (hc : c.context.state = .reading v g)
    (ha : ∀ p ∈ asks, (a.invalidates p.1.table ↔ ¬g.keeps p.1.table p.1.schemaEpoch)) :
    (asks.forM fun (q, _) => c.checkStillValid q a) = asks.forM fun (q, _) => q.checkKept g :=
  forM_congr fun p hp => checkStillValid_eq hc (ha p hp)

theorem currentVersion_eq (hc : c.context.state = .reading v g) : c.currentVersion = .ok v := by
  have hversion : c.context.version? = some v := by
    simp only [Context.version?, hc, TransactionState.version?, Option.some_or]
  simp only [currentVersion, hversion]

theorem evaluate_of_keeps {q : Query} (hc : c.context.state = .reading v g) (hg : g.Numbered)
    (hk : g.keeps q.table q.schemaEpoch) (r : Request) :
    c.evaluate q r = r.answer q c.store.id v g := by
  obtain ⟨t, ht, -⟩ := Group.keeps_iff.mp hk
  exact evaluate_eq hc hg ht r

/-- A query that is checked against the version and then evaluated gets the version's answer. -/
theorem checkKept_then_evaluate {q : Query} (hc : c.context.state = .reading v g)
    (hg : g.Numbered) (r : Request) :
    (q.checkKept g >>= fun _ => c.evaluate q r) = r.answer q c.store.id v g := by
  unfold Query.checkKept
  by_cases hk : g.keeps q.table q.schemaEpoch
  · rw [if_pos hk]
    exact evaluate_of_keeps hc hg hk r
  · rw [if_neg hk, Request.answer_of_not_keeps hg hk]
    rfl

theorem checkKept_then_evaluate_all (hc : c.context.state = .reading v g) (hg : g.Numbered)
    (asks : List (Query × Request)) :
    (asks.forM (fun (q, _) => q.checkKept g) >>= fun _ => asks.mapM fun (q, r) => c.evaluate q r) =
      Request.answers asks c.store.id v g := by
  unfold Request.answers
  cases hkept : asks.forM fun (q, _) => q.checkKept g with
  | error e => rfl
  | ok u =>
      refine mapM_congr fun (q, r) hp => ?_
      have hk : q.checkKept g = .ok () := forM_eq_ok.mp hkept (q, r) hp
      have hone := checkKept_then_evaluate hc hg r (q := q)
      rwa [hk] at hone

/-- The end of a run: work is done, and the version it was done in is told. -/
theorem conclude {β : Type} {work : Connection → Except Error β}
    (hc : c.context.state = .reading v g) :
    (do let x ← ask work; return (← ask (·.currentVersion), x) : Action (Version × β)) c =
      ask (fun _ => (work c).map (v, ·)) c := by
  cases hw : work c with
  | error e =>
      rw [bind_of_error (ask_of_error hw)]
      rfl
  | ok x =>
      rw [bind_of_ok (ask_of_ok hw), bind_of_ok (ask_of_ok (currentVersion_eq hc))]
      rfl

/-- The end of a run with a check before it. -/
theorem conclude_checked {β : Type} {check : Connection → Except Error Unit}
    {work : Connection → Except Error β} (hc : c.context.state = .reading v g) :
    (do ask check; let x ← ask work; return (← ask (·.currentVersion), x) :
      Action (Version × β)) c = ask (fun _ => (check c >>= fun _ => work c).map (v, ·)) c := by
  cases hcheck : check c with
  | error e =>
      rw [bind_of_error (ask_of_error hcheck)]
      rfl
  | ok u =>
      rw [bind_of_ok (ask_of_ok hcheck), conclude hc]
      rfl

/-! Runs -/

/-- The context may run what was handed over within a store that was given the versions. -/
structure Ready (ch : Chronicle) (c : Connection) : Prop where
  chronicle : ch.Sound
  store : ∃ l, Store.Exact c.close l ∧ l.groups = ch.groups
  notWriting : c.context.isWriting = false

end Connection

/-- The envelope brings a query that suits its version, from the store of the given identity. -/
structure Envelope.Genuine (ch : Chronicle) (store : String) (e : Envelope) (q : Query) : Prop where
  home : e.store = store
  query : e.payload = .query q
  fits : ∃ g, Version.nth? ch.groups e.version = some g ∧ (Payload.query q).check g = .ok ()

namespace Connection
variable {ch : Chronicle} {c : Connection} {e : Envelope} {q : Query} {gl : Group}

theorem checkEnvelope_of_genuine (he : e.Genuine ch c.store.id q) :
    c.checkEnvelope .query e = .ok () := by
  have hkind : e.kind = .query := by rw [Envelope.kind, he.query, Payload.kind]
  simp [checkEnvelope, he.home, hkind, pure, Except.pure]

/-- A run from a version that is still kept gives the answer of the latest version. -/
theorem runQuery_of_kept (hc : c.Ready ch) (he : e.Genuine ch c.store.id q)
    (kept : (c.close.snapshots.get? e.version).isSome)
    (hgl : Version.nth? ch.groups c.store.latest = some gl) (r : Request) :
    ComesTo (runQuery e r c) c.store.latest gl
      ((r.answer q c.store.id c.store.latest gl).map (c.store.latest, ·)) := by
  obtain ⟨l, hl, hgroups⟩ := hc.store
  obtain ⟨d, hrelease, hidle⟩ := releaseRead_of_not_writing r.name hc.notWriting
  obtain ⟨g, hg⟩ := Option.isSome_iff_exists.mp kept
  obtain ⟨c₁, hpin, hreads, hid, hlatest⟩ := pinExported_of_kept hl hidle hg
  rw [hgroups] at hreads
  rw [close_id] at hid
  rw [close_latest] at hpin hlatest
  have hfits : (Payload.query q).check g = .ok () := by
    obtain ⟨g', hg', hfits⟩ := he.fits
    exact Option.some.inj (hg'.symm.trans hreads.nth?) ▸ hfits
  have hnumbered := hc.chronicle.numbered hgl
  have himport := importQuery_of_check hreads.state (he.home.trans hid.symm) he.query hfits
  have hask := ask_of_ok (f := (·.checkEnvelope .query e)) (checkEnvelope_of_genuine he)
  rw [runQuery, bind_of_ok hask, bind_of_ok hrelease, bind_of_ok hpin]
  by_cases hv : c.store.latest = e.version
  · obtain rfl : g = gl := Option.some.inj (hreads.nth?.symm.trans (hv ▸ hgl))
    have hkeeps := Payload.keeps_of_check hfits
    have hworks := evaluate_of_keeps hreads.state hnumbered hkeeps r
    rw [decide_eq_false (not_not_intro hv), hv]
    refine endReadOnError_ask ?_ hreads.state
    rw [bind_of_ok himport, if_neg Bool.false_ne_true]
    exact (conclude hreads.state).trans (by rw [hworks, hid])
  · obtain ⟨a, c₂, hadvance, hstate, hid₂, ha⟩ :=
      advance_to_latest hc.chronicle hreads (hlatest ▸ hgl)
    rw [hlatest] at hstate
    have hvalid := checkStillValid_eq hstate (ha _ _ (Payload.keeps_of_check hfits))
    have hworks := checkKept_then_evaluate hstate hnumbered r (q := q)
    rw [decide_eq_true hv]
    refine endReadOnError_ask ?_ hstate
    rw [bind_of_ok himport, if_pos rfl, bind_of_ok hadvance]
    exact (conclude_checked hstate).trans (by rw [hvalid, hworks, hid₂, hid])

/-- A run from a version that is no longer kept blames the version. -/
theorem runQuery_of_not_kept (hc : c.Ready ch) (he : e.Genuine ch c.store.id q)
    (gone : c.close.snapshots.get? e.version = none) (r : Request) :
    MissesVersion (runQuery e r) c := by
  obtain ⟨l, hl, -⟩ := hc.store
  obtain ⟨d, hrelease, hidle⟩ := releaseRead_of_not_writing r.name hc.notWriting
  obtain ⟨error, c', hpin, hbad⟩ := pinExported_of_not_kept hl hidle gone
  have hask := ask_of_ok (f := (·.checkEnvelope .query e)) (checkEnvelope_of_genuine he)
  refine ⟨error, c', ?_, hbad⟩
  rw [runQuery, bind_of_ok hask, bind_of_ok hrelease, bind_of_error hpin]

theorem checkEnvelope_of_foreign (h : e.store ≠ c.store.id) (kind : PayloadKind) :
    ∃ reason, c.checkEnvelope kind e = .error (.illegalArgument reason) := by
  unfold checkEnvelope
  rw [if_pos h]
  exact ⟨_, rfl⟩

theorem checkEnvelope_complains (c : Connection) (kind : PayloadKind) (e : Envelope) :
    Complains (c.checkEnvelope kind e) := by
  unfold checkEnvelope
  exact .stop rfl (.ite (.error rfl) (.ok ()))

theorem runQuery_of_foreign (h : e.store ≠ c.store.id) (r : Request) :
    ¬MissesVersion (runQuery e r) c := by
  obtain ⟨reason, hreason⟩ := checkEnvelope_of_foreign h .query
  have hask := ask_of_error (f := (·.checkEnvelope .query e)) hreason
  exact not_missesVersion_of_error (bind_of_error hask) rfl

/-! Batches -/

/-- The items of a batch from one version of the store. -/
def Uniform (ch : Chronicle) (store : String) (v : Version) (items : List BatchItem) : Prop :=
  ∀ item ∈ items, item.envelope.version = v ∧ ∃ q, item.envelope.Genuine ch store q

/-- The queries and requests that the items of a batch bring. -/
def Asks (items : List BatchItem) (asks : List (Query × Request)) : Prop :=
  items.map (fun item => (item.envelope.payload, item.request)) =
    asks.map fun (q, r) => (Payload.query q, r)

variable {items : List BatchItem} {v : Version} {g : Group}

theorem checkBatchItem_eq (hquery : e.isQuery) (hversion : e.version = v) (position : Nat) :
    c.checkBatchItem v position e = c.checkEnvelope .query e := by
  simp only [checkBatchItem, hquery, hversion, bind, Except.bind]
  cases c.checkEnvelope .query e <;> simp [pure, Except.pure]

/-- Envelopes of queries from one version are only asked for the store they come from. -/
theorem checkBatch_eq (hne : items ≠ [])
    (h : ∀ item ∈ items, item.envelope.isQuery ∧ item.envelope.version = v) :
    c.checkBatch items =
      (items.forM fun item => c.checkEnvelope .query item.envelope).map fun _ => v := by
  have hfrom : ∀ position, c.checkBatchFrom v position items =
      items.forM fun item => c.checkEnvelope .query item.envelope := by
    clear hne
    induction items with
    | nil => exact fun _ => rfl
    | cons item rest ih =>
        intro position
        obtain ⟨⟨hquery, hversion⟩, hrest⟩ := List.forall_mem_cons.mp h
        rw [checkBatchFrom, checkBatchItem_eq hquery hversion, List.forM, ← ih hrest (position + 1)]
        cases c.checkEnvelope .query item.envelope <;> rfl
  cases items with
  | nil => exact absurd rfl hne
  | cons item rest =>
      have hversion := (h item List.mem_cons_self).2
      rw [checkBatch, hversion, hfrom]

theorem Uniform.queries (h : Uniform ch c.store.id v items) :
    ∀ item ∈ items, item.envelope.isQuery ∧ item.envelope.version = v := fun item hitem => by
  obtain ⟨hversion, q, hq⟩ := h item hitem
  exact ⟨Envelope.isQuery_iff.mpr ⟨q, hq.query⟩, hversion⟩

theorem checkBatch_of_uniform (h : Uniform ch c.store.id v items) (hne : items ≠ []) :
    c.checkBatch items = .ok v := by
  rw [checkBatch_eq hne h.queries, map_eq_ok]
  refine ⟨⟨⟩, forM_eq_ok.mpr fun item hitem => ?_, rfl⟩
  obtain ⟨-, q, hq⟩ := h item hitem
  exact checkEnvelope_of_genuine hq

/-- A context that reads the version of a batch takes all its queries over. -/
theorem importAll_of_uniform (hc : c.context.state = .reading v g)
    (hg : Version.nth? ch.groups v = some g) (h : Uniform ch c.store.id v items) :
    ∃ asks, Asks items asks ∧ (∀ p ∈ asks, g.keeps p.1.table p.1.schemaEpoch) ∧
      (items.mapM fun item => return (← importQuery item.envelope, item.request) :
        Action (List (Query × Request))) c = .ok asks c := by
  induction items with
  | nil => exact ⟨[], rfl, fun _ hp => absurd hp List.not_mem_nil, rfl⟩
  | cons item rest ih =>
      obtain ⟨⟨rfl, q, hq⟩, hrest⟩ := List.forall_mem_cons.mp h
      obtain ⟨asks, hasks, hkeeps, himports⟩ := ih hrest
      obtain ⟨g', hg', hfits⟩ := hq.fits
      obtain rfl := Option.some.inj (hg'.symm.trans hg)
      have himport := importQuery_of_check hc hq.home hq.query hfits
      refine ⟨(q, item.request) :: asks, ?_, ?_, ?_⟩
      · simp only [Asks, List.map_cons, hq.query]
        exact congrArg _ hasks
      · exact List.forall_mem_cons.mpr ⟨Payload.keeps_of_check hfits, hkeeps⟩
      · have hitem : (return (← importQuery item.envelope, item.request) :
            Action (Query × Request)) c = .ok (q, item.request) c := bind_of_ok himport
        rw [List.mapM_cons, bind_of_ok hitem, bind_of_ok himports]
        rfl

/-- A batch from a version that is still kept gets the answers of the latest version. -/
theorem runBatch_of_kept (hc : c.Ready ch) (hne : items ≠ [])
    (h : Uniform ch c.store.id v items) (kept : (c.close.snapshots.get? v).isSome)
    (hgl : Version.nth? ch.groups c.store.latest = some gl) : ∃ asks, Asks items asks ∧
      ComesTo (runBatch items c) c.store.latest gl
        ((Request.answers asks c.store.id c.store.latest gl).map (c.store.latest, ·)) := by
  obtain ⟨l, hl, hgroups⟩ := hc.store
  obtain ⟨d, hrelease, hidle⟩ := releaseRead_of_not_writing "batch" hc.notWriting
  obtain ⟨g, hg⟩ := Option.isSome_iff_exists.mp kept
  have hbegin := beginRead_of_kept (v := v) (some v) hidle rfl hg
  have hreads : Reading ch.groups ⟨c.close.addPin v, (d.enterRead v g).newEpoch⟩ v g :=
    ⟨rfl, hg, _, hl.addPin hg, hgroups⟩
  have hnumbered := hc.chronicle.numbered hgl
  have hlatest : (c.close.addPin v).latest = c.store.latest := close_latest c
  have hid : (c.close.addPin v).id = c.store.id := close_id c
  obtain ⟨asks, hasks, hkeeps, himports⟩ :=
    importAll_of_uniform hreads.state hreads.nth? (hid ▸ h)
  obtain ⟨a, c₂, hadvance, hstate, hid₂, ha⟩ :=
    advance_to_latest hc.chronicle hreads (hlatest ▸ hgl)
  rw [hlatest] at hstate
  have hask := ask_of_ok (f := (·.checkBatch items)) (checkBatch_of_uniform h hne)
  refine ⟨asks, hasks, ?_⟩
  rw [runBatch, bind_of_ok hask, bind_of_ok hrelease, bind_of_ok hbegin]
  refine endReadOnError_ask ?_ hstate
  rw [bind_of_ok himports, bind_of_ok hadvance]
  have hvalid := checkStillValid_all hstate fun p hp => ha _ _ (hkeeps p hp)
  have hworks := checkKept_then_evaluate_all hstate hnumbered asks
  exact (conclude_checked hstate).trans (by rw [hvalid, hworks, hid₂, hid])

/-- A batch from a version that is no longer kept blames the version. -/
theorem runBatch_of_not_kept (hc : c.Ready ch) (hne : items ≠ [])
    (h : Uniform ch c.store.id v items) (gone : c.close.snapshots.get? v = none) :
    MissesVersion (runBatch items) c := by
  obtain ⟨d, hrelease, hidle⟩ := releaseRead_of_not_writing "batch" hc.notWriting
  have hbegin := beginRead_of_not_kept hidle gone
  have hask := ask_of_ok (f := (·.checkBatch items)) (checkBatch_of_uniform h hne)
  rw [MissesVersion, runBatch, bind_of_ok hask, bind_of_ok hrelease, bind_of_error hbegin]
  exact ⟨_, _, rfl, c.close.unavailable_isBadVersion v⟩

theorem runBatch_of_foreign (hne : items ≠ [])
    (h : ∀ item ∈ items, item.envelope.isQuery ∧ item.envelope.version = v)
    (foreign : ¬∀ item ∈ items, item.envelope.store = c.store.id) :
    ¬MissesVersion (runBatch items) c := by
  have hcheck := checkBatch_eq (c := c) hne h
  cases hitems : items.forM fun item => c.checkEnvelope .query item.envelope with
  | ok u =>
      refine absurd (fun item hitem => ?_) foreign
      refine Classical.byContradiction fun hstore => ?_
      obtain ⟨reason, hreason⟩ := checkEnvelope_of_foreign hstore .query
      have hok := forM_eq_ok.mp hitems item hitem
      simp [hreason] at hok
  | error error =>
      rw [hitems] at hcheck
      have hask := ask_of_error (f := (·.checkBatch items)) hcheck
      refine not_missesVersion_of_error (bind_of_error hask) ?_
      have hcomplains := FailsBy.forM
        (fun item : BatchItem => c.checkEnvelope_complains .query item.envelope) items
      exact hcomplains.timeless error hitems

end Connection
end SnapshotStore
