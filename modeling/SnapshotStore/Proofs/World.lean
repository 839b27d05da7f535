import SnapshotStore.Proofs.Chronicle

/-!
Worlds: one store and everybody who works on it. Whatever the contexts do and in whatever
order, each reads or writes what the chronicle says, and the one that writes has the write
lock and started from the latest version.
-/

namespace SnapshotStore

/-! The store along a chronicle -/

namespace Store

/-- The store was given exactly these groups, one after the other. -/
def Tracks (settings : Settings) (s : Store) (groups : List Group) : Prop :=
  ∃ l, Reachable settings s l ∧ l.groups = groups

variable {settings : Settings} {s s' : Store} {groups : List Group}

namespace Tracks

theorem connect (h : Tracks settings s groups) : Tracks settings s.newContextId.2 groups := by
  obtain ⟨l, hl, hg⟩ := h
  exact ⟨_, hl.step .connect, hg⟩

theorem count (h : Tracks settings s groups) : Tracks settings s.recordCall groups := by
  obtain ⟨l, hl, hg⟩ := h
  exact ⟨_, hl.step .count, hg⟩

theorem compact (h : Tracks settings s groups) : Tracks settings s.compact.2 groups := by
  obtain ⟨l, hl, hg⟩ := h
  exact ⟨_, hl.step .compact, hg⟩

theorem pin (h : Tracks settings s groups) {at? : Option Version} {v : Version} {g : Group}
    (hp : s.pin at? = .ok ((v, g), s')) : Tracks settings s' groups := by
  obtain ⟨l, hl, hg⟩ := h
  have hs := hl.step (.pin at?)
  simp only [obey, Ledger.note, hp] at hs
  exact ⟨_, hs, hg⟩

theorem unpin (h : Tracks settings s groups) (v : Version) :
    Tracks settings (s.unpin v) groups := by
  obtain ⟨l, hl, hg⟩ := h
  exact ⟨_, hl.step (.unpin v), hg⟩

theorem acquire (h : Tracks settings s groups) (context : ContextId) (free : s.writer? = none) :
    Tracks settings { s with writer? := some context } groups := by
  obtain ⟨l, hl, hg⟩ := h
  have hs := hl.step (.acquire context none)
  simp only [obey, acquireWriter, free] at hs
  exact ⟨_, hs, hg⟩

theorem release (h : Tracks settings s groups) (context : ContextId) :
    Tracks settings (s.releaseWriter context) groups := by
  obtain ⟨l, hl, hg⟩ := h
  exact ⟨_, hl.step (.release context), hg⟩

theorem commit (h : Tracks settings s groups) {context : ContextId} {base v : Version}
    {g : Group} {keepPinned : Bool} (hc : s.commit context base g keepPinned = .ok (v, s')) :
    Tracks settings s' (groups ++ [g]) := by
  obtain ⟨l, hl, hg⟩ := h
  have hs := hl.step (.commit context base g keepPinned)
  simp only [obey, Ledger.note, hc] at hs
  exact ⟨_, hs, congrArg (· ++ [g]) hg⟩

theorem close {c : Context} (h : Tracks settings s groups) :
    Tracks settings (Connection.mk s c).close groups := by
  unfold Connection.close
  cases c.state with
  | idle => exact h
  | reading v g => exact h.unpin v
  | writing base g => exact h.release c.id

theorem exact (h : Tracks settings s groups) : ∃ l, Exact s l ∧ l.groups = groups := by
  obtain ⟨l, hl, hg⟩ := h
  exact ⟨l, hl.exact, hg⟩

theorem latest (h : Tracks settings s groups) : groups.length = s.latest := by
  obtain ⟨l, he, rfl⟩ := h.exact
  exact he.latest

theorem snapshot (h : Tracks settings s groups) {v : Version} {g : Group}
    (hv : s.snapshots.get? v = some g) : Version.nth? groups v = some g := by
  obtain ⟨l, he, rfl⟩ := h.exact
  exact he.complete.sound v g hv

theorem latest_kept (h : Tracks settings s groups) : ∃ g, s.snapshots.get? s.latest = some g := by
  obtain ⟨l, he, rfl⟩ := h.exact
  obtain ⟨g, hg, -⟩ := he.complete.latest_kept
  exact ⟨g, hg⟩

end Tracks

/-! What the commands leave alone -/

@[simp] theorem unpin_writer? (s : Store) (v : Version) : (s.unpin v).writer? = s.writer? := by
  unfold unpin
  split <;> rfl

@[simp] theorem unpin_nextContext (s : Store) (v : Version) :
    (s.unpin v).nextContext = s.nextContext := by
  unfold unpin
  split <;> rfl

@[simp] theorem unpin_latest (s : Store) (v : Version) : (s.unpin v).latest = s.latest := by
  unfold unpin
  split <;> rfl

@[simp] theorem unpin_id (s : Store) (v : Version) : (s.unpin v).id = s.id := by
  unfold unpin
  split <;> rfl

@[simp] theorem unpin_settings (s : Store) (v : Version) :
    (s.unpin v).settings = s.settings := by
  unfold unpin
  split <;> rfl

@[simp] theorem addPin_writer? (s : Store) (v : Version) : (s.addPin v).writer? = s.writer? := rfl

@[simp] theorem addPin_nextContext (s : Store) (v : Version) :
    (s.addPin v).nextContext = s.nextContext := rfl

@[simp] theorem publish_nextContext (s : Store) (g previous : Group) (keepPinned : Bool) :
    (s.publish g previous keepPinned).nextContext = s.nextContext := by
  cases keepPinned <;> rfl

@[simp] theorem releaseWriter_nextContext (s : Store) (context : ContextId) :
    (s.releaseWriter context).nextContext = s.nextContext := by
  unfold releaseWriter
  split <;> rfl

theorem releaseWriter_writer? {s : Store} {context id : ContextId} (h : s.writer? = some id)
    (hne : id ≠ context) : (s.releaseWriter context).writer? = some id := by
  unfold releaseWriter
  rw [if_neg (by simpa [h] using hne), h]

end Store

/-! Worlds -/

/-- A store and those who have contexts on it. Their deeds are whole operations, one after the
other; what operations that run at once may do to each other is not in it. -/
structure World where
  store : Store
  /-- The live contexts, each under the number of its author. -/
  context? : Nat → Option Context

namespace World

/-- Let an author have a context, or none. -/
def set (w : World) (n : Nat) (s : Store) (c? : Option Context) : World :=
  ⟨s, fun m => if m = n then c? else w.context? m⟩

/-- The steps of a world, each with its author and deed. -/
inductive Step : World → Nat → Deed → World → Prop
  | act {w : World} {n : Nat} {c : Context} {d : Deed} {c' : Connection}
      (live : w.context? n = some c) (step : Connection.Step ⟨w.store, c⟩ d c') :
      Step w n d (w.set n c'.store (some c'.context))
  | join {w : World} {n : Nat} (vacant : w.context? n = none) :
      Step w n .rest
        (w.set n (Connection.new w.store).store (some (Connection.new w.store).context))
  | leave {w : World} {n : Nat} {c : Context} (live : w.context? n = some c) :
      Step w n .rest (w.set n (Connection.mk w.store c).close none)
  | compact (w : World) (n : Nat) : Step w n .rest ⟨w.store.compact.2, w.context?⟩

end World

/-- The context reads or writes what the chronicle says. -/
def Context.Stands (c : Context) (s : Store) (ch : Chronicle) (d : Draft) : Prop :=
  match c.state with
  | .idle => True
  | .reading v g => ∃ E, Version.nth? ch.versions v = some E ∧ E.group = g
  | .writing base g => s.writer? = some c.id ∧ base = ch.versions.length ∧
      d.edition.group = g ∧ d.On ch.latest base ∧ d.since ≤ ch.now ∧ d.edition.Dated ch.now

namespace Context.Stands
variable {c : Context} {s s' : Store} {ch ch' : Chronicle} {d : Draft}

theorem turn (h : c.Stands s ch d) (hv : ch'.versions = ch.versions) (hn : ch.now ≤ ch'.now)
    (hw : s.writer? = some c.id → s'.writer? = some c.id) : c.Stands s' ch' d := by
  unfold Context.Stands at h ⊢
  cases hc : c.state with
  | idle => trivial
  | reading v g =>
      rw [hc] at h
      rwa [hv]
  | writing base g =>
      rw [hc] at h
      obtain ⟨hwriter, hbase, hg, hd, hsince, hdated⟩ := h
      simp only [Chronicle.latest, hv] at hd ⊢
      exact ⟨hw hwriter, hbase, hg, hd, Nat.le_trans hsince hn, hdated.mono hn⟩

theorem published (h : c.Stands s ch d) {E : Edition} (hv : ch'.versions = ch.versions ++ [E])
    (hw : s.writer? ≠ some c.id) : c.Stands s' ch' d := by
  unfold Context.Stands at h ⊢
  cases hc : c.state with
  | idle => trivial
  | reading v g =>
      rw [hc] at h
      obtain ⟨F, hF, hg⟩ := h
      exact ⟨F, hv ▸ Version.nth?_append_left [E] hF, hg⟩
  | writing base g =>
      rw [hc] at h
      exact absurd h.1 hw

end Context.Stands

namespace World

/-- The store and all contexts agree with the chronicle. -/
structure Sound (settings : Settings) (w : World) (ch : Chronicle) : Prop where
  store : Store.Tracks settings w.store ch.groups
  chronicle : ch.Sound
  ids : ∀ n c, w.context? n = some c → (c.id : Nat) < w.store.nextContext
  distinct : ∀ n m c d, w.context? n = some c → w.context? m = some d → c.id = d.id → n = m
  stands : ∀ n c, w.context? n = some c → c.Stands w.store ch (ch.drafts n)

namespace Sound
variable {settings : Settings} {w : World} {ch ch' : Chronicle} {n : Nat} {c c' : Context}
  {s' : Store}

/-- The author of a step has a new standing, everybody else keeps theirs. -/
theorem set (h : Sound settings w ch) (hc : w.context? n = some c)
    (store : Store.Tracks settings s' ch'.groups) (chronicle : ch'.Sound) (id : c'.id = c.id)
    (next : s'.nextContext = w.store.nextContext)
    (self : c'.Stands s' ch' (ch'.drafts n))
    (others : ∀ m (d : Context), m ≠ n → d.id ≠ c.id → d.Stands w.store ch (ch.drafts m) →
      d.Stands s' ch' (ch'.drafts m)) : Sound settings (w.set n s' (some c')) ch' := by
  refine ⟨store, chronicle, ?_, ?_, ?_⟩
  · intro m d hd
    simp only [World.set] at hd ⊢
    rw [next]
    split at hd
    · obtain rfl := Option.some.inj hd
      exact id ▸ h.ids n c hc
    · exact h.ids m d hd
  · intro m k d e hd he hid
    simp only [World.set] at hd he
    split at hd <;> split at he
    next hm hk => exact hm.trans hk.symm
    next hm hk =>
      obtain rfl := Option.some.inj hd
      exact absurd (h.distinct n k c e hc he (id.symm.trans hid)) (Ne.symm hk)
    next hm hk =>
      obtain rfl := Option.some.inj he
      exact absurd (h.distinct m n d c hd hc (hid.trans id)) hm
    next => exact h.distinct m k d e hd he hid
  · intro m d hd
    simp only [World.set] at hd ⊢
    split at hd
    next hm =>
      obtain rfl := Option.some.inj hd
      exact hm ▸ self
    next hm =>
      refine others m d hm (fun hid => hm (h.distinct m n d c hd hc hid)) (h.stands m d hd)

theorem turn (h : Sound settings w ch) (hc : w.context? n = some c) {d : Deed}
    (hv : (ch.note n d).versions = ch.versions) (hcommits : (ch.note n d).commits = ch.commits)
    (store : Store.Tracks settings s' ch.groups) (id : c'.id = c.id)
    (next : s'.nextContext = w.store.nextContext)
    (writer : ∀ i, i ≠ c.id → w.store.writer? = some i → s'.writer? = some i)
    (self : c'.Stands s' (ch.note n d) ((ch.note n d).drafts n)) :
    Sound settings (w.set n s' (some c')) (ch.note n d) := by
  have hnow := ch.note_now_le n d
  refine h.set hc ?_ ?_ id next self ?_
  · simpa only [Chronicle.groups, hv] using store
  · refine ⟨by rw [hv, hcommits, h.chronicle.commits], ?_, ?_⟩
    · rw [hv, hcommits]
      exact h.chronicle.chain
    · rw [hv]
      exact fun E hE => (h.chronicle.dated E hE).mono hnow
  · intro m e hm hid hs
    rw [ch.note_drafts_ne d hm]
    exact hs.turn hv hnow (writer e.id hid)

theorem draft (h : Sound settings w ch) (hc : w.context? n = some c) {g : Group}
    (latest : w.store.snapshots.get? w.store.latest = some g)
    (store : Store.Tracks settings s' ch.groups) (id : c'.id = c.id)
    (next : s'.nextContext = w.store.nextContext) (free : w.store.writer? = none)
    (writer : s'.writer? = some c.id)
    (state : c'.state = .writing w.store.latest { g with revision := w.store.latest + 1 }) :
    Sound settings (w.set n s' (some c')) (ch.note n .draft) := by
  have hlen : ch.versions.length = w.store.latest := by
    rw [← h.store.latest, Chronicle.groups, List.length_map]
  refine h.turn hc rfl rfl store id next (fun i _ hi => by simp [free] at hi) ?_
  have hg : ch.latest.group = g := by
    obtain ⟨E, hE, hg⟩ := Chronicle.edition_of_group (h.store.snapshot latest)
    rw [← hlen, h.chronicle.latest] at hE
    rw [Option.some.inj hE, hg]
  have hdated := h.chronicle.latest_dated
  simp only [Context.Stands, state, Chronicle.note, Chronicle.withDraft_self]
  rw [← hlen, id]
  exact ⟨writer, rfl, by rw [Edition.revise, hg], .begin hdated _, Nat.le_refl _,
    hdated.revise _⟩

/-- The author commits. Nobody else can have an open write. -/
theorem publish (h : Sound settings w ch) (hc : w.context? n = some c) {base v : Version}
    {g : Group} {keepPinned : Bool} {s : Store} (writing : c.state = .writing base g)
    (commit : w.store.commit c.id base g keepPinned = .ok (v, s)) (id : c'.id = c.id)
    (self : c'.state = .idle ∨ c'.state = .reading v g) :
    Sound settings (w.set n (s.releaseWriter c.id) (some c')) (ch.note n .publish) := by
  have hs := h.stands n c hc
  simp only [Context.Stands, writing] at hs
  obtain ⟨hwriter, rfl, hg, hd, hsince, hdated⟩ := hs
  obtain ⟨-, -, rfl, previous, -, rfl⟩ := Store.commit_eq_ok commit
  have hgroups : (ch.note n .publish).groups = ch.groups ++ [g] := by
    simp [Chronicle.groups, Chronicle.note, hg]
  refine h.set hc ?_ ?_ id (by simp) ?_ ?_
  · rw [hgroups]
    exact (h.store.commit commit).release c.id
  · exact h.chronicle.publish h.chronicle.latest hd hdated
  · rcases self with hstate | hstate
    · simp only [Context.Stands, hstate]
    · simp only [Context.Stands, hstate]
      exact ⟨_, by rw [Chronicle.note, Version.nth?_concat, if_pos rfl], hg⟩
  · -- The author holds the lock, so none of the others writes.
    intro m d hm hid hs
    rw [ch.note_drafts_ne _ hm]
    refine hs.published rfl fun hw => hid ?_
    exact Option.some.inj (hw.symm.trans hwriter)

theorem act (h : Sound settings w ch) (hc : w.context? n = some c) {d : Deed}
    {c' : Connection} (hs : Connection.Step ⟨w.store, c⟩ d c') :
    Sound settings (w.set n c'.store (some c'.context)) (ch.note n d) := by
  have hstands := h.stands n c hc
  cases hs with
  | stay => exact h.turn hc rfl rfl h.store rfl rfl (fun _ _ hi => hi) hstands
  | count =>
      exact h.turn hc rfl rfl h.store.count rfl rfl (fun _ _ hi => hi)
        (hstands.turn rfl (Nat.le_refl _) fun hi => hi)
  | beginRead idle pin =>
      obtain ⟨-, hv, rfl⟩ := Store.pin_eq_ok pin
      exact h.turn hc rfl rfl (h.store.pin pin) rfl rfl (fun _ _ hi => hi)
        (Chronicle.edition_of_group (h.store.snapshot hv))
  | endRead reading =>
      exact h.turn hc rfl rfl (h.store.unpin _) rfl (by simp) (fun _ _ hi => by simpa using hi)
        trivial
  | advance reading later pin =>
      obtain ⟨-, hv, rfl⟩ := Store.pin_eq_ok pin
      exact h.turn hc rfl rfl ((h.store.pin pin).unpin _) rfl (by simp)
        (fun _ _ hi => by simpa using hi) (Chronicle.edition_of_group (h.store.snapshot hv))
  | beginWrite idle free latest =>
      exact h.draft hc latest (h.store.acquire c.id free) rfl rfl free rfl rfl
  | promote reading free later latest =>
      exact h.draft hc latest ((h.store.acquire c.id free).unpin _) rfl (by simp) free (by simp)
        rfl
  | edit e writing =>
      refine h.turn hc rfl rfl h.store rfl rfl (fun _ _ hi => hi) ?_
      simp only [Context.Stands, writing] at hstands
      obtain ⟨hwriter, hbase, hg, hd, hsince, hdated⟩ := hstands
      simp only [Context.Stands, Chronicle.note, Chronicle.withDraft_self]
      exact ⟨hwriter, hbase, by rw [← hg]; rfl, hd.edit hsince e, Nat.le_succ_of_le hsince,
        hdated.edit e⟩
  | commit writing commit => exact h.publish hc writing commit rfl (.inl rfl)
  | commitAndRead writing commit => exact h.publish hc writing commit rfl (.inr rfl)
  | abandon writing =>
      exact h.turn hc rfl rfl (h.store.release _) rfl (by simp)
        (fun _ hne hi => Store.releaseWriter_writer? hi hne) trivial
  | rollbackAndRead writing pin =>
      obtain ⟨-, hv, rfl⟩ := Store.pin_eq_ok pin
      exact h.turn hc rfl rfl ((h.store.pin pin).release _) rfl (by simp)
        (fun _ hne hi => Store.releaseWriter_writer? hi hne)
        (Chronicle.edition_of_group (h.store.snapshot hv))

theorem join (h : Sound settings w ch) (n : Nat) :
    Sound settings (w.set n (Connection.new w.store).store (some (Connection.new w.store).context))
      ch := by
  refine ⟨h.store.connect, h.chronicle, ?_, ?_, ?_⟩
  · intro m d hd
    simp only [World.set] at hd
    split at hd
    · obtain rfl := Option.some.inj hd
      exact Nat.lt_succ_self _
    · exact Nat.lt_succ_of_lt (h.ids m d hd)
  · intro m k d e hd he hid
    simp only [World.set] at hd he
    split at hd <;> split at he
    next hm hk => exact hm.trans hk.symm
    next hm hk =>
      obtain rfl := Option.some.inj hd
      exact absurd hid.symm (Nat.ne_of_lt (h.ids k e he))
    next hm hk =>
      obtain rfl := Option.some.inj he
      exact absurd hid (Nat.ne_of_lt (h.ids m d hd))
    next => exact h.distinct m k d e hd he hid
  · intro m d hd
    simp only [World.set] at hd
    split at hd
    · obtain rfl := Option.some.inj hd
      trivial
    · exact (h.stands m d hd).turn rfl (Nat.le_refl _) fun hw => hw

theorem leave (h : Sound settings w ch) (hc : w.context? n = some c) :
    Sound settings (w.set n (Connection.mk w.store c).close none) ch := by
  have hclose : (Connection.mk w.store c).close.nextContext = w.store.nextContext ∧
      ∀ i, i ≠ c.id → w.store.writer? = some i →
        (Connection.mk w.store c).close.writer? = some i := by
    unfold Connection.close
    cases hstate : c.state with
    | idle => exact ⟨rfl, fun _ _ hi => hi⟩
    | reading v g => exact ⟨by simp, fun _ _ hi => by simpa using hi⟩
    | writing base g => exact ⟨by simp, fun _ hne hi => Store.releaseWriter_writer? hi hne⟩
  obtain ⟨hnext, hwriter⟩ := hclose
  have hlive : ∀ m d, (w.set n (Connection.mk w.store c).close none).context? m = some d →
      m ≠ n ∧ w.context? m = some d := by
    intro m d hd
    simp only [World.set] at hd
    split at hd
    · simp at hd
    next hm => exact ⟨hm, hd⟩
  refine ⟨h.store.close, h.chronicle, ?_, ?_, ?_⟩
  · intro m d hd
    exact Nat.lt_of_lt_of_eq (h.ids m d (hlive m d hd).2) hnext.symm
  · intro m k d e hd he
    exact h.distinct m k d e (hlive m d hd).2 (hlive k e he).2
  · intro m d hd
    obtain ⟨hm, hd⟩ := hlive m d hd
    refine (h.stands m d hd).turn rfl (Nat.le_refl _) (hwriter d.id fun hid => hm ?_)
    exact h.distinct m n d c hd hc hid

theorem compact (h : Sound settings w ch) : Sound settings ⟨w.store.compact.2, w.context?⟩ ch :=
  ⟨h.store.compact, h.chronicle, h.ids, h.distinct, fun m d hd =>
    (h.stands m d hd).turn rfl (Nat.le_refl _) fun hw => hw⟩

theorem step (h : Sound settings w ch) {w' : World} {d : Deed} (hs : Step w n d w') :
    Sound settings w' (ch.note n d) := by
  cases hs with
  | act live step => exact h.act live step
  | join => exact h.join n
  | leave live => exact h.leave live
  | compact => exact h.compact

/-- What is read is a version as it was committed. -/
theorem committed (h : Sound settings w ch) (hc : w.context? n = some c) {v : Version} {g : Group}
    (reading : c.state = .reading v g) : Version.nth? ch.groups v = some g := by
  have hstands := h.stands n c hc
  simp only [Context.Stands, reading] at hstands
  obtain ⟨E, hE, rfl⟩ := hstands
  rw [Chronicle.groups, Version.nth?_map, hE, Option.map_some]

/-- Whoever writes does so under the lock and on the latest version. -/
theorem publishable (h : Sound settings w ch) (hc : w.context? n = some c) :
    Connection.Publishable ⟨w.store, c⟩ := by
  intro base g (writing : c.state = .writing base g)
  have hstands := h.stands n c hc
  simp only [Context.Stands, writing] at hstands
  obtain ⟨hwriter, hbase, -⟩ := hstands
  have hlatest : base = w.store.latest := by
    rw [hbase, ← h.store.latest, Chronicle.groups, List.length_map]
  obtain ⟨previous, hprevious⟩ := h.store.latest_kept
  exact ⟨hwriter, hlatest, hlatest ▸ Option.isSome_of_eq_some hprevious⟩

end Sound

variable {settings : Settings} {w : World} {ch : Chronicle} {n : Nat} {c : Context} {d : Deed}

/-! The author of a step and everybody else -/

theorem set_context?_self (w : World) (n : Nat) (s : Store) (c? : Option Context) :
    (w.set n s c?).context? n = c? := if_pos rfl

theorem set_context?_ne (w : World) {n m : Nat} (s : Store) (c? : Option Context) (h : m ≠ n) :
    (w.set n s c?).context? m = w.context? m := if_neg h

theorem set_context (w : World) {c : Context} (h : w.context? n = some c) :
    w.set n w.store (some c) = w := by
  cases w
  simp only [set, mk.injEq, true_and]
  funext m
  split
  next hm => exact hm ▸ h.symm
  next => rfl

theorem set_set (w : World) (n : Nat) (s s' : Store) (c? c'? : Option Context) :
    (w.set n s c?).set n s' c'? = w.set n s' c'? := by
  simp only [set, mk.injEq, true_and]
  funext m
  split <;> rfl

theorem Step.context?_ne {m : Nat} {w' : World} (hs : Step w n d w') (hm : m ≠ n) :
    w'.context? m = w.context? m := by
  cases hs with
  | act | join | leave => exact set_context?_ne w _ _ hm
  | compact => rfl

/-- There is at most one open write. -/
theorem Sound.writer_unique (hw : Sound settings w ch) {m : Nat} {e : Context}
    (hc : w.context? n = some c) (he : w.context? m = some e) (hcw : c.isWriting)
    (hew : e.isWriting) : n = m := by
  obtain ⟨base, g, hn⟩ := (Connection.isWriting_iff c).mp hcw
  obtain ⟨base', g', hm⟩ := (Connection.isWriting_iff e).mp hew
  have hstands := hw.stands n c hc
  have hstands' := hw.stands m e he
  simp only [Context.Stands, hn] at hstands
  simp only [Context.Stands, hm] at hstands'
  exact hw.distinct n m c e hc he (Option.some.inj (hstands.1.symm.trans hstands'.1))

theorem Step.versions_of_writing {w' : World} (hs : Step w n d w') (hw : Sound settings w ch)
    {m : Nat} {e : Context} (he : w.context? m = some e) (writing : e.isWriting) (hm : m ≠ n)
    (ch' : Chronicle) : (ch'.note n d).versions = ch'.versions := by
  cases hs with
  | join | leave | compact => rfl
  | act live step =>
      cases step with
      | commit hstate | commitAndRead hstate =>
          have hcw := (Connection.isWriting_iff _).mpr ⟨_, _, hstate⟩
          exact absurd (hw.writer_unique live he hcw writing).symm hm
      | stay | count | beginRead | endRead | advance | beginWrite | promote | edit | abandon
      | rollbackAndRead => rfl

/-! Runs -/

/-- The worlds that any steps of any contexts lead to, each with its chronicle. -/
inductive Reachable (settings : Settings) : World → Chronicle → Prop
  | opened {id : String} {s : Store} (h : Store.openNew id settings = .ok s) :
      Reachable settings ⟨s, fun _ => none⟩ .opened
  | step {w w' : World} {ch : Chronicle} {n : Nat} {d : Deed} (h : Reachable settings w ch)
      (hs : Step w n d w') : Reachable settings w' (ch.note n d)

/-- Steps of any contexts, one after the other, and what becomes of the chronicle. -/
inductive Path (w : World) (ch : Chronicle) : World → Chronicle → Prop
  | refl : Path w ch w ch
  | step {w' w'' : World} {ch' : Chronicle} {n : Nat} {d : Deed} (h : Path w ch w' ch')
      (hs : Step w' n d w'') : Path w ch w'' (ch'.note n d)

theorem Path.trans {w w' w'' : World} {ch ch' ch'' : Chronicle} (h : Path w ch w' ch')
    (h' : Path w' ch' w'' ch'') : Path w ch w'' ch'' := by
  induction h' with
  | refl => exact h
  | step _ hs ih => exact ih.step hs

theorem Reachable.path {w w' : World} {ch ch' : Chronicle} (h : Reachable settings w ch)
    (hp : Path w ch w' ch') : Reachable settings w' ch' := by
  induction hp with
  | refl => exact h
  | step _ hs ih => exact ih.step hs

theorem Reachable.sound {settings : Settings} {w : World} {ch : Chronicle}
    (h : Reachable settings w ch) : Sound settings w ch := by
  induction h with
  | opened h => exact ⟨⟨_, .opened h, rfl⟩, Chronicle.opened_sound, by simp, by simp, by simp⟩
  | step _ hs ih => exact ih.step hs

end World
end SnapshotStore
