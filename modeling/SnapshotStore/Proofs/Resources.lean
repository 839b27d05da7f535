import SnapshotStore.Proofs.Isolation

/-!
Resources of a store. Each pin belongs to a context that reads the version, and the write lock
belongs to the context that writes. A step moves what its author has and touches nothing of
what others have.
-/

namespace SnapshotStore

/-- Whether the context reads the version. -/
def Context.reads (c : Context) (v : Version) : Bool :=
  match c.state with
  | .reading w _ => v = w
  | _ => false

namespace Context
variable {c : Context} {w : Version} {g : Group}

theorem reads_of_reading (h : c.state = .reading w g) (v : Version) :
    c.reads v = decide (v = w) := by
  simp only [reads, h]

theorem reads_of_idle (h : c.state = .idle) (v : Version) : c.reads v = false := by
  simp only [reads, h]

theorem reads_of_writing (h : c.state = .writing w g) (v : Version) : c.reads v = false := by
  simp only [reads, h]

theorem isWriting_of_idle (h : c.state = .idle) : c.isWriting = false := by
  simp only [isWriting, h]

theorem isWriting_of_reading (h : c.state = .reading w g) : c.isWriting = false := by
  simp only [isWriting, h]

end Context

/-! Pins and the lock under the commands of a store -/

namespace Store

theorem addPin_pinCount (s : Store) (w v : Version) :
    (s.addPin w).pinCount v = s.pinCount v + (decide (v = w)).toNat := by
  simp only [pinCount, addPin, NatMap.get?_insert]
  by_cases h : v = w <;> simp [h]

theorem compact_pinCount (s : Store) (v : Version) : s.compact.2.pinCount v = s.pinCount v := rfl

theorem unpin_pinCount (s : Store) (w v : Version) :
    (s.unpin w).pinCount v = s.pinCount v - (decide (v = w)).toNat := by
  unfold unpin
  cases hw : s.pins.get? w with
  | none => by_cases h : v = w <;> simp [pinCount, h, hw]
  | some n =>
      dsimp only
      rw [compact_pinCount]
      by_cases hn : n ≤ 1
      · by_cases h : v = w
        · subst h
          simp only [pinCount, hn, if_true, NatMap.get?_erase, hw]
          simp
          omega
        · simp [pinCount, hn, NatMap.get?_erase, h]
      · by_cases h : v = w
        · simp [pinCount, hn, h, hw]
        · simp [pinCount, hn, NatMap.get?_insert, h]

theorem publish_pinCount (s : Store) (g previous : Group) (keepPinned : Bool) (v : Version) :
    (s.publish g previous keepPinned).pinCount v =
      s.pinCount v + (keepPinned && decide (v = s.latest + 1)).toNat := by
  cases keepPinned with
  | false => rfl
  | true =>
      simp only [publish, if_true, compact_pinCount, addPin_pinCount, Bool.true_and]
      rfl

theorem releaseWriter_pinCount (s : Store) (id : ContextId) (v : Version) :
    (s.releaseWriter id).pinCount v = s.pinCount v := by
  unfold releaseWriter
  split <;> rfl

theorem publish_writer? (s : Store) (g previous : Group) (keepPinned : Bool) :
    (s.publish g previous keepPinned).writer? = s.writer? := by
  cases keepPinned <;> rfl

theorem releaseWriter_eq_some {s : Store} {holder id : ContextId} :
    (s.releaseWriter holder).writer? = some id ↔ s.writer? = some id ∧ id ≠ holder := by
  unfold releaseWriter
  split
  next h => simp [h, eq_comm]
  next h =>
    refine ⟨fun hid => ⟨hid, ?_⟩, And.left⟩
    rintro rfl
    exact h hid

end Store

/-! What a step does to the resources of its author and of others -/

namespace Connection
variable {c c' : Connection} {d : Deed}

theorem reads_le_pinCount (own : ∀ v, c.context.reads v → 0 < c.store.pinCount v) (v : Version) :
    (c.context.reads v).toNat ≤ c.store.pinCount v := by
  cases hv : c.context.reads v with
  | false => exact Nat.zero_le _
  | true => exact own v hv

/-- The author's pins follow what the author reads. -/
theorem Step.pinCount (h : Step c d c')
    (own : ∀ v, c.context.reads v → 0 < c.store.pinCount v) (v : Version) :
    c'.store.pinCount v + (c.context.reads v).toNat =
      c.store.pinCount v + (c'.context.reads v).toNat := by
  have hpinned := reads_le_pinCount own v
  cases h with
  | stay | count => rfl
  | @beginRead s _ c _ w g idle pin =>
      obtain ⟨-, -, rfl⟩ := Store.pin_eq_ok pin
      have hafter := Context.reads_of_reading (c := (c.enterRead w g).newEpoch) rfl v
      rw [Context.reads_of_idle idle, hafter, Store.addPin_pinCount, Bool.toNat_false, Nat.add_zero]
  | @endRead s c w g reading =>
      rw [Context.reads_of_reading reading] at hpinned ⊢
      have hafter := Context.reads_of_idle (c := c.enterIdle) rfl v
      rw [hafter, Store.unpin_pinCount, Nat.sub_add_cancel hpinned, Bool.toNat_false, Nat.add_zero]
  | @advance s _ c w w' g g' reading later pin =>
      obtain ⟨-, -, rfl⟩ := Store.pin_eq_ok pin
      rw [Context.reads_of_reading reading] at hpinned ⊢
      have hafter := Context.reads_of_reading (c := c.enterRead w' g') rfl v
      rw [hafter, Store.unpin_pinCount, Store.addPin_pinCount]
      exact Nat.sub_add_cancel (Nat.le_trans hpinned (Nat.le_add_right _ _))
  | @beginWrite s c g idle free latest =>
      have hafter := Context.reads_of_writing (c := (c.enterWrite s.latest g).newEpoch) rfl v
      rw [Context.reads_of_idle idle, hafter]
      rfl
  | @promote s c w g g' reading free later latest =>
      rw [Context.reads_of_reading reading] at hpinned ⊢
      have hafter := Context.reads_of_writing (c := c.enterWrite s.latest g') rfl v
      rw [hafter, Store.unpin_pinCount, Bool.toNat_false, Nat.add_zero]
      exact Nat.sub_add_cancel hpinned
  | @edit s c base g e writing =>
      have hafter := Context.reads_of_writing
        (c := { c with state := .writing base (g.edit e).2 }) rfl v
      rw [Context.reads_of_writing writing, hafter]
  | @commit s _ c base w g writing commit =>
      obtain ⟨-, -, -, previous, -, rfl⟩ := Store.commit_eq_ok commit
      have hafter := Context.reads_of_idle (c := { c with lastVersion? := some w }.enterIdle) rfl v
      rw [Context.reads_of_writing writing, hafter, Store.releaseWriter_pinCount,
        Store.publish_pinCount, Bool.false_and, Bool.toNat_false]
  | @commitAndRead s _ c base w g writing commit =>
      obtain ⟨-, rfl, rfl, previous, -, rfl⟩ := Store.commit_eq_ok commit
      have hafter := Context.reads_of_reading (c := c.enterRead (s.latest + 1) g) rfl v
      rw [Context.reads_of_writing writing, hafter, Store.releaseWriter_pinCount,
        Store.publish_pinCount, Bool.true_and, Bool.toNat_false, Nat.add_zero]
  | @abandon s c base g writing =>
      have hafter := Context.reads_of_idle (c := c.enterIdle) rfl v
      rw [Context.reads_of_writing writing, hafter, Store.releaseWriter_pinCount]
  | @rollbackAndRead s _ c base g g' writing pin =>
      obtain ⟨-, -, rfl⟩ := Store.pin_eq_ok pin
      have hafter := Context.reads_of_reading (c := c.enterRead base g') rfl v
      rw [Context.reads_of_writing writing, hafter, Store.releaseWriter_pinCount,
        Store.addPin_pinCount, Bool.toNat_false, Nat.add_zero]

/-- The author has the lock exactly while it writes, and others keep what they have. -/
structure Locks (c c' : Connection) : Prop where
  own : c'.store.writer? = some c.context.id ↔ c'.context.isWriting
  others : ∀ id, id ≠ c.context.id → (c'.store.writer? = some id ↔ c.store.writer? = some id)

namespace Locks
variable {s s' : Store} {e e' : Context}

theorem same (own : s.writer? = some e.id ↔ e.isWriting) (hs : s'.writer? = s.writer?)
    (he : e'.isWriting = e.isWriting) : Locks ⟨s, e⟩ ⟨s', e'⟩ where
  own := by
    rw [hs, he]
    exact own
  others id _ := by rw [hs]

theorem acquire (free : s.writer? = none) (hs : s'.writer? = some e.id)
    (he : e'.isWriting = true) : Locks ⟨s, e⟩ ⟨s', e'⟩ where
  own := iff_of_true hs he
  others id hid := by simp [free, hs, Ne.symm hid]

theorem release (hs : s'.writer? = s.writer?) (he : e'.isWriting = false) :
    Locks ⟨s, e⟩ ⟨s'.releaseWriter e.id, e'⟩ where
  own := by simp [he, Store.releaseWriter_eq_some]
  others id hid := by simp [Store.releaseWriter_eq_some, hid, hs]

end Locks

theorem Step.locks (h : Step c d c')
    (own : c.store.writer? = some c.context.id ↔ c.context.isWriting) : Locks c c' := by
  cases h with
  | stay | count => exact .same own rfl rfl
  | beginRead idle pin =>
      obtain ⟨-, -, rfl⟩ := Store.pin_eq_ok pin
      exact .same own rfl (Context.isWriting_of_idle idle).symm
  | endRead reading =>
      exact .same own (Store.unpin_writer? _ _) (Context.isWriting_of_reading reading).symm
  | advance reading later pin =>
      obtain ⟨-, -, rfl⟩ := Store.pin_eq_ok pin
      exact .same own (Store.unpin_writer? _ _) (Context.isWriting_of_reading reading).symm
  | beginWrite idle free latest => exact .acquire free rfl rfl
  | promote reading free later latest => exact .acquire free (Store.unpin_writer? _ _) rfl
  | edit e writing => exact .same own rfl ((isWriting_iff _).mpr ⟨_, _, writing⟩).symm
  | commit writing commit =>
      obtain ⟨-, -, -, previous, -, rfl⟩ := Store.commit_eq_ok commit
      exact .release (Store.publish_writer? ..) rfl
  | commitAndRead writing commit =>
      obtain ⟨-, -, -, previous, -, rfl⟩ := Store.commit_eq_ok commit
      exact .release (Store.publish_writer? ..) rfl
  | abandon writing => exact .release rfl rfl
  | rollbackAndRead writing pin =>
      obtain ⟨-, -, rfl⟩ := Store.pin_eq_ok pin
      exact .release rfl rfl

/-- Whoever leaves gives its pin back. -/
theorem close_pinCount (own : ∀ v, c.context.reads v → 0 < c.store.pinCount v) (v : Version) :
    c.close.pinCount v + (c.context.reads v).toNat = c.store.pinCount v := by
  unfold close
  cases hc : c.context.state with
  | idle => rw [Context.reads_of_idle hc, Bool.toNat_false, Nat.add_zero]
  | reading w g =>
      have hpinned := reads_le_pinCount own v
      rw [Context.reads_of_reading hc] at hpinned ⊢
      rw [Store.unpin_pinCount, Nat.sub_add_cancel hpinned]
  | writing base g =>
      rw [Context.reads_of_writing hc, Store.releaseWriter_pinCount, Bool.toNat_false, Nat.add_zero]

theorem close_writer? (own : c.store.writer? = some c.context.id ↔ c.context.isWriting)
    (id : ContextId) :
    c.close.writer? = some id ↔ c.store.writer? = some id ∧ id ≠ c.context.id := by
  have hother : c.context.isWriting = false →
      (c.store.writer? = some id ↔ c.store.writer? = some id ∧ id ≠ c.context.id) := by
    intro hw
    refine ⟨fun hid => ⟨hid, ?_⟩, And.left⟩
    rintro rfl
    simp [own.mp hid] at hw
  unfold close
  cases hc : c.context.state with
  | idle => exact hother (Context.isWriting_of_idle hc)
  | reading v g =>
      rw [Store.unpin_writer?]
      exact hother (Context.isWriting_of_reading hc)
  | writing base g => exact Store.releaseWriter_eq_some

/-! Transitions that fail -/

variable {e : Error}

theorem beginRead_error {at? : Option Version} (h : beginRead at? c = .error e c') : c' = c := by
  unfold beginRead at h
  split at h
  · split at h
    · simp at h
    · exact (EStateM.Result.error.inj h).2.symm
  · exact (EStateM.Result.error.inj h).2.symm

theorem advance_error {to? : Option Version} (h : advance to? c = .error e c') : c' = c := by
  unfold advance at h
  split at h
  · dsimp only at h
    split at h
    · exact (EStateM.Result.error.inj h).2.symm
    · split at h
      · simp at h
      · split at h
        · exact (EStateM.Result.error.inj h).2.symm
        · split at h
          · exact (EStateM.Result.error.inj h).2.symm
          · simp at h
  · exact (EStateM.Result.error.inj h).2.symm

/-- A lock that was taken in vain is given back. -/
theorem beginWrite_error (h : beginWrite c = .error e c') : c' = c := by
  unfold beginWrite at h
  split at h
  · split at h
    · exact (EStateM.Result.error.inj h).2.symm
    next hacquire =>
      obtain ⟨hfree, rfl⟩ := Store.acquireWriter_eq_ok hacquire
      split at h
      · rw [Store.releaseWriter_acquired _ hfree] at h
        exact (EStateM.Result.error.inj h).2.symm
      · simp at h
  · exact (EStateM.Result.error.inj h).2.symm

theorem promote_error (h : promote c = .error e c') : c' = c := by
  unfold promote at h
  split at h
  · split at h
    · exact (EStateM.Result.error.inj h).2.symm
    next hacquire =>
      obtain ⟨hfree, rfl⟩ := Store.acquireWriter_eq_ok hacquire
      split at h
      · simp at h
      · rw [Store.releaseWriter_acquired _ hfree] at h
        exact (EStateM.Result.error.inj h).2.symm
      · rw [Store.releaseWriter_acquired _ hfree] at h
        exact (EStateM.Result.error.inj h).2.symm
  · exact (EStateM.Result.error.inj h).2.symm

end Connection

namespace Transition

/-- The transitions that take a pin or the lock. -/
def takes : Transition → Bool
  | beginRead _ | advance _ | beginWrite | promote => true
  | endRead | commit | commitAndRead | rollback | rollbackAndRead => false

theorem perform_error_of_takes {t : Transition} (ht : t.takes) {c c' : Connection} {e : Error}
    (h : t.perform c = .error e c') : c' = c := by
  cases t with
  | beginRead at? => exact Connection.beginRead_error (map_run_error.mp h)
  | advance to? => exact Connection.advance_error (map_run_error.mp h)
  | beginWrite => exact Connection.beginWrite_error (map_run_error.mp h)
  | promote => exact Connection.promote_error (map_run_error.mp h)
  | endRead | commit | commitAndRead | rollback | rollbackAndRead => simp [takes] at ht

end Transition

/-! Contexts that share a store -/

namespace Connections
variable {settings : Settings} {cs : Connections} {ch : Chronicle}

/-- How many live contexts read the version. -/
def readers (cs : Connections) (v : Version) : Nat := cs.contexts.values.countP (·.reads v)

/-- Every pin is that of a reader, and the lock is the writer's. -/
structure Balanced (cs : Connections) : Prop where
  pins : ∀ v, cs.store.pinCount v = cs.readers v
  writer : ∀ id, cs.store.writer? = some id ↔ ∃ c, cs.contexts.get? id = some c ∧ c.isWriting

theorem readers_put (cs : Connections) (c : Connection) (v : Version) :
    (cs.put c).readers v = (cs.contexts.erase c.context.id).values.countP (·.reads v) +
      (c.context.reads v).toNat :=
  NatMap.countP_insert ..

namespace Balanced

theorem pinned (h : cs.Balanced) {id : ContextId} {c : Context} (hc : cs.contexts.get? id = some c)
    {v : Version} (hv : c.reads v) : 0 < cs.store.pinCount v := by
  have hcount := NatMap.countP_erase (·.reads v) hc
  rw [h.pins, readers, ← hcount, hv]
  exact Nat.succ_pos _

theorem own (h : cs.Balanced) {id : ContextId} {c : Context}
    (hc : cs.contexts.get? id = some c) : cs.store.writer? = some id ↔ c.isWriting := by
  rw [h.writer]
  constructor
  · rintro ⟨d, hd, hw⟩
    exact Option.some.inj (hc.symm.trans hd) ▸ hw
  · exact fun hw => ⟨c, hc, hw⟩

theorem put (h : cs.Balanced) (hk : cs.Keyed) {id : ContextId} {c : Context}
    (hc : cs.contexts.get? id = some c) {d : Deed} {c' : Connection}
    (hs : Connection.Step ⟨cs.store, c⟩ d c') : (cs.put c').Balanced := by
  obtain rfl := hk id c hc
  have hid : c'.context.id = c.id := hs.id
  refine ⟨fun v => ?_, fun id => ?_⟩
  · have hstep : c'.store.pinCount v + (c.reads v).toNat =
        cs.store.pinCount v + (c'.context.reads v).toNat :=
      hs.pinCount (fun v hv => h.pinned hc hv) v
    have hcount := NatMap.countP_erase (·.reads v) hc
    have hpins := h.pins v
    rw [readers, ← hcount] at hpins
    rw [readers_put, hid]
    change c'.store.pinCount v = _
    omega
  · have hlocks := hs.locks (h.own hc)
    simp only [Connections.put, NatMap.get?_insert, hid]
    by_cases he : id = c.id
    · subst he
      simpa using hlocks.own
    · rw [hlocks.others id he, h.writer]
      simp [he]

theorem connect (h : cs.Balanced) (hfree : cs.contexts.get? cs.store.nextContext = none) :
    (cs.make .connect).Balanced := by
  refine ⟨fun v => ?_, fun id => ?_⟩
  · have hcount := readers_put cs (Connection.new cs.store) v
    change _ = (cs.contexts.erase cs.store.nextContext).values.countP (·.reads v) + 0 at hcount
    rw [NatMap.erase_of_get? hfree] at hcount
    exact (h.pins v).trans hcount.symm
  · change cs.store.writer? = some id ↔
      ∃ c, (cs.contexts.insert cs.store.nextContext (.new cs.store.nextContext)).get? id = some c ∧
        c.isWriting
    rw [h.writer, NatMap.get?_insert]
    by_cases he : id = cs.store.nextContext
    · simp [he, hfree, Context.new, Context.isWriting]
    · simp [he]

theorem disconnect (h : cs.Balanced) (hk : cs.Keyed) (id : ContextId) :
    (cs.make (.disconnect id)).Balanced := by
  simp only [make, Connections.disconnect, Connections.get?]
  cases hc : cs.contexts.get? id with
  | none => exact h
  | some c =>
      obtain rfl := hk id c hc
      refine ⟨fun v => ?_, fun id => ?_⟩
      · have hclose := Connection.close_pinCount (c := ⟨cs.store, c⟩)
          (fun v hv => h.pinned hc hv) v
        have hcount := NatMap.countP_erase (·.reads v) hc
        have hpins := h.pins v
        rw [readers, ← hcount] at hpins
        exact Nat.add_right_cancel (hclose.trans hpins)
      · have hclose := Connection.close_writer? (c := ⟨cs.store, c⟩) (h.own hc) id
        simp only [Option.map_some, NatMap.get?_erase]
        rw [hclose, h.writer]
        by_cases he : id = c.id
        · simp [he]
        · simp [he]

theorem make (h : cs.Balanced) (hk : cs.Keyed) (hr : World.Reachable settings cs.world ch)
    (m : Move) : (cs.make m).Balanced := by
  cases m with
  | connect => exact h.connect (vacant hk hr)
  | disconnect id => exact h.disconnect hk id
  | transact id t =>
      cases hc : cs.contexts.get? id with
      | none => simpa [Connections.make, act, Connections.get?, hc] using h
      | some c =>
          have hd := Connection.perform_does t ⟨cs.store, c⟩
          simp only [Connections.make, act_eq _ hc]
          cases ht : t.perform ⟨cs.store, c⟩ with
          | ok x c' =>
              rw [ht] at hd
              exact h.put hk hc hd
          | error e c' =>
              rw [ht] at hd
              exact h.put hk hc hd
  | edit id e =>
      cases hc : cs.contexts.get? id with
      | none => simpa [Connections.make, act, Connections.get?, hc] using h
      | some c =>
          simp only [Connections.make, act_eq _ hc]
          cases hw : c.isWriting with
          | false =>
              simp only [Connection.edit_refused _ e hw]
              exact h.put hk hc (.stay _)
          | true =>
              obtain ⟨base, g, hs⟩ := (Connection.isWriting_iff c).mp hw
              rcases Connection.edit_writing cs.store e hs with ⟨x, hx⟩ | ⟨x, hx⟩
              · simp only [hx]
                exact h.put hk hc (.edit e hs)
              · simp only [hx]
                exact h.put hk hc (.edit e hs)
  | compact => exact ⟨h.pins, h.writer⟩

theorem run (h : cs.Balanced) (hk : cs.Keyed) (hr : World.Reachable settings cs.world ch)
    (moves : List Move) : (Connections.run cs ch moves).1.Balanced := by
  induction moves generalizing cs ch with
  | nil => exact h
  | cons m moves ih =>
      obtain ⟨hk', hp⟩ := make_path hk hr m
      exact ih (h.make hk hr m) hk' (hr.path hp)

end Balanced

/-- A transition that takes a pin or the lock and fails has changed nothing at all. -/
theorem act_error_of_takes (hk : cs.Keyed) {id : ContextId} {t : Transition} (ht : t.takes)
    {e : Error} {cs' : Connections} (h : cs.act id t.perform = some (.error e, cs')) :
    cs' = cs := by
  cases hc : cs.contexts.get? id with
  | none => simp [act, Connections.get?, hc] at h
  | some c =>
      obtain rfl := hk id c hc
      rw [act_eq _ hc] at h
      split at h
      · simp at h
      next hperform =>
        obtain rfl := t.perform_error_of_takes ht hperform
        obtain ⟨-, rfl⟩ := Prod.mk.inj (Option.some.inj h)
        exact congrArg (Connections.mk cs.store) (NatMap.insert_of_get? hc)

/-- What the books of a store say about its contexts. -/
structure Accounted (cs : Connections) : Prop where
  /-- A version has as many pins as there are live contexts that read it. -/
  pins : ∀ v, cs.store.pinCount v = cs.readers v
  /-- The lock is held by the live context that writes, and only then. -/
  writer : ∀ id, cs.store.writer? = some id ↔ ∃ c, cs.contexts.get? id = some c ∧ c.isWriting
  /-- At most one context writes. -/
  alone : ∀ id id' c c', cs.contexts.get? id = some c → cs.contexts.get? id' = some c' →
    c.isWriting → c'.isWriting → id = id'
  /-- Whoever tries to begin or to move on and fails leaves everything as it is. -/
  failed : ∀ id (t : Transition) e cs', t.takes → cs.act id t.perform = some (.error e, cs') →
    cs' = cs
  /-- Contexts that are idle have given everything back. -/
  settled : (∀ id c, cs.contexts.get? id = some c → c.state = .idle) →
    cs.store.pins = ∅ ∧ cs.store.writer? = none

/-- However contexts come, go and take turns, each pin and the write lock are accounted for. -/
theorem resource_accounting {name : String} {s : Store}
    (h : Store.openNew name settings = .ok s) (moves : List Move) :
    (run (.new s) .opened moves).1.Accounted := by
  have hk : (Connections.new s).Keyed := fun id c hc => by simp [new] at hc
  have hr : World.Reachable settings (Connections.new s).world .opened := .opened h
  have hb : (Connections.new s).Balanced := by
    obtain ⟨-, -, rfl⟩ := Store.openNew_eq_ok h
    exact ⟨fun v => rfl, fun id => by simp [new]⟩
  have hbalanced := hb.run hk hr moves
  obtain ⟨hkeyed, hreachable⟩ := run_reachable hk hr moves
  generalize (run (.new s) .opened moves).1 = cs at *
  refine ⟨hbalanced.pins, hbalanced.writer, ?_, fun _ _ _ _ ht => act_error_of_takes hkeyed ht, ?_⟩
  · intro id id' c c' hc hc' hw hw'
    have hholds := (hbalanced.writer id).mpr ⟨c, hc, hw⟩
    have hholds' := (hbalanced.writer id').mpr ⟨c', hc', hw'⟩
    exact Option.some.inj (hholds.symm.trans hholds')
  · intro hidle
    obtain ⟨l, hexact, -⟩ := hreachable.sound.store.exact
    refine ⟨NatMap.eq_empty fun v => hexact.unpinned ?_, Option.eq_none_iff_forall_ne_some.mpr ?_⟩
    · refine (hbalanced.pins v).trans (List.countP_eq_zero.mpr fun c hc => ?_)
      obtain ⟨e, he, rfl⟩ := List.mem_map.mp hc
      have hget := (NatMap.get?_eq_some_iff _ e.1 e.2).mpr he
      simp [Context.reads_of_idle (hidle e.1 e.2 hget)]
    · intro id hid
      obtain ⟨c, hc, hw⟩ := (hbalanced.writer id).mp hid
      simp [Context.isWriting_of_idle (hidle id c hc)] at hw

/-- Two readers of different versions and a writer who finds the lock taken. -/
theorem resource_accounting_of_three : ∃ cs : Connections, cs.Accounted ∧
    cs.store.pinCount 1 = 1 ∧ cs.store.pinCount 2 = 1 ∧ cs.store.writer? = some 3 := by
  have ho : Store.openNew "store" {} = .ok _ := rfl
  have h := resource_accounting ho [.connect, .connect, .connect, .transact 1 (.beginRead none),
    .transact 2 .beginWrite, .transact 3 .beginWrite, .transact 2 .commitAndRead,
    .transact 3 .beginWrite, .connect, .transact 4 (.beginRead none), .transact 4 .promote,
    .disconnect 4]
  exact ⟨_, h, rfl, rfl, rfl⟩

end Connections
end SnapshotStore
