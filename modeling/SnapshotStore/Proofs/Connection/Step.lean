import SnapshotStore.Context
import SnapshotStore.Proofs.Store.Retention

/-!
Everything that a connection can do in one step, whatever action it carries out. An action
that fails leaves the connection alone or gives the open write up.
-/

namespace SnapshotStore

/-- What a step means to an observer of what is committed. -/
inductive Deed
  /-- Nothing that could ever be committed changes. -/
  | rest
  /-- A write on the latest version begins. -/
  | draft
  | edit (e : Edit)
  /-- The open write becomes the next version. -/
  | publish
  /-- The open write is given up and its base is read instead. -/
  | retreat

def Transition.deed : Transition → Deed
  | .beginWrite | .promote => .draft
  | .commit | .commitAndRead => .publish
  | .rollbackAndRead => .retreat
  | .beginRead _ | .endRead | .advance _ | .rollback => .rest

namespace Store

theorem snapshot_eq_ok {s : Store} {v : Version} {g : Group} :
    s.snapshot v = .ok g ↔ s.snapshots.get? v = some g := by
  unfold snapshot
  cases s.snapshots.get? v <;> simp

/-- The next version is kept, however few versions stay. -/
theorem publish_snapshot (s : Store) (g previous : Group) (keepPinned : Bool) :
    (s.publish g previous keepPinned).snapshots.get? (s.latest + 1) = some g := by
  cases keepPinned <;>
    simp [publish, compact, addPin, NatMap.get?_filterKeys, mustKeep, NatMap.get?_insert_self]

/-- A write lock that is given back at once was never taken. -/
theorem releaseWriter_acquired {s : Store} (id : ContextId) (h : s.writer? = none) :
    { s with writer? := some id }.releaseWriter id = s := by
  obtain ⟨_, _, _, _, _, _, w, _, _⟩ := s
  simp only at h
  subst h
  simp [Store.releaseWriter]

theorem changesBetween_le {s : Store} {a b : Version} {cs : List Changeset}
    (h : s.changesBetween a b = .ok cs) : a ≤ b := by
  unfold changesBetween at h
  split at h
  · simp at h
  next hle => exact Nat.le_of_not_lt hle

theorem releaseWriter_snapshots (s : Store) (id : ContextId) :
    (s.releaseWriter id).snapshots = s.snapshots := by
  unfold releaseWriter
  split <;> rfl

end Store

namespace Context
variable {c : Context} {v : Version} {g : Group}

theorem group_of_reading (h : c.state = .reading v g) : c.group = .ok g := by
  simp only [group, h]

theorem group_of_writing (h : c.state = .writing v g) : c.group = .ok g := by
  simp only [group, h]

end Context

namespace Connection

/-- The steps of a connection, each with its deed. -/
inductive Step : Connection → Deed → Connection → Prop
  | stay (c : Connection) : Step c .rest c
  | count (c : Connection) : Step c .rest ⟨c.store.recordCall, c.context⟩
  | beginRead {s s' : Store} {c : Context} {at? : Option Version} {v : Version} {g : Group}
      (idle : c.state = .idle) (pin : s.pin at? = .ok ((v, g), s')) :
      Step ⟨s, c⟩ .rest ⟨s', (c.enterRead v g).newEpoch⟩
  | endRead {s : Store} {c : Context} {v : Version} {g : Group}
      (reading : c.state = .reading v g) : Step ⟨s, c⟩ .rest ⟨s.unpin v, c.enterIdle⟩
  | advance {s s' : Store} {c : Context} {v w : Version} {g g' : Group}
      (reading : c.state = .reading v g) (later : v < w)
      (pin : s.pin (some w) = .ok ((w, g'), s')) :
      Step ⟨s, c⟩ .rest ⟨s'.unpin v, c.enterRead w g'⟩
  | beginWrite {s : Store} {c : Context} {g : Group}
      (idle : c.state = .idle) (free : s.writer? = none)
      (latest : s.snapshots.get? s.latest = some g) :
      Step ⟨s, c⟩ .draft
        ⟨{ s with writer? := some c.id }, (c.enterWrite s.latest g).newEpoch⟩
  | promote {s : Store} {c : Context} {v : Version} {g g' : Group}
      (reading : c.state = .reading v g) (free : s.writer? = none)
      (later : v ≤ s.latest) (latest : s.snapshots.get? s.latest = some g') :
      Step ⟨s, c⟩ .draft
        ⟨{ s with writer? := some c.id }.unpin v, c.enterWrite s.latest g'⟩
  | edit {s : Store} {c : Context} {base : Version} {g : Group} (e : Edit)
      (writing : c.state = .writing base g) :
      Step ⟨s, c⟩ (.edit e) ⟨s, { c with state := .writing base (g.edit e).2 }⟩
  | commit {s s' : Store} {c : Context} {base v : Version} {g : Group}
      (writing : c.state = .writing base g)
      (commit : s.commit c.id base g false = .ok (v, s')) :
      Step ⟨s, c⟩ .publish
        ⟨s'.releaseWriter c.id, { c with lastVersion? := some v }.enterIdle⟩
  | commitAndRead {s s' : Store} {c : Context} {base v : Version} {g : Group}
      (writing : c.state = .writing base g)
      (commit : s.commit c.id base g true = .ok (v, s')) :
      Step ⟨s, c⟩ .publish ⟨s'.releaseWriter c.id, c.enterRead v g⟩
  | abandon {s : Store} {c : Context} {base : Version} {g : Group}
      (writing : c.state = .writing base g) :
      Step ⟨s, c⟩ .rest ⟨s.releaseWriter c.id, c.enterIdle⟩
  | rollbackAndRead {s s' : Store} {c : Context} {base : Version} {g g' : Group}
      (writing : c.state = .writing base g)
      (pin : s.pin (some base) = .ok ((base, g'), s')) :
      Step ⟨s, c⟩ .retreat ⟨s'.releaseWriter c.id, c.enterRead base g'⟩

theorem Step.id {c c' : Connection} {d : Deed} (h : Step c d c') :
    c'.context.id = c.context.id := by
  cases h <;> rfl

/-- An action that does a deed if it succeeds and none if it fails. -/
def Does {α : Type} (a : Action α) (d : Deed) : Prop := ∀ c,
  match a c with
  | .ok _ c' => Step c d c'
  | .error _ c' => Step c .rest c'

namespace Does
variable {α β : Type} {a : Action α} {d : Deed} {c c' : Connection}

theorem ok {x : α} (h : Does a d) (hx : a c = .ok x c') : Step c d c' := by
  have hc := h c
  rwa [hx] at hc

theorem error {e : Error} (h : Does a d) (he : a c = .error e c') : Step c .rest c' := by
  have hc := h c
  rwa [he] at hc

theorem map (h : Does a d) (f : α → β) : Does (a >>= fun x => pure (f x)) d := by
  intro c
  have hc := h c
  simp only [bind, EStateM.bind, pure, EStateM.pure]
  cases hx : a c <;> simpa only [hx] using hc

end Does

/-! The transitions -/

theorem beginRead_does (at? : Option Version) : Does (beginRead at?) .rest := by
  rintro ⟨s, c⟩
  simp only [beginRead]
  cases hc : c.state with
  | idle =>
      cases hp : s.pin at? with
      | ok r =>
          obtain ⟨⟨v, g⟩, s'⟩ := r
          exact .beginRead hc hp
      | error e => exact .stay _
  | reading v g | writing v g => exact .stay _

theorem endRead_does : Does endRead .rest := by
  rintro ⟨s, c⟩
  simp only [endRead]
  cases hc : c.state with
  | reading v g => exact .endRead hc
  | idle | writing v g => exact .stay _

theorem advance_does (to? : Option Version) : Does (advance to?) .rest := by
  rintro ⟨s, c⟩
  simp only [advance]
  cases hc : c.state with
  | reading v g =>
      generalize to?.getD s.latest = w
      by_cases hlt : w < v
      · simpa only [hlt, if_true] using Step.stay _
      · by_cases he : w = v
        · simpa only [hlt, he, Nat.lt_irrefl, if_true, if_false] using Step.stay _
        · simp only [hlt, he, if_false]
          have hvw : v < w := Nat.lt_of_le_of_ne (Nat.le_of_not_lt hlt) (Ne.symm he)
          cases hch : s.changesBetween v w with
          | error e => exact .stay _
          | ok changes =>
              cases hp : s.pin (some w) with
              | error e => exact .stay _
              | ok r =>
                  obtain ⟨⟨w', g'⟩, s'⟩ := r
                  obtain ⟨rfl, -, -⟩ := Store.pin_eq_ok hp
                  exact .advance hc hvw hp
  | idle | writing v g => exact .stay _

theorem beginWrite_does : Does beginWrite .draft := by
  rintro ⟨s, c⟩
  simp only [beginWrite]
  cases hc : c.state with
  | idle =>
      cases ha : s.acquireWriter c.id s.settings.writeTimeout? with
      | error e => exact .stay _
      | ok s' =>
          obtain ⟨hw, rfl⟩ := Store.acquireWriter_eq_ok ha
          simp only [Store.snapshot]
          cases hg : s.snapshots.get? s.latest with
          | some g => exact .beginWrite hc hw hg
          | none =>
              simp only [Store.releaseWriter_acquired c.id hw]
              exact .stay _
  | reading v g | writing v g => exact .stay _

theorem promote_does : Does promote .draft := by
  rintro ⟨s, c⟩
  simp only [promote]
  cases hc : c.state with
  | reading v g =>
      cases ha : s.acquireWriter c.id s.settings.writeTimeout? with
      | error e => exact .stay _
      | ok s' =>
          obtain ⟨hw, rfl⟩ := Store.acquireWriter_eq_ok ha
          simp only [Store.snapshot]
          cases hch : Store.changesBetween { s with writer? := some c.id } v s.latest with
          | ok changes =>
              cases hg : s.snapshots.get? s.latest with
              | some g' => exact .promote hc hw (Store.changesBetween_le hch) hg
              | none =>
                  simp only [Store.releaseWriter_acquired c.id hw]
                  exact .stay _
          | error e =>
              simp only [Store.releaseWriter_acquired c.id hw]
              exact .stay _
  | idle | writing v g => exact .stay _

theorem finishWrite_cases (operation : String) (keepPinned : Bool) {s : Store} {c : Context}
    {base : Version} {g : Group} (h : c.state = .writing base g) :
    (∃ v s', s.commit c.id base g keepPinned = .ok (v, s') ∧
      finishWrite operation keepPinned ⟨s, c⟩ =
        .ok v ⟨s'.releaseWriter c.id, { c with lastVersion? := some v }⟩) ∨
    ∃ e, finishWrite operation keepPinned ⟨s, c⟩ =
      .error e ⟨s.releaseWriter c.id, c.enterIdle⟩ := by
  simp only [finishWrite, h]
  cases hs : s.commit c.id base g keepPinned with
  | ok r => exact .inl ⟨r.1, r.2, rfl, rfl⟩
  | error e => exact .inr ⟨e, rfl⟩

theorem commit_does : Does commit .publish := by
  rintro ⟨s, c⟩
  simp only [commit]
  cases hc : c.state with
  | idle | reading v g => simpa only [finishWrite, hc, refuse] using Step.stay _
  | writing base g =>
      rcases finishWrite_cases (s := s) "commit" false hc with ⟨v, s', hs, hf⟩ | ⟨e, hf⟩
      · simpa only [hf] using Step.commit hc hs
      · simpa only [hf] using Step.abandon hc

theorem commitAndRead_does : Does commitAndRead .publish := by
  rintro ⟨s, c⟩
  simp only [commitAndRead]
  cases hc : c.state with
  | idle | reading v g => simpa only [finishWrite, hc, refuse] using Step.stay _
  | writing base g =>
      rcases finishWrite_cases (s := s) "commit_and_continue_as_read" true hc with
        ⟨v, s', hs, hf⟩ | ⟨e, hf⟩
      · obtain ⟨-, rfl, rfl, previous, -, rfl⟩ := Store.commit_eq_ok hs
        simp only [hf, Store.snapshot, Store.releaseWriter_snapshots, Store.publish_snapshot]
        exact .commitAndRead hc hs
      · simpa only [hf] using Step.abandon hc

/-- An open write is under the lock and based on the latest version, which is kept. -/
def Publishable (c : Connection) : Prop := ∀ base g, c.context.state = .writing base g →
  c.store.writer? = some c.context.id ∧ base = c.store.latest ∧
    (c.store.snapshots.get? base).isSome

theorem Publishable.commit_ok {c : Connection} (hc : c.Publishable) {base : Version} {g : Group}
    (writing : c.context.state = .writing base g) (keepPinned : Bool) :
    ∃ s, c.store.commit c.context.id base g keepPinned = .ok (base + 1, s) := by
  obtain ⟨hwriter, hlatest, hkept⟩ := hc base g writing
  obtain ⟨previous, hprevious⟩ := Option.isSome_iff_exists.mp hkept
  unfold Store.commit
  rw [if_neg (not_not_intro hwriter), if_neg (not_not_intro hlatest), hprevious]
  exact ⟨_, rfl⟩

theorem commit_ok {s s' : Store} {c : Context} {base v : Version} {g : Group}
    (writing : c.state = .writing base g) (hs : s.commit c.id base g false = .ok (v, s')) :
    ∃ c', commit ⟨s, c⟩ = .ok v c' := by
  simp [commit, finishWrite, writing, hs]

theorem commitAndRead_ok {s s' : Store} {c : Context} {base v : Version} {g : Group}
    (writing : c.state = .writing base g) (hs : s.commit c.id base g true = .ok (v, s')) :
    ∃ c', commitAndRead ⟨s, c⟩ = .ok v c' := by
  obtain ⟨-, rfl, rfl, previous, -, rfl⟩ := Store.commit_eq_ok hs
  simp [commitAndRead, finishWrite, writing, hs, Store.snapshot, Store.releaseWriter_snapshots,
    Store.publish_snapshot]

theorem rollback_does : Does rollback .rest := by
  rintro ⟨s, c⟩
  simp only [rollback]
  cases hc : c.state with
  | writing base g => exact .abandon hc
  | idle | reading v g => exact .stay _

theorem rollbackAndRead_does : Does rollbackAndRead .retreat := by
  rintro ⟨s, c⟩
  simp only [rollbackAndRead]
  cases hc : c.state with
  | writing base g =>
      dsimp only
      cases hp : s.pin (some base) with
      | ok r =>
          obtain ⟨⟨v, g'⟩, s'⟩ := r
          obtain ⟨rfl, -, -⟩ := Store.pin_eq_ok hp
          exact .rollbackAndRead hc hp
      | error e => exact .abandon hc
  | idle | reading v g => exact .stay _

theorem perform_does (t : Transition) : Does t.perform t.deed := by
  cases t with
  | beginRead at? => exact (beginRead_does at?).map _
  | endRead => exact endRead_does.map _
  | advance to? => exact (advance_does to?).map _
  | beginWrite => exact beginWrite_does.map _
  | promote => exact promote_does.map _
  | commit => exact commit_does.map _
  | commitAndRead => exact commitAndRead_does.map _
  | rollback => exact rollback_does.map _
  | rollbackAndRead => exact rollbackAndRead_does.map _

/-! Edits -/

theorem isWriting_iff (c : Context) :
    c.isWriting = true ↔ ∃ base g, c.state = .writing base g := by
  cases hc : c.state <;> simp [Context.isWriting, hc]

/-- An edit in an open write is done as far as it goes, also if it is refused. -/
theorem edit_writing (s : Store) {c : Context} {base : Version} {g : Group} (e : Edit)
    (h : c.state = .writing base g) :
    (∃ x, Connection.edit e ⟨s, c⟩ =
      .ok x ⟨s, { c with state := .writing base (g.edit e).2 }⟩) ∨
    ∃ x, Connection.edit e ⟨s, c⟩ =
      .error x ⟨s, { c with state := .writing base (g.edit e).2 }⟩ := by
  simp only [Connection.edit, h]
  obtain ⟨r, g'⟩ := g.edit e
  cases r with
  | ok made => exact .inl ⟨made, rfl⟩
  | error x => exact .inr ⟨x, rfl⟩

theorem edit_refused (s : Store) {c : Context} (e : Edit) (h : c.isWriting = false) :
    Connection.edit e ⟨s, c⟩ = .error Context.notWriting ⟨s, c⟩ := by
  cases hc : c.state with
  | idle | reading v g => simp only [Connection.edit, hc]
  | writing base g => simp [Context.isWriting, hc] at h

end Connection
end SnapshotStore
