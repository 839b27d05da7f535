import SnapshotStore.Proofs.Connection.Advance
import SnapshotStore.Proofs.Connection.Quiet
import SnapshotStore.Proofs.Connection.Run
import SnapshotStore.Proofs.Resources

/-!
How contexts that work for others come out of it. Whatever goes wrong once the own read of the
context is given up, the read that was begun for the work is ended again; if all goes well, the
context goes on with it. What others have is not touched on the way.
-/

namespace SnapshotStore

/-- Whether a read transaction is open. -/
def Context.isReading (c : Context) : Bool :=
  match c.state with
  | .reading _ _ => true
  | _ => false

theorem Context.isReading_iff {c : Context} : c.isReading ↔ ∃ v g, c.state = .reading v g := by
  cases hc : c.state <;> simp [isReading, hc]

theorem Context.isReading_of_reading {c : Context} {v : Version} {g : Group}
    (h : c.state = .reading v g) : c.isReading := isReading_iff.mpr ⟨v, g, h⟩

namespace Connection
variable {α β : Type} {a : Action α} {c c' : Connection} {e : Error}

/-! Quiet runs and what others have -/

/-- Every version that the context reads is pinned. -/
def Backed (c : Connection) : Prop := ∀ v, c.context.reads v → 0 < c.store.pinCount v

/-- The pins differ by those of the author. -/
structure Frames (c c' : Connection) : Prop where
  pins : ∀ v, c'.store.pinCount v + (c.context.reads v).toNat =
    c.store.pinCount v + (c'.context.reads v).toNat
  backed : c'.Backed

theorem Step.frames {d : Deed} (h : Step c d c') (hc : c.Backed) : Frames c c' where
  pins := h.pinCount hc
  backed v hv := by
    have hpins := h.pinCount hc v
    have hpinned := reads_le_pinCount hc v
    rw [hv, Bool.toNat_true] at hpins
    omega

theorem Frames.trans {c'' : Connection} (h : Frames c c') (h' : Frames c' c'') :
    Frames c c'' where
  pins v := by
    have hpins := h.pins v
    have hpins' := h'.pins v
    omega
  backed := h'.backed

theorem Quiet.frames (h : Quiet c c') (hc : c.Backed) : Frames c c' := by
  induction h with
  | refl => exact ⟨fun _ => rfl, hc⟩
  | tail _ hs ih => exact ih.trans (hs.frames ih.backed)

theorem Course.frames {d : Deed} (h : Course c d c') (hc : c.Backed) : Frames c c' := by
  obtain ⟨c₁, hq, hs⟩ := h
  exact (hq.frames hc).trans (hs.frames (hq.frames hc).backed)

theorem Step.unlocked (h : Step c .rest c') (hc : c.context.isWriting = false) :
    c'.store.writer? = c.store.writer? ∧ c'.context.isWriting = false := by
  cases h with
  | stay | count => exact ⟨rfl, hc⟩
  | beginRead idle pin =>
      obtain ⟨-, -, rfl⟩ := Store.pin_eq_ok pin
      exact ⟨rfl, rfl⟩
  | endRead reading => exact ⟨Store.unpin_writer? _ _, rfl⟩
  | advance reading later pin =>
      obtain ⟨-, -, rfl⟩ := Store.pin_eq_ok pin
      exact ⟨Store.unpin_writer? _ _, rfl⟩
  | abandon writing => simp [Context.isWriting, writing] at hc

/-- A context that does not write leaves the lock alone for as long as it runs quietly. -/
theorem Quiet.unlocked (h : Quiet c c') (hc : c.context.isWriting = false) :
    c'.store.writer? = c.store.writer? ∧ c'.context.isWriting = false := by
  induction h with
  | refl => exact ⟨rfl, hc⟩
  | tail _ hs ih =>
      obtain ⟨hwriter, hwriting⟩ := ih
      obtain ⟨hwriter', hwriting'⟩ := hs.unlocked hwriting
      exact ⟨hwriter'.trans hwriter, hwriting'⟩

/-! Reads that stay open -/

/-- The action neither begins nor ends a read, whether it succeeds or fails. -/
def KeepsReading (a : Action α) : Prop :=
  ∀ c, c.context.isReading → (after a c).context.isReading

namespace KeepsReading

theorem pure (x : α) : KeepsReading (pure x : Action α) := fun _ hc => hc

theorem ask (f : Connection → Except Error α) : KeepsReading (ask f) := by
  intro c hc
  unfold after Connection.ask
  cases f c <;> exact hc

theorem throw (e : Error) : KeepsReading (throw e : Action α) := fun _ hc => hc

theorem bind {f : α → Action β} (h : KeepsReading a) (hf : ∀ x, KeepsReading (f x)) :
    KeepsReading (a >>= f) := by
  intro c hc
  have ha := h c hc
  unfold after at ha ⊢
  simp only [Bind.bind, EStateM.bind]
  cases hx : a c with
  | ok x c₁ =>
      simp only [hx] at ha
      exact hf x c₁ ha
  | error e c₁ => simpa only [hx] using ha

theorem mapM {f : α → Action β} (hf : ∀ x, KeepsReading (f x)) (xs : List α) :
    KeepsReading (xs.mapM f) := by
  induction xs with
  | nil =>
      rw [List.mapM_nil]
      exact .pure _
  | cons x xs ih =>
      rw [List.mapM_cons]
      exact (hf x).bind fun _ => ih.bind fun _ => .pure _

end KeepsReading

theorem advance_keepsReading (to? : Option Version) : KeepsReading (advance to?) := by
  intro c hc
  cases hx : advance to? c with
  | ok a c' =>
      obtain ⟨g, g', -, hstate⟩ := advance_run_ok hx
      exact after_ok hx ▸ Context.isReading_of_reading hstate
  | error e c' =>
      obtain rfl := advance_error hx
      exact (after_error hx).symm ▸ hc

theorem syncTo_keepsReading (v : Version) : KeepsReading (syncTo v) := by
  intro c hc
  obtain ⟨current, g, hstate⟩ := Context.isReading_iff.mp hc
  unfold after syncTo
  rw [hstate]
  by_cases hlt : current < v
  · simp only [hlt, if_true]
    exact ((advance_keepsReading (some v)).bind fun _ => .pure ()) c hc
  · by_cases he : current = v
    · simpa only [hlt, he, if_true, if_false, Nat.lt_irrefl] using hc
    · simpa only [hlt, he, if_false] using hc

theorem importQuery_keepsReading (e : Envelope) : KeepsReading (importQuery e) := by
  have himport : KeepsReading (importAs .query e) :=
    (KeepsReading.ask _).bind fun _ => (syncTo_keepsReading _).bind fun _ =>
      (KeepsReading.ask _).bind fun _ => .pure _
  refine himport.bind fun p => ?_
  cases p with
  | query q => exact .pure q
  | row l | view v => exact .throw _

/-! Reads that are begun and ended again -/

/-- From a context as it is asked for, the action ends in a read if it succeeds, and with no
transaction open if it fails. -/
def ReadsOrRests (start : Context → Prop) (a : Action α) : Prop :=
  ∀ c, start c.context → match a c with
    | .ok _ c' => c'.context.isReading
    | .error _ c' => c'.context.state = .idle

namespace ReadsOrRests
variable {start : Context → Prop}

theorem ok {x : α} (h : ReadsOrRests start a) (hc : start c.context) (hx : a c = .ok x c') :
    c'.context.isReading := by
  have ha := h c hc
  rwa [hx] at ha

theorem error (h : ReadsOrRests start a) (hc : start c.context) (hx : a c = .error e c') :
    c'.context.state = .idle := by
  have ha := h c hc
  rwa [hx] at ha

theorem pure (x : α) : ReadsOrRests (·.isReading) (pure x : Action α) := fun _ hc => hc

theorem bind {f : α → Action β} (h : ReadsOrRests start a)
    (hf : ∀ x, ReadsOrRests (·.isReading) (f x)) : ReadsOrRests start (a >>= f) := by
  intro c hc
  simp only [Bind.bind, EStateM.bind]
  cases hx : a c with
  | ok x c₁ => exact hf x c₁ (h.ok hc hx)
  | error e c₁ => exact h.error hc hx

end ReadsOrRests

theorem beginRead_readsOrRests (at? : Option Version) :
    ReadsOrRests (·.state = .idle) (beginRead at?) := by
  intro c hc
  cases hx : beginRead at? c with
  | error e c' => exact beginRead_error hx ▸ hc
  | ok v c' =>
      unfold beginRead at hx
      rw [hc] at hx
      dsimp only at hx
      split at hx
      · obtain ⟨-, rfl⟩ := EStateM.Result.ok.inj hx
        rfl
      · simp at hx

/-- A read of the latest version that does not do is ended before the other one is begun. -/
theorem pinExported_readsOrRests (target : Version) :
    ReadsOrRests (·.state = .idle) (pinExported target) := by
  refine (beginRead_readsOrRests none).bind fun fresh => ?_
  split
  · exact .pure _
  · intro c hc
    obtain ⟨v, g, hstate⟩ := Context.isReading_iff.mp hc
    rw [bind_of_ok (endRead_of_reading hstate)]
    exact ((beginRead_readsOrRests (some target)).bind fun _ => .pure _) _ rfl

theorem endReadOnError_readsOrRests {body : Action α} (h : KeepsReading body) :
    ReadsOrRests (·.isReading) (endReadOnError body) := by
  intro c hc
  have hbody := h c hc
  unfold endReadOnError
  cases hx : body c with
  | ok x c₁ => exact after_ok hx ▸ hbody
  | error e c₁ =>
      rw [after_error hx] at hbody
      obtain ⟨v, g, hstate⟩ := Context.isReading_iff.mp hbody
      simp only [endRead_of_reading hstate]
      rfl

/-! Working for others -/

section Lend
variable {check : Connection → Except Error β} (operation : String) {work : β → Action α} {x : β}

theorem lend_of_refused (work : β → Action α) (h : check c = .error e) :
    lend check operation work c = .error e c := by
  rw [lend, bind_of_error (ask_of_error h)]

theorem lend_of_writing (work : β → Action α) (h : check c = .ok x)
    (hw : c.context.isWriting = true) :
    ∃ e, lend check operation work c = .error e c := by
  obtain ⟨base, g, hstate⟩ := (isWriting_iff _).mp hw
  obtain ⟨e, hrelease⟩ : ∃ e, releaseRead operation c = .error e c := by
    simp [releaseRead, hstate]
  exact ⟨e, by rw [lend, bind_of_ok (ask_of_ok h), bind_of_error hrelease]⟩

theorem lend_of_check (h : check c = .ok x) (hw : c.context.isWriting = false)
    (hwork : ReadsOrRests (·.state = .idle) (work x)) :
    match lend check operation work c with
    | .ok _ c' => c'.context.isReading
    | .error _ c' => c'.context.state = .idle := by
  obtain ⟨d, hrelease, hidle⟩ := releaseRead_of_not_writing operation hw
  rw [lend, bind_of_ok (ask_of_ok h), bind_of_ok hrelease]
  exact hwork _ hidle

end Lend

theorem queryWork_readsOrRests (e : Envelope) (r : Request) :
    ReadsOrRests (·.state = .idle) (queryWork e r) := by
  refine (pinExported_readsOrRests _).bind fun historical => endReadOnError_readsOrRests ?_
  refine (importQuery_keepsReading e).bind fun q => ?_
  split
  · exact (advance_keepsReading none).bind fun a => (KeepsReading.ask _).bind fun _ =>
      (KeepsReading.ask _).bind fun _ => (KeepsReading.ask _).bind fun _ => .pure _
  · exact (KeepsReading.ask _).bind fun _ => (KeepsReading.ask _).bind fun _ => .pure _

theorem batchWork_readsOrRests (items : List BatchItem) (v : Version) :
    ReadsOrRests (·.state = .idle) (batchWork items v) := by
  refine (beginRead_readsOrRests _).bind fun _ => endReadOnError_readsOrRests ?_
  refine (KeepsReading.mapM (fun item => ?_) items).bind fun queries => ?_
  · exact (importQuery_keepsReading item.envelope).bind fun _ => .pure _
  · exact (advance_keepsReading none).bind fun a => (KeepsReading.ask _).bind fun _ =>
      (KeepsReading.ask _).bind fun _ => (KeepsReading.ask _).bind fun _ => .pure _

/-! The version that is told -/

/-- The version that is answered is the one that the context is left at. -/
def TellsVersion (a : Action (Version × α)) : Prop :=
  ∀ c v x c', a c = .ok (v, x) c' → c'.currentVersion = .ok v

namespace TellsVersion

theorem current (x : α) :
    TellsVersion (do return (← ask (·.currentVersion), x) : Action (Version × α)) := by
  intro c v y c' h
  simp only [bind_run_ok, ask_run_ok, pure_run_ok] at h
  obtain ⟨v', _, ⟨hv, rfl⟩, he, rfl⟩ := h
  obtain ⟨rfl, -⟩ := Prod.mk.inj he
  exact hv

theorem bind (a : Action α) {f : α → Action (Version × β)} (hf : ∀ x, TellsVersion (f x)) :
    TellsVersion (a >>= f) := by
  intro c v x c' h
  obtain ⟨y, c₁, -, h⟩ := bind_run_ok.mp h
  exact hf y c₁ v x c' h

theorem endReadOnError {body : Action (Version × α)} (h : TellsVersion body) :
    TellsVersion (endReadOnError body) :=
  fun c v x c' hx => h c v x c' (endReadOnError_run_ok hx)

end TellsVersion

theorem lend_tellsVersion {γ : Type} {check : Connection → Except Error γ} {operation : String}
    {work : γ → Action (Version × α)} (h : ∀ x, TellsVersion (work x)) :
    TellsVersion (lend check operation work) :=
  .bind _ fun x => .bind _ fun _ => h x

theorem queryWork_tellsVersion (e : Envelope) (r : Request) : TellsVersion (queryWork e r) := by
  refine .bind _ fun historical => .endReadOnError (.bind _ fun q => ?_)
  split
  · exact .bind _ fun a => .bind _ fun _ => .bind _ fun _ => .current _
  · exact .bind _ fun _ => .current _

theorem batchWork_tellsVersion (items : List BatchItem) (v : Version) :
    TellsVersion (batchWork items v) :=
  .bind _ fun _ => .endReadOnError (.bind _ fun _ => .bind _ fun _ => .bind _ fun _ =>
    .bind _ fun _ => .current _)

theorem reading_of_currentVersion {v : Version} (h : c.currentVersion = .ok v)
    (hc : c.context.isReading) : ∃ g, c.context.state = .reading v g := by
  obtain ⟨w, g, hstate⟩ := Context.isReading_iff.mp hc
  obtain rfl := Except.ok.inj ((currentVersion_eq hstate).symm.trans h)
  exact ⟨g, hstate⟩

end Connection
end SnapshotStore
