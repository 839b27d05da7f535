import SnapshotStore.Handover.Batch
import SnapshotStore.Proofs.Connection.Step

/-!
Quiet actions: those that may begin, move and end reads and do nothing else. Taking an
envelope over and running what was handed over are quiet.
-/

namespace SnapshotStore
namespace Connection

/-- Steps without a deed, one after the other. -/
inductive Quiet : Connection → Connection → Prop
  | refl (c : Connection) : Quiet c c
  | tail {c c' c'' : Connection} (h : Quiet c c') (hs : Step c' .rest c'') : Quiet c c''

theorem Quiet.trans {c c' c'' : Connection} (h : Quiet c c') (h' : Quiet c' c'') : Quiet c c'' := by
  induction h' with
  | refl => exact h
  | tail _ hs ih => exact ih.tail hs

theorem Step.quiet {c c' : Connection} (h : Step c .rest c') : Quiet c c' := .tail (.refl c) h

/-- Quiet steps and then one with a deed. -/
def Course (c : Connection) (d : Deed) (c' : Connection) : Prop :=
  ∃ c₁, Quiet c c₁ ∧ Step c₁ d c'

theorem Quiet.course {c c' : Connection} (h : Quiet c c') : Course c .rest c' :=
  ⟨c', h, .stay c'⟩

def after {α : Type} (a : Action α) (c : Connection) : Connection :=
  match a c with
  | .ok _ c' | .error _ c' => c'

def IsQuiet {α : Type} (a : Action α) : Prop := ∀ c, Quiet c (after a c)

variable {α β : Type} {a : Action α} {c c' : Connection}

theorem after_ok {x : α} (h : a c = .ok x c') : after a c = c' := by
  simp [after, h]

theorem after_error {e : Error} (h : a c = .error e c') : after a c = c' := by
  simp [after, h]

theorem Does.isQuiet (h : Does a .rest) : IsQuiet a := by
  intro c
  have hc := h c
  unfold after
  cases hx : a c <;> (rw [hx] at hc; exact hc.quiet)

namespace IsQuiet

theorem pure (x : α) : IsQuiet (pure x : Action α) := fun c => .refl c

theorem bind {f : α → Action β} (h : IsQuiet a) (hf : ∀ x, IsQuiet (f x)) :
    IsQuiet (a >>= f) := by
  intro c
  have hc := h c
  unfold after at hc ⊢
  simp only [Bind.bind, EStateM.bind]
  cases hx : a c with
  | ok x c₁ =>
      simp only [hx] at hc
      exact hc.trans (hf x c₁)
  | error e c₁ => simpa only [hx] using hc

theorem ask (f : Connection → Except Error α) : IsQuiet (ask f) := by
  intro c
  unfold after Connection.ask
  cases f c <;> exact .refl c

theorem throw (e : Error) : IsQuiet (throw e : Action α) := fun c => .refl c

theorem mapM {f : α → Action β} (hf : ∀ x, IsQuiet (f x)) (xs : List α) :
    IsQuiet (xs.mapM f) := by
  induction xs with
  | nil =>
      rw [List.mapM_nil]
      exact .pure _
  | cons x xs ih =>
      rw [List.mapM_cons]
      exact (hf x).bind fun _ => ih.bind fun _ => .pure _

end IsQuiet

theorem syncTo_isQuiet (v : Version) : IsQuiet (syncTo v) := by
  intro c
  unfold after syncTo
  cases hc : c.context.state with
  | idle => exact ((beginRead_does (some v)).isQuiet.bind fun _ => .pure ()) c
  | reading current g =>
      by_cases hlt : current < v
      · simp only [hlt, if_true]
        exact ((advance_does (some v)).isQuiet.bind fun _ => .pure ()) c
      · by_cases he : current = v
        · simpa only [hlt, he, if_true, if_false, Nat.lt_irrefl] using Quiet.refl c
        · simpa only [hlt, he, if_false] using Quiet.refl c
  | writing base g => exact .refl c

theorem importAs_isQuiet (kind : PayloadKind) (e : Envelope) : IsQuiet (importAs kind e) :=
  (IsQuiet.ask _).bind fun _ => (syncTo_isQuiet _).bind fun _ => (IsQuiet.ask _).bind fun _ =>
    .pure _

theorem importQuery_isQuiet (e : Envelope) : IsQuiet (importQuery e) :=
  (importAs_isQuiet .query e).bind fun p => by
    cases p with
    | query q => exact .pure q
    | row l | view v => exact .throw _

theorem releaseRead_isQuiet (operation : String) : IsQuiet (releaseRead operation) := by
  intro c
  unfold after releaseRead
  cases hc : c.context.state with
  | idle | writing base g => exact .refl c
  | reading v g => exact endRead_does.isQuiet c

theorem pinExported_isQuiet (target : Version) : IsQuiet (pinExported target) :=
  (beginRead_does none).isQuiet.bind fun fresh => by
    split
    · exact .pure _
    · exact endRead_does.isQuiet.bind fun _ =>
        (beginRead_does (some target)).isQuiet.bind fun _ => .pure _

theorem endReadOnError_isQuiet {body : Action α} (h : IsQuiet body) :
    IsQuiet (endReadOnError body) := by
  intro c
  have hc := h c
  unfold after at hc ⊢
  unfold endReadOnError
  cases hx : body c with
  | ok x c₁ => simpa only [hx] using hc
  | error e c₁ =>
      simp only [hx] at hc
      have he := hc.trans (endRead_does.isQuiet c₁)
      unfold after at he
      cases hy : endRead c₁ <;> simpa only [hy] using he

/-! Working for others -/

/-- Work that a context does for others: once the check passes it gives up its own read. -/
def lend (check : Connection → Except Error β) (operation : String) (work : β → Action α) :
    Action α := do
  let x ← ask check
  releaseRead operation
  work x

theorem lend_isQuiet {check : Connection → Except Error β} {operation : String}
    {work : β → Action α} (h : ∀ x, IsQuiet (work x)) : IsQuiet (lend check operation work) :=
  (IsQuiet.ask _).bind fun x => (releaseRead_isQuiet _).bind fun _ => h x

/-- What a run does once the context is free for it. -/
def queryWork (e : Envelope) (r : Request) : Action (Version × Response) := do
  let historical ← pinExported e.version
  endReadOnError do
    let q ← importQuery e
    if historical then
      let a ← advance none
      ask (·.checkStillValid q a)
    let response ← ask (·.evaluate q r)
    return (← ask (·.currentVersion), response)

theorem runQuery_eq_lend (e : Envelope) (r : Request) :
    runQuery e r = lend (·.checkEnvelope .query e) r.name fun _ => queryWork e r := rfl

/-- What a batch does once the context is free for it. -/
def batchWork (items : List BatchItem) (exportedAt : Version) :
    Action (Version × List Response) := do
  let _ ← beginRead (some exportedAt)
  endReadOnError do
    let queries ← items.mapM fun item => return (← importQuery item.envelope, item.request)
    let a ← advance none
    ask fun c => queries.forM fun (q, _) => c.checkStillValid q a
    let responses ← ask fun c => queries.mapM fun (q, r) => c.evaluate q r
    return (← ask (·.currentVersion), responses)

theorem runBatch_eq_lend (items : List BatchItem) :
    runBatch items = lend (·.checkBatch items) "batch" (batchWork items) := rfl

theorem queryWork_isQuiet (e : Envelope) (r : Request) : IsQuiet (queryWork e r) := by
  refine (pinExported_isQuiet _).bind fun historical => endReadOnError_isQuiet ?_
  refine (importQuery_isQuiet e).bind fun q => ?_
  split
  · exact (advance_does none).isQuiet.bind fun a => (IsQuiet.ask _).bind fun _ =>
      (IsQuiet.ask _).bind fun _ => (IsQuiet.ask _).bind fun _ => .pure _
  · exact (IsQuiet.ask _).bind fun _ => (IsQuiet.ask _).bind fun _ => .pure _

theorem batchWork_isQuiet (items : List BatchItem) (v : Version) :
    IsQuiet (batchWork items v) := by
  refine (beginRead_does _).isQuiet.bind fun _ => endReadOnError_isQuiet ?_
  refine (IsQuiet.mapM (fun item => ?_) items).bind fun queries => ?_
  · exact (importQuery_isQuiet item.envelope).bind fun _ => .pure _
  · exact (advance_does none).isQuiet.bind fun a => (IsQuiet.ask _).bind fun _ =>
      (IsQuiet.ask _).bind fun _ => (IsQuiet.ask _).bind fun _ => .pure _

theorem runQuery_isQuiet (e : Envelope) (r : Request) : IsQuiet (runQuery e r) :=
  runQuery_eq_lend e r ▸ lend_isQuiet fun _ => queryWork_isQuiet e r

theorem runBatch_isQuiet (items : List BatchItem) : IsQuiet (runBatch items) :=
  runBatch_eq_lend items ▸ lend_isQuiet (batchWork_isQuiet items)

end Connection
end SnapshotStore
