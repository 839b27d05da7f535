import SnapshotStore.Proofs.Session.Envelopes

/-!
What a call files in its session. At most one object is put in, and its handle is answered;
whatever else the session holds afterwards it held before, bound to the same epoch.
-/

namespace SnapshotStore

/-- The one handle that a reply consists of. -/
def Reply.handle? : Reply → Option UInt64
  | handle h => some h
  | _ => none

namespace Arena
variable {α : Type} [Tracked α] {a : Arena α} {kind : HandleKind} {slot : Nat} {o : Held}

/-- What is held after an insertion was held before or is under the handle of the insertion. -/
theorem Stocks.insert_held (h : a.Stocks kind) (x : α)
    (ho : (a.insert x).2.shelf.held slot = some o) :
    a.shelf.held slot = some o ∨
      (Handle.ofParts kind slot o.generation).encode = (a.insert x).1 := by
  simp only [shelf, insert_live? h.tidy] at ho
  split at ho
  next hslot =>
    subst hslot
    obtain rfl := Option.some.inj ho
    exact .inr (by rw [insert_handle, h.kind])
  next => exact .inl ho

/-- What is held after a change was held before, with the bound that it has. -/
theorem modify_held {a' : Arena α} {raw : UInt64} {f : α → α} (hm : a.modify raw f = .ok a')
    (hf : ∀ x, Tracked.bound (f x) = Tracked.bound x) (ho : a'.shelf.held slot = some o) :
    ∃ p, a.shelf.held slot = some p ∧ p.generation = o.generation ∧ p.bound = o.bound := by
  obtain ⟨k, x, hk, hlive, -⟩ := modify_spec hm
  simp only [shelf, hlive] at ho
  split at ho
  next hslot =>
    subst hslot
    obtain rfl := Option.some.inj ho
    exact ⟨_, congrArg (Option.map _) hk.live, rfl, (hf x).symm⟩
  next => exact ⟨o, ho, rfl, rfl⟩

end Arena
namespace Workspace

/-- What the session holds afterwards it held before, or it is under one of the handles. -/
def Files (w w' : Workspace) (raws : List UInt64) : Prop :=
  ∀ kind, kind ≠ .envelope → ∀ slot o, (w'.shelf kind).held slot = some o →
    (∃ p, (w.shelf kind).held slot = some p ∧ p.generation = o.generation ∧ p.bound = o.bound) ∨
      (Handle.ofParts kind slot o.generation).encode ∈ raws

variable {α β : Type} {w w₁ w' : Workspace} {raws : List UInt64} {c : Call} {out : Outcome}
  {e : Error}

namespace Files

theorem of_held (h : ∀ kind, kind ≠ .envelope → ∀ slot o, (w'.shelf kind).held slot = some o →
    (w.shelf kind).held slot = some o) : w.Files w' raws :=
  fun kind hkind slot o ho => .inl ⟨o, h kind hkind slot o ho, rfl, rfl⟩

theorem of_shelves (h : ∀ kind, kind ≠ .envelope → w'.shelf kind = w.shelf kind) :
    w.Files w' raws :=
  .of_held fun kind hkind _ _ ho => h kind hkind ▸ ho

theorem refl (w : Workspace) : w.Files w raws := .of_shelves fun _ _ => rfl

theorem trans (h : w.Files w₁ []) (h' : w₁.Files w' raws) : w.Files w' raws := by
  intro kind hkind slot o ho
  rcases h' kind hkind slot o ho with ⟨p, hp, hgen, hbound⟩ | hraw
  · rcases h kind hkind slot p hp with ⟨q, hq, hgen', hbound'⟩ | hnone
    · exact .inl ⟨q, hq, hgen'.trans hgen, hbound'.trans hbound⟩
    · exact absurd hnone List.not_mem_nil
  · exact .inr hraw

/-- One object was put into an arena of the session. -/
theorem on {α : Type} [Tracked α] {kind : HandleKind} {a : Arena α} (x : α)
    (stocks : a.Stocks kind) (before : w.shelf kind = a.shelf)
    (after : w'.shelf kind = (a.insert x).2.shelf)
    (others : ∀ k, k ≠ kind → w'.shelf k = w.shelf k := by
      intro k hk
      cases k <;> first | rfl | exact absurd rfl hk) :
    w.Files w' [(a.insert x).1] := by
  intro k hk slot o ho
  by_cases hsame : k = kind
  · subst hsame
    rw [after] at ho
    rcases stocks.insert_held x ho with hheld | hraw
    · exact .inl ⟨o, before ▸ hheld, rfl, rfl⟩
    · exact .inr (hraw ▸ List.mem_singleton_self _)
  · exact .inl ⟨o, others k hsame ▸ ho, rfl, rfl⟩

end Files

theorem Settles.files (h : w.Settles w') : w.Files w' raws := by
  refine .of_held fun kind _ slot o ho => ?_
  rcases h.shrinks kind slot with ⟨hsame, -⟩ | ⟨-, hnone, -⟩
  · exact hsame ▸ ho
  · simp [hnone] at ho

/-- The action files objects only under the handles that it answers, and none if it fails. -/
structure Filing (a : Work α) (handles : α → List UInt64) : Prop where
  stocked : ∀ {w : Workspace} {x : α} {w' : Workspace}, w.Stocked → a w = .ok x w' → w'.Stocked
  ok : ∀ {w : Workspace} {x : α} {w' : Workspace}, w.Stocked → a w = .ok x w' →
    w.Files w' (handles x)
  error : ∀ {w : Workspace} {e : Error} {w' : Workspace}, w.Stocked → a w = .error e w' →
    w.Files w' []

namespace Filing
variable {a : Work α} {handles : α → List UInt64} {others : β → List UInt64}

theorem settling (h : Settling a) : Filing a handles where
  stocked hw hx := (h.ok hx).stocked hw
  ok _ hx := (h.ok hx).files
  error _ he := (h.error he).files

theorem bind {f : α → Work β} (h : Filing a fun _ => []) (hf : ∀ x, Filing (f x) others) :
    Filing (a >>= f) others where
  stocked hw hx := by
    obtain ⟨x, w₁, ha, hx⟩ := bind_run_ok.mp hx
    exact (hf x).stocked (h.stocked hw ha) hx
  ok hw hx := by
    obtain ⟨x, w₁, ha, hx⟩ := bind_run_ok.mp hx
    exact (h.ok hw ha).trans ((hf x).ok (h.stocked hw ha) hx)
  error hw he := by
    rcases bind_run_error.mp he with ha | ⟨x, w₁, ha, he⟩
    · exact h.error hw ha
    · exact (h.ok hw ha).trans ((hf x).error (h.stocked hw ha) he)

theorem map (h : Filing a handles) {g : α → β} (same : ∀ x, others (g x) = handles x) :
    Filing (a >>= fun x => Pure.pure (g x)) others where
  stocked hw hx := by
    obtain ⟨x, w₁, ha, hx⟩ := bind_run_ok.mp hx
    obtain ⟨-, rfl⟩ := pure_run_ok.mp hx
    exact h.stocked hw ha
  ok hw hx := by
    obtain ⟨x, w₁, ha, hx⟩ := bind_run_ok.mp hx
    obtain ⟨rfl, rfl⟩ := pure_run_ok.mp hx
    rw [same]
    exact h.ok hw ha
  error hw he := h.error hw (map_run_error.mp he)

theorem pure (x : α) : Filing (pure x : Work α) handles := .settling (.pure x)

theorem pass (r : Except Error α) : Filing (pass r) handles := .settling (.pass r)

theorem forward : Filing forward fun _ => [] := .settling .forward

theorem act (f : Action α) : Filing (act f) handles where
  stocked hw hx := by
    obtain ⟨c, -, rfl⟩ := act_run_ok.mp hx
    exact hw.withConnection c
  ok _ hx := by
    obtain ⟨c, -, rfl⟩ := act_run_ok.mp hx
    exact .of_shelves fun kind _ => withConnection_shelf _ c kind
  error _ he := by
    obtain ⟨c, -, rfl⟩ := act_run_error.mp he
    exact .of_shelves fun kind _ => withConnection_shelf _ c kind

theorem attempt {f : Workspace → Except Error (α × Workspace)}
    (h : ∀ w x w', w.Stocked → f w = .ok (x, w') → w'.Stocked ∧ w.Files w' (handles x)) :
    Filing (attempt f) handles where
  stocked hw hx := (h _ _ _ hw (attempt_run_ok.mp hx)).1
  ok hw hx := (h _ _ _ hw (attempt_run_ok.mp hx)).2
  error _ he := (attempt_run_error.mp he).2 ▸ .refl _

theorem setQuery (h : UInt64) (q : Query) : Filing (setQuery h q) fun _ => [] := by
  refine .attempt fun w x w' hw hx => ?_
  obtain ⟨a, ha, he⟩ := map_eq_ok.mp hx
  obtain ⟨-, rfl⟩ := Prod.mk.inj he
  refine ⟨{ hw with queries := hw.queries.modify ha }, fun kind _ slot o ho => .inl ?_⟩
  cases kind with
  | query => exact Arena.modify_held ha (fun _ => rfl) ho
  | table | row | view | linkList | envelope => exact ⟨o, ho, rfl, rfl⟩

theorem setView (h : UInt64) (v : View) : Filing (setView h v) fun _ => [] := by
  refine .attempt fun w x w' hw hx => ?_
  obtain ⟨a, ha, he⟩ := map_eq_ok.mp hx
  obtain ⟨-, rfl⟩ := Prod.mk.inj he
  refine ⟨{ hw with views := hw.views.modify ha }, fun kind _ slot o ho => .inl ?_⟩
  cases kind with
  | view => exact Arena.modify_held ha (fun _ => rfl) ho
  | table | row | query | linkList | envelope => exact ⟨o, ho, rfl, rfl⟩

theorem keep (item : Item) : Filing (keep item) fun raw => [raw] where
  stocked hw hx := by
    obtain ⟨raw, w', hk, hp⟩ := keep_puts hw item
    obtain ⟨-, rfl⟩ := EStateM.Result.ok.inj (hk.symm.trans hx)
    exact hp.stocked
  ok {w raw w'} hw hx := by
    obtain ⟨rfl, rfl⟩ := EStateM.Result.ok.inj hx
    cases item with
    | table t => exact .on (Bound.mk t w.session.context.epoch) hw.tables rfl rfl
    | row l => exact .on (Bound.mk l w.session.context.epoch) hw.rows rfl rfl
    | query q => exact .on (Bound.mk q w.session.context.epoch) hw.queries rfl rfl
    | view v => exact .on (Bound.mk v w.session.context.epoch) hw.views rfl rfl
    | list l => exact .on (Bound.mk l w.session.context.epoch) hw.lists rfl rfl
  error _ he := absurd he keep_run_error

theorem register (e : Envelope) : Filing (register e) fun _ => [] where
  stocked hw hx := by
    obtain ⟨raw, w', hr, hp⟩ := register_puts hw e
    obtain ⟨-, rfl⟩ := EStateM.Result.ok.inj (hr.symm.trans hx)
    exact hp.stocked
  ok _ hx := by
    obtain ⟨-, rfl⟩ := EStateM.Result.ok.inj hx
    refine .of_shelves fun kind hkind => ?_
    cases kind <;> first | rfl | exact absurd rfl hkind
  error _ he := absurd he register_run_error

theorem handOver (r : Response) : Filing (handOver r) fun _ => [] := by
  cases r with
  | row env? =>
      cases env? with
      | none => exact .pure _
      | some env => exact .bind (.register env) fun _ => .pure _
  | view env => exact .bind (.register env) fun _ => .pure _
  | count n | value v => exact .pure _

theorem handOver_all (rs : List Response) :
    Filing (rs.mapM Workspace.handOver) fun _ => [] := by
  induction rs with
  | nil =>
      rw [List.mapM_nil]
      exact .pure _
  | cons r rs ih =>
      rw [List.mapM_cons]
      exact (handOver r).bind fun _ => ih.bind fun _ => .pure _

end Filing

/-! Operations and calls -/

/-- The handle that an outcome answers, if that is all it answers. -/
def answered (out : Outcome) : List UInt64 := out.reply.handle?.toList

theorem perform_filing (operation : Operation) : Filing operation.perform answered := by
  have hkeep : ∀ item, Filing (do return ⟨.handle (← keep item), none⟩ : Work Outcome) answered :=
    fun item => (Filing.keep item).map fun _ => rfl
  cases operation with
  | answer reply => exact .pure _
  | release kind h => exact .bind (.settling (release_settling kind h)) fun _ => .pure _
  | transact t => exact .bind .forward fun _ => .bind (.act _) fun _ => .pure _
  | read result => exact .bind .forward fun _ => .bind (.pass _) fun _ => .pure _
  | edit e =>
      refine .bind .forward fun _ => .bind (.act _) fun made => ?_
      cases made <;> exact .pure _
  | createTable name =>
      refine .bind .forward fun _ => .bind (.act _) fun made => ?_
      cases made with
      | some key => exact hkeep _
      | none => exact .pure _
  | keep found => exact .bind .forward fun _ => .bind (.pass _) fun _ => hkeep _
  | replaceQuery h q => exact .bind .forward fun _ => .bind (.setQuery h q) fun _ => .pure _
  | replaceView h outcome v =>
      exact .bind .forward fun _ => .bind (.setView h v) fun _ => .bind (.pass _) fun _ => .pure _
  | enclose kind h p policy =>
      have hput : ∀ env, Filing (do return ⟨.handle (← register env), none⟩ : Work Outcome)
          answered := fun env => .bind (.register env) fun _ => .pure _
      refine .bind .forward fun _ => .bind (.act _) fun env => ?_
      dsimp only
      split
      · exact .bind (.settling (release_settling _ h)) fun _ => hput env
      · exact hput env
  | takeOver kind h =>
      refine .bind (.settling (takeEnvelope_settling kind h)) fun env => ?_
      exact .bind .forward fun _ => .bind (.act _) fun p => hkeep _
  | run h request =>
      rw [Operation.perform_run]
      refine .bind (.settling (takeEnvelope_settling .query h)) fun env => ?_
      refine .bind .forward fun _ => .bind (.act _) fun (v, response) => ?_
      exact (Filing.handOver response).bind fun _ => .pure _
  | runBatch requests =>
      refine .bind (.settling (takeEnvelopes_settling _)) fun es => ?_
      refine .bind .forward fun _ => .bind (.act _) fun (v, responses) => ?_
      exact (Filing.handOver_all responses).bind fun _ => .pure _

/-- The handle that a call answers, if it succeeds and answers just that. -/
def issued (w : Workspace) (c : Call) : List UInt64 :=
  match call c w with
  | .ok out _ => answered out
  | .error _ _ => []

theorem mem_issued {raw : UInt64} :
    raw ∈ w.issued c ↔ ∃ out w', call c w = .ok out w' ∧ out.reply = .handle raw := by
  unfold issued
  cases call c w with
  | ok out w' => cases hr : out.reply <;> simp [answered, Reply.handle?, hr, eq_comm]
  | error e w' => simp

theorem call_files (hw : w.Stocked) (c : Call) :
    w.Files (after (call c) w) (w.issued c) := by
  unfold issued after call
  cases hplan : w.session.plan c with
  | error e => exact .refl _
  | ok operation =>
      dsimp only
      cases hp : operation.perform w with
      | ok out w' => exact (perform_filing operation).ok hw hp
      | error e w' => exact (perform_filing operation).error hw hp

end Workspace
end SnapshotStore
