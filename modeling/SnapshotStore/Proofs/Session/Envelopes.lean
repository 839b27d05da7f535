import SnapshotStore.Proofs.Taking
import SnapshotStore.Proofs.Session.Calls

/-!
Calls and the registry of envelopes. A call takes the envelopes that it names, all of them or
none, and registers those whose handles it answers. No other call touches the registry.
-/

namespace SnapshotStore

/-! What calls ask of the registry -/

/-- The handles in a reply. -/
def Reply.handles : Reply → List UInt64
  | handle h => [h]
  | result r => r.handle?.toList
  | results _ rs => rs.filterMap HandedResult.handle?
  | _ => []

/-- The handles of the envelopes that a call is to take. -/
def Call.named : Call → List UInt64
  | close .envelope h | importObject _ h | run h _ => [h]
  | runBatch requests => requests.map (·.1)
  | _ => []

/-- Whether the handles that a call answers are of new envelopes. -/
def Call.posts : Call → Bool
  | exportObject .. | run .. | runBatch .. => true
  | _ => false

namespace Operation

def named : Operation → List UInt64
  | release .envelope h | takeOver _ h | run h _ => [h]
  | runBatch requests => requests.map (·.1)
  | _ => []

def posts : Operation → Bool
  | enclose .. | run .. | runBatch .. => true
  | _ => false

/-- The operation has no business with the registry. -/
def Apart (operation : Operation) : Prop := operation.named = [] ∧ operation.posts = false

/-- The operation has the business with the registry that the call has. -/
def Follows (c : Call) (operation : Operation) : Prop :=
  operation.named = c.named ∧ operation.posts = c.posts

theorem apart_of_form {operation : Operation} {form : Form} (h : operation.form = form)
    (hform : match form with
      | .release | .enclose | .takeOver | .run | .runBatch => False
      | _ => True) : operation.Apart := by
  subst h
  cases operation <;> first | exact ⟨rfl, rfl⟩ | exact hform.elim

end Operation

/-- A plan has the business with the registry that its call has. -/
theorem Session.plan_follows {s : Session} (c : Call) :
    Yields (Operation.Follows c) (s.plan c) := by
  cases c with
  | importObject kind h | run h request | runBatch requests => exact .pure ⟨rfl, rfl⟩
  | close kind h => cases kind <;> exact .pure ⟨rfl, rfl⟩
  | exportObject kind h policy => exact .bind fun _ _ => .pure ⟨rfl, rfl⟩
  | _ => exact plan_yields_of_form fun _ ho => Operation.apart_of_form ho trivial

namespace Workspace
variable {α β : Type} {w w' : Workspace} {h raw : UInt64} {e : Error}

/-! What leaves the registry alone -/

def Calm (a : Work α) : Prop :=
  ∀ w : Workspace, (after a w).database.envelopes = w.database.envelopes

namespace Calm
variable {a : Work α}

theorem ok {x : α} (h : Calm a) (hx : a w = .ok x w') :
    w'.database.envelopes = w.database.envelopes := after_ok hx ▸ h w

theorem error (h : Calm a) (he : a w = .error e w') :
    w'.database.envelopes = w.database.envelopes := after_error he ▸ h w

theorem pure (x : α) : Calm (pure x : Work α) := fun _ => rfl

theorem bind {f : α → Work β} (h : Calm a) (hf : ∀ x, Calm (f x)) : Calm (a >>= f) := by
  intro w
  cases hx : a w with
  | ok x w' =>
      rw [after_bind_ok hx]
      exact (hf x w').trans (h.ok hx)
  | error e w' =>
      rw [after_bind_error hx]
      exact h.error hx

theorem pass (r : Except Error α) : Calm (pass r) := by
  intro w
  cases r <;> rfl

theorem forward : Calm forward := fun _ => rfl

theorem act (f : Action α) : Calm (act f) := by
  intro w
  unfold Workspace.act after
  dsimp only
  cases f w.connection <;> rfl

theorem keep (item : Item) : Calm (keep item) := by
  intro w
  cases item <;> rfl

theorem attempt {f : Workspace → Except Error (α × Workspace)}
    (h : ∀ w x w', f w = .ok (x, w') → w'.database.envelopes = w.database.envelopes) :
    Calm (attempt f) := by
  intro w
  unfold Workspace.attempt after
  dsimp only
  cases hf : f w with
  | ok r => exact h w r.1 r.2 hf
  | error e => rfl

theorem release {kind : HandleKind} (hkind : kind ≠ .envelope) (h : UInt64) :
    Calm (release kind h) := by
  refine .attempt fun w x w' hr => ?_
  cases kind with
  | envelope => exact absurd rfl hkind
  | table | row | query | view | linkList =>
      obtain ⟨r, -, he⟩ := map_eq_ok.mp hr
      obtain ⟨-, rfl⟩ := Prod.mk.inj he
      rfl

theorem setQuery (h : UInt64) (q : Query) : Calm (setQuery h q) := by
  refine .attempt fun w x w' hr => ?_
  obtain ⟨r, -, he⟩ := map_eq_ok.mp hr
  obtain ⟨-, rfl⟩ := Prod.mk.inj he
  rfl

theorem setView (h : UInt64) (v : View) : Calm (setView h v) := by
  refine .attempt fun w x w' hr => ?_
  obtain ⟨r, -, he⟩ := map_eq_ok.mp hr
  obtain ⟨-, rfl⟩ := Prod.mk.inj he
  rfl

end Calm

theorem apart_calm {operation : Operation} (ho : operation.Apart) : Calm operation.perform := by
  cases operation with
  | answer reply => exact .pure _
  | release kind h =>
      refine .bind (.release ?_ h) fun _ => .pure _
      rintro rfl
      exact absurd ho.1 (List.cons_ne_nil h [])
  | transact t => exact .bind .forward fun _ => .bind (.act _) fun _ => .pure _
  | read result => exact .bind .forward fun _ => .bind (.pass _) fun _ => .pure _
  | edit e =>
      refine .bind .forward fun _ => .bind (.act _) fun made => ?_
      cases made <;> exact .pure _
  | createTable name =>
      refine .bind .forward fun _ => .bind (.act _) fun made => ?_
      cases made with
      | some key => exact .bind (.keep _) fun _ => .pure _
      | none => exact .pure _
  | keep found =>
      exact .bind .forward fun _ => .bind (.pass _) fun _ => .bind (.keep _) fun _ => .pure _
  | replaceQuery h q => exact .bind .forward fun _ => .bind (.setQuery h q) fun _ => .pure _
  | replaceView h outcome v =>
      exact .bind .forward fun _ => .bind (.setView h v) fun _ => .bind (.pass _) fun _ => .pure _
  | takeOver kind h => exact absurd ho.1 (List.cons_ne_nil h [])
  | enclose kind h p policy | run h request | runBatch requests =>
      exact Bool.noConfusion ho.2

/-! Taking out -/

theorem attempt_run_ok {f : Workspace → Except Error (α × Workspace)} {x : α} :
    attempt f w = .ok x w' ↔ f w = .ok (x, w') := by
  unfold attempt
  cases hf : f w with
  | ok r => simp [Prod.ext_iff]
  | error e => simp

theorem attempt_run_error {f : Workspace → Except Error (α × Workspace)} :
    attempt f w = .error e w' ↔ f w = .error e ∧ w = w' := by
  unfold attempt
  cases hf : f w <;> simp

theorem release_envelope_loses {u : Unit} (hr : release .envelope h w = .ok u w') :
    w.database.envelopes.Loses [h] w'.database.envelopes := by
  obtain ⟨⟨env, a⟩, ha, he⟩ := map_eq_ok.mp (attempt_run_ok.mp hr)
  obtain ⟨-, rfl⟩ := Prod.mk.inj he
  exact .cons ha (.nil a)

theorem takeEnvelope_removes {kind : PayloadKind} {env : Envelope}
    (ht : takeEnvelope kind h w = .ok env w') : ∃ a,
      w.database.envelopes.remove h = .ok (env, a) ∧
      w' = { w with database := { w.database with envelopes := a } } := by
  obtain ⟨⟨env', d⟩, hd, he⟩ := map_eq_ok.mp (attempt_run_ok.mp ht)
  obtain ⟨rfl, rfl⟩ := Prod.mk.inj he
  obtain ⟨a, ha, rfl⟩ := take_eq_ok hd
  exact ⟨a, ha, rfl⟩

theorem takeEnvelopes_removes {raws : List UInt64} {es : List Envelope}
    (ht : takeEnvelopes raws w = .ok es w') :
    ∃ a, w.database.envelopes.Loses raws a ∧
      List.Forall₂ (fun raw e => w.database.envelopes.get raw = .ok e) raws es ∧
      w' = { w with database := { w.database with envelopes := a } } := by
  obtain ⟨⟨es', d⟩, hd, he⟩ := map_eq_ok.mp (attempt_run_ok.mp ht)
  obtain ⟨rfl, rfl⟩ := Prod.mk.inj he
  obtain ⟨-, a, ha, rfl⟩ := Database.takeAll_eq_ok.mp hd
  obtain ⟨hloses, hgets⟩ := Database.removeAll_loses ha
  exact ⟨a, hloses, hgets, rfl⟩

/-! Putting in -/

theorem register_gains {env : Envelope} (hr : register env w = .ok raw w') :
    w.database.envelopes.Gains [raw] w'.database.envelopes := by
  obtain ⟨rfl, rfl⟩ := EStateM.Result.ok.inj hr
  exact .cons env (.nil _)

theorem handOver_gains {r : Response} {x : HandedResult} (hr : handOver r w = .ok x w') :
    w.database.envelopes.Gains x.handle?.toList w'.database.envelopes := by
  cases r with
  | row env? =>
      cases env? with
      | none =>
          obtain ⟨rfl, rfl⟩ := pure_run_ok.mp hr
          exact .nil _
      | some env =>
          simp only [handOver, bind_run_ok, pure_run_ok] at hr
          obtain ⟨raw, _, hr, rfl, rfl⟩ := hr
          exact register_gains hr
  | view env =>
      simp only [handOver, bind_run_ok, pure_run_ok] at hr
      obtain ⟨raw, _, hr, rfl, rfl⟩ := hr
      exact register_gains hr
  | count n | value v =>
      obtain ⟨rfl, rfl⟩ := pure_run_ok.mp hr
      exact .nil _

theorem handOver_all_gains {rs : List Response} {xs : List HandedResult}
    (hr : rs.mapM handOver w = .ok xs w') :
    w.database.envelopes.Gains (xs.filterMap HandedResult.handle?) w'.database.envelopes := by
  induction rs generalizing w xs with
  | nil =>
      rw [List.mapM_nil] at hr
      obtain ⟨rfl, rfl⟩ := pure_run_ok.mp hr
      exact .nil _
  | cons r rs ih =>
      rw [List.mapM_cons] at hr
      simp only [bind_run_ok, pure_run_ok] at hr
      obtain ⟨x, w₁, hx, xs', _, hxs, rfl, rfl⟩ := hr
      have hfirst := handOver_gains hx
      have hboth := hfirst.append (ih hxs)
      cases hhandle : x.handle? with
      | none => simpa [List.filterMap_cons, hhandle] using hboth
      | some raw => simpa [List.filterMap_cons, hhandle] using hboth

/-- The action only registers envelopes, under the handles that it answers, and none if it
fails. -/
structure Posting (a : Work α) (handles : α → List UInt64) : Prop where
  ok : ∀ {w : Workspace} {x : α} {w' : Workspace}, a w = .ok x w' →
    w.database.envelopes.Gains (handles x) w'.database.envelopes
  error : ∀ {w : Workspace} {e : Error} {w' : Workspace}, a w = .error e w' →
    w'.database.envelopes = w.database.envelopes

namespace Posting
variable {a : Work α} {handles : α → List UInt64} {others : β → List UInt64}

theorem calm (h : Calm a) (none : ∀ x, handles x = []) : Posting a handles where
  ok hx := by
    rw [none, h.ok hx]
    exact .nil _
  error he := h.error he

theorem bind {f : α → Work β} (h : Calm a) (hf : ∀ x, Posting (f x) others) :
    Posting (a >>= f) others where
  ok hx := by
    obtain ⟨x, w₁, ha, hx⟩ := bind_run_ok.mp hx
    exact h.ok ha ▸ (hf x).ok hx
  error he := by
    rcases bind_run_error.mp he with ha | ⟨x, w₁, ha, he⟩
    · exact h.error ha
    · exact ((hf x).error he).trans (h.ok ha)

theorem map (h : Posting a handles) {g : α → β} (same : ∀ x, others (g x) = handles x) :
    Posting (a >>= fun x => Pure.pure (g x)) others where
  ok hx := by
    obtain ⟨x, w₁, ha, hx⟩ := bind_run_ok.mp hx
    obtain ⟨rfl, rfl⟩ := pure_run_ok.mp hx
    rw [same]
    exact h.ok ha
  error he := h.error (map_run_error.mp he)

theorem register (env : Envelope) : Posting (register env) fun raw => [raw] :=
  ⟨register_gains, fun he => absurd he register_run_error⟩

theorem handOver (r : Response) : Posting (handOver r) fun x => x.handle?.toList :=
  ⟨handOver_gains, fun he => absurd he handOver_run_error⟩

theorem handOver_all (rs : List Response) :
    Posting (rs.mapM Workspace.handOver) fun xs => xs.filterMap HandedResult.handle? :=
  ⟨handOver_all_gains, fun he => absurd he handOver_all_run_error⟩

end Posting

/-! Operations -/

/-- The handles of the envelopes that an operation or a call registers, by what it answers. -/
def posted (posts : Bool) (out : Outcome) : List UInt64 := if posts then out.reply.handles else []

/-- If the action succeeds, the envelopes that it names are taken and those that it answers for
are registered. If it fails, none are registered, and the others may be taken already or not. -/
structure Trading (w : Workspace) (a : Work Outcome) (named : List UInt64) (posts : Bool) :
    Prop where
  ok : ∀ {out : Outcome} {w' : Workspace}, a w = .ok out w' →
    w.database.envelopes.Trades named (posted posts out) w'.database.envelopes
  error : ∀ {e : Error} {w' : Workspace}, a w = .error e w' →
    w.database.envelopes.Trades named [] w'.database.envelopes ∨
      w'.database.envelopes = w.database.envelopes

namespace Trading
variable {named : List UInt64} {posts : Bool}

theorem of_posting {a : Work Outcome} (h : Posting a (posted posts)) : Trading w a [] posts :=
  ⟨fun hx => ⟨_, .nil _, h.ok hx⟩, fun he => .inr (h.error he)⟩

/-- Envelopes are taken first, all of them or none, and registered afterwards. -/
theorem of_taking {take : Work α} {rest : α → Work Outcome}
    (htake : ∀ {x w₁}, take w = .ok x w₁ →
      w.database.envelopes.Loses named w₁.database.envelopes)
    (hfail : ∀ {e w'}, take w = .error e w' → w = w')
    (hrest : ∀ x, Posting (rest x) (posted posts)) : Trading w (take >>= rest) named posts where
  ok hx := by
    obtain ⟨x, w₁, ht, hx⟩ := bind_run_ok.mp hx
    exact ⟨_, htake ht, (hrest x).ok hx⟩
  error he := by
    rcases bind_run_error.mp he with ht | ⟨x, w₁, ht, he⟩
    · exact .inr (congrArg (·.database.envelopes) (hfail ht).symm)
    · exact .inl ⟨_, htake ht, (hrest x).error he ▸ .nil _⟩

end Trading

theorem handleKind_ne (kind : PayloadKind) : handleKind kind ≠ .envelope := by
  cases kind <;> simp [handleKind]

theorem enclose_posting (kind : PayloadKind) (h : UInt64) (p : Payload)
    (policy : HandoverPolicy) :
    Posting (Operation.enclose kind h p policy).perform (posted true) := by
  have hput : ∀ env, Posting (do return ⟨.handle (← register env), none⟩ : Work Outcome)
      (posted true) := fun env => (Posting.register env).map fun _ => rfl
  refine .bind .forward fun _ => .bind (.act _) fun env => ?_
  dsimp only
  split
  · exact .bind (.release (handleKind_ne kind) h) fun _ => hput env
  · exact hput env

theorem takeEnvelope_loses {kind : PayloadKind} {env : Envelope}
    (ht : takeEnvelope kind h w = .ok env w') :
    w.database.envelopes.Loses [h] w'.database.envelopes := by
  obtain ⟨a, ha, rfl⟩ := takeEnvelope_removes ht
  exact .cons ha (.nil a)

theorem perform_trading (w : Workspace) (operation : Operation) :
    Trading w operation.perform operation.named operation.posts := by
  by_cases hapart : operation.Apart
  · rw [hapart.1, hapart.2]
    exact .of_posting (.calm (apart_calm hapart) fun _ => rfl)
  · cases operation with
    | release kind h =>
        cases kind with
        | envelope =>
            exact .of_taking release_envelope_loses (fun he => (attempt_run_error.mp he).2) fun _ =>
              .calm (.pure _) fun _ => rfl
        | table | row | query | view | linkList => exact absurd ⟨rfl, rfl⟩ hapart
    | enclose kind h p policy => exact .of_posting (enclose_posting kind h p policy)
    | takeOver kind h =>
        refine .of_taking takeEnvelope_loses (fun he => (attempt_run_error.mp he).2) fun env => ?_
        refine .bind .forward fun _ => .bind (.act _) fun p => .bind (.keep _) fun _ => ?_
        exact .calm (.pure _) fun _ => rfl
    | run h request =>
        rw [Operation.perform_run]
        refine .of_taking takeEnvelope_loses (fun he => (attempt_run_error.mp he).2) fun env => ?_
        refine .bind .forward fun _ => .bind (.act _) fun (v, response) => ?_
        exact (Posting.handOver response).map fun _ => rfl
    | runBatch requests =>
        refine .of_taking (fun ht => ?_) (fun he => (attempt_run_error.mp he).2) fun es => ?_
        · obtain ⟨a, ha, -, rfl⟩ := takeEnvelopes_removes ht
          exact ha
        · refine .bind .forward fun _ => .bind (.act _) fun (v, responses) => ?_
          exact (Posting.handOver_all responses).map fun _ => rfl
    | _ => exact absurd ⟨rfl, rfl⟩ hapart

/-! Calls -/

/-- The handles of the envelopes that a call registers. -/
def sent (w : Workspace) (c : Call) : List UInt64 :=
  match call c w with
  | .ok out _ => posted c.posts out
  | .error _ _ => []

/-- The handles of the envelopes that a call takes: those that it names whose envelopes were
there and are gone. -/
def took (w : Workspace) (c : Call) : List UInt64 :=
  c.named.filter fun raw =>
    w.database.envelopes.contains raw && !(after (call c) w).database.envelopes.contains raw

/-- A call takes the envelopes that it names and registers those that it answers handles of. If
it fails, it may have taken none. -/
theorem call_trades (w : Workspace) (c : Call) : ∃ taken,
    w.database.envelopes.Trades taken (w.sent c) (after (call c) w).database.envelopes ∧
      (taken = c.named ∨ taken = [] ∧ ∃ e w', call c w = .error e w') := by
  cases hplan : w.session.plan c with
  | error e =>
      have hcall : call c w = .error e w := by simp only [call, hplan]
      have hsent : w.sent c = [] := by simp only [sent, hcall]
      rw [after_error hcall, hsent]
      exact ⟨[], .refl _, .inr ⟨rfl, e, w, hcall⟩⟩
  | ok operation =>
      obtain ⟨hnamed, hposts⟩ := Session.plan_follows c operation hplan
      have htrading := perform_trading w operation
      rw [hnamed, hposts] at htrading
      have hcall : call c w = operation.perform w := by simp only [call, hplan]
      cases hp : operation.perform w with
      | ok out w' =>
          have hsent : w.sent c = posted c.posts out := by simp only [sent, hcall, hp]
          rw [after_ok (hcall.trans hp), hsent]
          exact ⟨c.named, htrading.ok hp, .inl rfl⟩
      | error e w' =>
          have hsent : w.sent c = [] := by simp only [sent, hcall, hp]
          rw [after_error (hcall.trans hp), hsent]
          rcases htrading.error hp with htrades | hsame
          · exact ⟨c.named, htrades, .inl rfl⟩
          · exact ⟨[], hsame ▸ .refl _, .inr ⟨rfl, e, w', hcall.trans hp⟩⟩

/-- What a call takes is all that it names, or nothing if it fails. -/
theorem took_trades (hw : w.database.envelopes.Stocks .envelope)
    (generations : ∀ slot, w.database.envelopes.generation slot ≤
      (after (call c) w).database.envelopes.generation slot)
    (room : (after (call c) w).database.envelopes.slots.length ≤ 0x100000000) :
    w.database.envelopes.Trades (w.took c) (w.sent c) (after (call c) w).database.envelopes ∧
      (w.took c = c.named ∨ w.took c = [] ∧ ∃ e w', call c w = .error e w') := by
  obtain ⟨taken, htrades, hcase⟩ := call_trades w c
  suffices h : w.took c = taken by
    rw [h]
    exact ⟨htrades, hcase⟩
  rcases hcase with rfl | ⟨rfl, -⟩
  · obtain ⟨-, htakes⟩ := htrades.takes hw generations
    refine List.filter_eq_self.mpr fun raw hraw => ?_
    obtain ⟨hthere, hpast⟩ := htakes raw hraw
    have hgone : (after (call c) w).database.envelopes.contains raw = false :=
      Bool.eq_false_iff.mpr fun h => by
        obtain ⟨x, hx⟩ := Arena.contains_iff.mp h
        exact hpast.get_ne hx
    simp [Arena.contains_iff.mpr hthere, hgone]
  · refine List.filter_eq_nil_iff.mpr fun raw hraw => ?_
    simp only [Bool.and_eq_true, Bool.not_eq_true', not_and, Bool.not_eq_false]
    intro hthere
    obtain ⟨x, hx⟩ := Arena.contains_iff.mp hthere
    exact Arena.contains_iff.mpr ⟨x, htrades.keeps room hw List.not_mem_nil hx⟩

end Workspace
end SnapshotStore
