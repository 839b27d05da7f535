import SnapshotStore.Proofs.Arena.Turnover
import SnapshotStore.Proofs.Session.Lending
import SnapshotStore.Proofs.Session.Refusal
import SnapshotStore.Proofs.View.Rows

/-!
What operations put in that lists rows: views under handles and views in envelopes. An operation
that succeeds takes some out and puts in others, each a copy of what was there before or found in
the group that the session sees then. One that fails puts nothing in.
-/

namespace SnapshotStore

namespace Workspace
variable {α β : Type} {w w₁ w' : Workspace} {P : View → Prop} {out : Outcome} {e : Error}
  {h : UInt64}

/-! What puts in no views -/

/-- Views and envelopes may have been taken out, and none were put in. -/
structure Sheds (w w' : Workspace) : Prop where
  views : w.session.views.Sheds w'.session.views
  envelopes : w.database.envelopes.Sheds w'.database.envelopes

def Shedding (a : Work α) : Prop := ∀ w : Workspace, w.Sheds (after a w)

theorem Sheds.refl (w : Workspace) : w.Sheds w := ⟨.refl _, .refl _⟩

theorem Sheds.trans (h : w.Sheds w₁) (h' : w₁.Sheds w') : w.Sheds w' :=
  ⟨h.views.trans h'.views, h.envelopes.trans h'.envelopes⟩

namespace Shedding
variable {a : Work α}

theorem ok (h : Shedding a) {x : α} (hx : a w = .ok x w') : w.Sheds w' := after_ok hx ▸ h w

theorem error (h : Shedding a) (he : a w = .error e w') : w.Sheds w' := after_error he ▸ h w

theorem pure (x : α) : Shedding (pure x : Work α) := Sheds.refl

theorem bind {f : α → Work β} (h : Shedding a) (hf : ∀ x, Shedding (f x)) :
    Shedding (a >>= f) := by
  intro w
  cases hx : a w with
  | ok x w' =>
      rw [after_bind_ok hx]
      exact (h.ok hx).trans (hf x w')
  | error e w' =>
      rw [after_bind_error hx]
      exact h.error hx

theorem pass (r : Except Error α) : Shedding (pass r) := by
  intro w
  cases r <;> exact .refl w

theorem forward : Shedding forward := fun _ => ⟨.refl _, .refl _⟩

theorem act (f : Action α) : Shedding (act f) := by
  intro w
  unfold Workspace.act after
  dsimp only
  cases f w.connection <;> exact ⟨.refl _, .refl _⟩

theorem attempt {f : Workspace → Except Error (α × Workspace)}
    (h : ∀ w x w', f w = .ok (x, w') → w.Sheds w') : Shedding (attempt f) := by
  intro w
  unfold Workspace.attempt after
  dsimp only
  cases hf : f w with
  | ok r => exact h w r.1 r.2 hf
  | error e => exact .refl w

theorem release (kind : HandleKind) (h : UInt64) : Shedding (release kind h) := by
  refine .attempt fun w x w' hr => ?_
  cases kind with
  | table | row | query | linkList =>
      obtain ⟨_, -, he⟩ := map_eq_ok.mp hr
      obtain ⟨-, rfl⟩ := Prod.mk.inj he
      exact ⟨.refl _, .refl _⟩
  | view =>
      obtain ⟨_, hremove, he⟩ := map_eq_ok.mp hr
      obtain ⟨-, rfl⟩ := Prod.mk.inj he
      exact ⟨Arena.remove_sheds hremove, .refl _⟩
  | envelope =>
      obtain ⟨_, hremove, he⟩ := map_eq_ok.mp hr
      obtain ⟨-, rfl⟩ := Prod.mk.inj he
      exact ⟨.refl _, Arena.remove_sheds hremove⟩

theorem takeEnvelope (kind : PayloadKind) (h : UInt64) : Shedding (takeEnvelope kind h) := by
  refine .attempt fun w x w' ht => ?_
  obtain ⟨_, hd, he⟩ := map_eq_ok.mp ht
  obtain ⟨-, rfl⟩ := Prod.mk.inj he
  obtain ⟨a, hremove, hd⟩ := take_eq_ok hd
  rw [hd]
  exact ⟨.refl _, Arena.remove_sheds hremove⟩

theorem takeEnvelopes (hs : List UInt64) : Shedding (takeEnvelopes hs) := by
  refine .attempt fun w x w' ht => ?_
  obtain ⟨⟨es, d⟩, hd, he⟩ := map_eq_ok.mp ht
  obtain ⟨-, rfl⟩ := Prod.mk.inj he
  obtain ⟨-, a, ha, rfl⟩ := Database.takeAll_eq_ok.mp hd
  exact ⟨.refl _, (Database.removeAll_loses ha).1.sheds⟩

theorem setQuery (h : UInt64) (q : Query) : Shedding (setQuery h q) := by
  refine .attempt fun w x w' hr => ?_
  obtain ⟨_, -, he⟩ := map_eq_ok.mp hr
  obtain ⟨-, rfl⟩ := Prod.mk.inj he
  exact ⟨.refl _, .refl _⟩

theorem keep {item : Item} (hitem : ∀ v, item ≠ .view v) : Shedding (keep item) := by
  intro w
  cases item with
  | view v => exact absurd rfl (hitem v)
  | table t | row l | query q | list l => exact ⟨.refl _, .refl _⟩

end Shedding

theorem counted_sheds (w : Workspace) : w.Sheds w.counted := Shedding.forward w

/-! What puts views in -/

/-- Views of which P is true were put in, under handles or in envelopes. -/
structure Gathers (P : View → Prop) (w w' : Workspace) : Prop where
  views : w.session.views.Gathers (fun b => P b.object) w'.session.views
  envelopes : w.database.envelopes.Gathers (fun e => ∀ v, e.payload = .view v → P v)
    w'.database.envelopes

theorem Gathers.refl (P : View → Prop) (w : Workspace) : w.Gathers P w := ⟨.refl _ _, .refl _ _⟩

theorem Gathers.trans (h : w.Gathers P w₁) (h' : w₁.Gathers P w') : w.Gathers P w' :=
  ⟨h.views.trans h'.views, h.envelopes.trans h'.envelopes⟩

theorem keep_gathers (hw : w.Stocked) {item : Item} {raw : UInt64} (hk : keep item w = .ok raw w')
    (hP : ∀ v, item = .view v → P v) : w.Gathers P w' := by
  obtain ⟨-, rfl⟩ := EStateM.Result.ok.inj hk
  cases item with
  | view v =>
      exact ⟨Arena.insert_gathers (x := Bound.mk v w.session.context.epoch) hw.views.tidy
        (hP v rfl), .refl _ _⟩
  | table t | row l | query q | list l => exact ⟨.refl _ _, .refl _ _⟩

theorem register_gathers (hw : w.Stocked) {env : Envelope} {raw : UInt64}
    (hr : register env w = .ok raw w') (hP : ∀ v, env.payload = .view v → P v) :
    w.Gathers P w' := by
  obtain ⟨-, rfl⟩ := EStateM.Result.ok.inj hr
  exact ⟨.refl _ _, Arena.insert_gathers hw.envelopes.tidy hP⟩

theorem handOver_gathers (hw : w.Stocked) {r : Response} {x : HandedResult}
    (hx : handOver r w = .ok x w')
    (hP : ∀ env ∈ r.envelope?, ∀ v, env.payload = .view v → P v) : w.Gathers P w' := by
  cases r with
  | row env? =>
      cases env? with
      | none =>
          obtain ⟨-, rfl⟩ := pure_run_ok.mp hx
          exact .refl P w
      | some env =>
          simp only [handOver, bind_run_ok, pure_run_ok] at hx
          obtain ⟨raw, _, hr, -, rfl⟩ := hx
          exact register_gathers hw hr (hP env rfl)
  | view env =>
      simp only [handOver, bind_run_ok, pure_run_ok] at hx
      obtain ⟨raw, _, hr, -, rfl⟩ := hx
      exact register_gathers hw hr (hP env rfl)
  | count n | value v =>
      obtain ⟨-, rfl⟩ := pure_run_ok.mp hx
      exact .refl P w

theorem handOver_all_gathers (hw : w.Stocked) {rs : List Response} {xs : List HandedResult}
    (hx : rs.mapM handOver w = .ok xs w')
    (hP : ∀ r ∈ rs, ∀ env ∈ r.envelope?, ∀ v, env.payload = .view v → P v) : w.Gathers P w' := by
  induction rs generalizing w xs with
  | nil =>
      rw [List.mapM_nil] at hx
      obtain ⟨-, rfl⟩ := pure_run_ok.mp hx
      exact .refl P w
  | cons r rs ih =>
      rw [List.mapM_cons] at hx
      simp only [bind_run_ok, pure_run_ok] at hx
      obtain ⟨x, w₁, hr, xs', _, hrs, -, rfl⟩ := hx
      have hstocked := (handOver_delivers (P := fun _ => True) hw hr fun _ _ _ => trivial).stocked
      exact (handOver_gathers hw hr (hP r List.mem_cons_self)).trans
        (ih hstocked hrs fun r' hr' => hP r' (List.mem_cons_of_mem r hr'))

/-! Operations -/

/-- Views and envelopes may have been taken out, and views of which P is true were put in. -/
def Stows (P : View → Prop) (w w' : Workspace) : Prop := ∃ w₁, w.Sheds w₁ ∧ w₁.Gathers P w'

theorem Sheds.stows (h : w.Sheds w') : w.Stows P w' := ⟨w', h, .refl P w'⟩

/-- What a view is like that is put in on the way from one workspace to the other: it is a copy of
the source or, if there is none, lists rows that its table has now. -/
def Draws (w w' : Workspace) (source? : Option (HandleKind × Nat)) (v : View) : Prop :=
  match source? with
  | none => v.Current w'.session.context
  | some (.view, slot) => ∃ g b, w.session.views.live? slot = some (g, b) ∧ b.object = v
  | some (.envelope, slot) => ∃ g e, w.database.envelopes.live? slot = some (g, e) ∧
      e.payload = .view v
  | some _ => False

end Workspace

/-- A view that the operation puts in lists rows that its table has, or is the one under the handle.
Operations that change a view are left out. -/
def Operation.Lists (w : Workspace) : Operation → Prop
  | keep found => ∀ v, found = .ok (.view v) → v.Current w.session.context
  | replaceView .. => False
  | enclose kind h p _ => ∀ v, p = .view v → kind = .view ∧ ∃ t, w.session.view h = .ok (v, t)
  | _ => True

namespace Workspace
variable {w w₁ w' : Workspace} {P : View → Prop} {out : Outcome} {e : Error}
  {h : UInt64} {operation : Operation}

theorem keep_perform_stows (hw : w.Stocked) {found : Except Error Item}
    (hl : (Operation.keep found).Lists w) (hp : (Operation.keep found).perform w = .ok out w') :
    w.Stows (w.Draws w' none) w' := by
  simp only [Operation.perform, bind_run_ok, pure_run_ok, forward_run_ok, pass_run_ok] at hp
  obtain ⟨-, _, rfl, item, _, ⟨rfl, rfl⟩, raw, _, hk, -, rfl⟩ := hp
  have hcontext := (keep_run_ok (w.counted_settles.stocked hw) hk).context
  refine ⟨w.counted, w.counted_sheds, keep_gathers (w.counted_settles.stocked hw) hk ?_⟩
  rintro v rfl
  rw [Draws, hcontext]
  exact hl v rfl

theorem enclose_perform_stows (hw : w.Stocked) {kind : PayloadKind} {p : Payload}
    {policy : HandoverPolicy} (hl : (Operation.enclose kind h p policy).Lists w)
    (hp : (Operation.enclose kind h p policy).perform w = .ok out w') :
    w.Stows (w.Draws w' (Operation.enclose kind h p policy).source?) w' := by
  simp only [Operation.perform, bind_run_ok, forward_run_ok, act_run_ok,
    Connection.ask_run_ok] at hp
  obtain ⟨-, _, rfl, env, _, ⟨c, ⟨hc, rfl⟩, rfl⟩, hp⟩ := hp
  obtain ⟨rfl, -⟩ := Connection.enclose_eq_ok hc
  have hdraws : ∀ v, env.payload = .view v →
      w.Draws w' (Operation.enclose kind h env.payload policy).source? v := by
    intro v hv
    obtain ⟨rfl, t, hview⟩ := hl v hv
    obtain ⟨b, hlocate, hb, -⟩ := Session.lookUp_eq_ok hview
    obtain ⟨k, hk, hlive⟩ := Arena.get_eq_ok.mp hlocate
    rw [Operation.source?, (Arena.decode_eq_ok hk).1]
    exact ⟨_, b, hlive, hb⟩
  split at hp
  · simp only [bind_run_ok, pure_run_ok] at hp
    obtain ⟨_, w₁, hr, raw, _, hput, -, rfl⟩ := hp
    have hstocked := (release_settling _ h).ok hr |>.stocked (w.counted_settles.stocked hw)
    exact ⟨w₁, w.counted_sheds.trans ((Shedding.release _ h).ok hr),
      register_gathers hstocked hput hdraws⟩
  · simp only [bind_run_ok, pure_run_ok] at hp
    obtain ⟨raw, _, hput, -, rfl⟩ := hp
    exact ⟨w.counted, w.counted_sheds, register_gathers (w.counted_settles.stocked hw) hput hdraws⟩

theorem takeOver_perform_stows (hw : w.Stocked) {kind : PayloadKind}
    (hp : (Operation.takeOver kind h).perform w = .ok out w') :
    w.Stows (w.Draws w' (Operation.takeOver kind h).source?) w' := by
  simp only [Operation.perform, bind_run_ok, pure_run_ok, forward_run_ok, act_run_ok] at hp
  obtain ⟨env, w₁, ht, -, _, rfl, p, _, ⟨c, hc, rfl⟩, raw, w₂, hk, -, rfl⟩ := hp
  obtain ⟨rfl, hkind, -⟩ := Connection.importAs_run_ok hc
  have hsheds : w.Sheds (w₁.counted.withConnection c) :=
    ((Shedding.takeEnvelope kind h).ok ht).trans ⟨.refl _, .refl _⟩
  have hstocked : (w₁.counted.withConnection c).Stocked :=
    (w₁.counted_settles.stocked
      (((takeEnvelope_settling kind h).ok ht).stocked hw)).withConnection c
  refine ⟨_, hsheds, keep_gathers hstocked hk fun v hv => ?_⟩
  have hpayload : env.payload = .view v := by
    cases hpay : env.payload <;> rw [hpay] at hv <;> cases hv
    rfl
  obtain rfl : PayloadKind.view = kind := by rw [← hkind, hpayload]; rfl
  obtain ⟨a, hremove, -⟩ := takeEnvelope_removes ht
  obtain ⟨k, ⟨hk, hlive⟩, -⟩ := Arena.remove_eq_ok.mp hremove
  change w.Draws _ ((Handle.decode? h).map fun k => (.envelope, k.slot)) v
  rw [(Arena.decode_eq_ok hk).1]
  exact ⟨_, env, hlive, hpayload⟩

theorem run_perform_stows (hw : w.Stocked) {request : Request}
    (hp : (Operation.run h request).perform w = .ok out w') : w.Stows (w.Draws w' none) w' := by
  simp only [Operation.perform_run, bind_run_ok, pure_run_ok, forward_run_ok, act_run_ok] at hp
  obtain ⟨env, w₁, ht, -, _, rfl, ⟨v, response⟩, _, ⟨c, hc, rfl⟩, x, w₂, hx, -, rfl⟩ := hp
  have hstocked := (w₁.counted_settles.stocked
    (((takeEnvelope_settling _ h).ok ht).stocked hw)).withConnection c
  have hcontext : w₂.session.context = c.context :=
    congrArg Session.context (handOver_session hx)
  refine ⟨w₁.counted.withConnection c, ((Shedding.takeEnvelope _ h).ok ht).trans
    ⟨.refl _, .refl _⟩, handOver_gathers hstocked hx fun env' he u hu => ?_⟩
  rw [Draws, hcontext]
  exact Connection.runQuery_current hc env' he u hu

theorem runBatch_perform_stows (hw : w.Stocked) {requests : List (UInt64 × Request)}
    (hp : (Operation.runBatch requests).perform w = .ok out w') :
    w.Stows (w.Draws w' none) w' := by
  simp only [Operation.perform, bind_run_ok, pure_run_ok, forward_run_ok, act_run_ok] at hp
  obtain ⟨es, w₁, ht, -, _, rfl, ⟨v, responses⟩, _, ⟨c, hc, rfl⟩, xs, w₂, hx, -, rfl⟩ := hp
  have hstocked := (w₁.counted_settles.stocked
    (((takeEnvelopes_settling _).ok ht).stocked hw)).withConnection c
  have hcontext : w₂.session.context = c.context :=
    congrArg Session.context (handOver_all_session hx)
  refine ⟨w₁.counted.withConnection c, ((Shedding.takeEnvelopes _).ok ht).trans
    ⟨.refl _, .refl _⟩, handOver_all_gathers hstocked hx fun r hr env' he u hu => ?_⟩
  rw [Draws, hcontext]
  exact Connection.runBatch_current hc r hr env' he u hu

/-- What fails without delivering anything. -/
theorem work_error_sheds {α β γ : Type} {take : Work γ} {work : γ → Action α}
    {deliver : γ → α → Work β} (ht : Shedding take)
    (hd : ∀ x y w e w', ¬deliver x y w = .error e w')
    (hp : (take >>= fun x => forward >>= fun _ => act (work x) >>= deliver x) w = .error e w') :
    w.Sheds w' := by
  rcases bind_run_error.mp hp with hp | ⟨x, w₁, htake, hp⟩
  · exact ht.error hp
  · rw [forward_bind] at hp
    refine (ht.ok htake).trans (w₁.counted_sheds.trans ?_)
    rcases bind_run_error.mp hp with hp | ⟨y, w₂, -, hp⟩
    · exact (Shedding.act _).error hp
    · exact absurd hp (hd x y w₂ e w')

/-- Operations with no business with views and envelopes but to take some out. -/
theorem perform_shedding (operation : Operation)
    (ho : match operation with
      | .keep _ | .replaceView .. | .enclose .. | .takeOver .. | .run .. | .runBatch .. => False
      | _ => True) : Shedding operation.perform := by
  cases operation with
  | answer reply => exact .pure _
  | release kind h => exact (Shedding.release kind h).bind fun _ => .pure _
  | transact t => exact .bind .forward fun _ => (Shedding.act _).bind fun _ => .pure _
  | read result => exact .bind .forward fun _ => (Shedding.pass _).bind fun _ => .pure _
  | edit x =>
      refine .bind .forward fun _ => (Shedding.act _).bind fun made => ?_
      cases made <;> exact .pure _
  | createTable name =>
      refine .bind .forward fun _ => (Shedding.act _).bind fun made => ?_
      cases made with
      | some key => exact (Shedding.keep (by simp)).bind fun _ => .pure _
      | none => exact .pure _
  | replaceQuery h q => exact .bind .forward fun _ => (Shedding.setQuery h q).bind fun _ => .pure _
  | keep | replaceView | enclose | takeOver | run | runBatch => exact absurd ho id

theorem perform_stows (hw : w.Stocked) (hl : operation.Lists w)
    (hp : operation.perform w = .ok out w') :
    w.Stows (w.Draws w' operation.source?) w' := by
  cases operation with
  | keep found => exact keep_perform_stows hw hl hp
  | enclose kind h p policy => exact enclose_perform_stows hw hl hp
  | takeOver kind h => exact takeOver_perform_stows hw hp
  | run h request => exact run_perform_stows hw hp
  | runBatch requests => exact runBatch_perform_stows hw hp
  | replaceView h outcome v => exact absurd hl id
  | answer | release | transact | read | edit | createTable | replaceQuery =>
      exact ((perform_shedding _ trivial).ok hp).stows

theorem perform_error_sheds (hl : operation.Lists w) (hp : operation.perform w = .error e w') :
    w.Sheds w' := by
  cases operation with
  | keep found =>
      rw [Operation.perform, forward_bind] at hp
      rcases bind_run_error.mp hp with hp | ⟨item, w₁, -, hp⟩
      · exact w.counted_sheds.trans ((Shedding.pass found).error hp)
      · exact absurd (map_run_error.mp hp) keep_run_error
  | enclose kind h p policy =>
      rw [Operation.enclose_error_stands hp]
      exact w.counted_sheds
  | takeOver kind h =>
      exact work_error_sheds (.takeEnvelope kind h)
        (fun _ _ _ _ _ h => keep_run_error (map_run_error.mp h)) hp
  | run h request =>
      rw [Operation.perform_run] at hp
      exact work_error_sheds (.takeEnvelope .query h)
        (fun _ _ _ _ _ h => handOver_run_error (map_run_error.mp h)) hp
  | runBatch requests =>
      exact work_error_sheds (.takeEnvelopes _)
        (fun _ _ _ _ _ h => handOver_all_run_error (map_run_error.mp h)) hp
  | replaceView h outcome v => exact absurd hl id
  | answer | release | transact | read | edit | createTable | replaceQuery =>
      exact (perform_shedding _ trivial).error hp

end Workspace

end SnapshotStore
