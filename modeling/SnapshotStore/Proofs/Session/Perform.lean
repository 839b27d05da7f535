import SnapshotStore.Proofs.Session.Turn

/-!
Every operation turns its workspace with its deed, whether it succeeds or fails. Creating,
keeping and taking over answer the handle of the object that they put in.
-/

namespace SnapshotStore

namespace Connection
variable {c c' : Connection} {e : Edit} {made : Option Nat} {x : Error}

theorem edit_run_ok (h : Connection.edit e c = .ok made c') : ∃ base g,
    c.context.state = .writing base g ∧ (g.edit e).1 = .ok made ∧
      c' = ⟨c.store, { c.context with state := .writing base (g.edit e).2 }⟩ := by
  unfold Connection.edit at h
  split at h
  next base g hstate =>
    split at h
    next g' hg =>
      simp only [EStateM.Result.ok.injEq] at h
      obtain ⟨rfl, rfl⟩ := h
      exact ⟨base, g, hstate, by rw [hg], by rw [hg]⟩
    next => simp at h
  next => simp at h

theorem edit_step_ok (h : Connection.edit e c = .ok made c') :
    c.context.isWriting ∧ Step c (.edit e) c' := by
  obtain ⟨base, g, hstate, -, rfl⟩ := edit_run_ok h
  exact ⟨(isWriting_iff _).mpr ⟨_, _, hstate⟩, .edit e hstate⟩

theorem edit_step_error (h : Connection.edit e c = .error x c') :
    Step c (if c.context.isWriting then .edit e else .rest) c' := by
  cases hw : c.context.isWriting with
  | false =>
      rw [show c = ⟨c.store, c.context⟩ from rfl, edit_refused c.store e hw] at h
      obtain ⟨-, rfl⟩ := EStateM.Result.error.inj h
      exact .stay _
  | true =>
      obtain ⟨base, g, hstate⟩ := (isWriting_iff _).mp hw
      rcases edit_writing c.store e hstate with ⟨y, hy⟩ | ⟨y, hy⟩
      · exact nomatch hy.symm.trans h
      · obtain ⟨-, rfl⟩ := EStateM.Result.error.inj (hy.symm.trans h)
        exact .edit e hstate

end Connection

theorem Group.edit_addTable {g : Group} {name : String} {made : Option Nat}
    (h : (g.edit (.addTable name)).1 = .ok made) : ∃ key g' t,
      g.addTable name = .ok (key, g') ∧ made = some key ∧
      (g.edit (.addTable name)).2.table? key = some t := by
  simp only [edit] at h ⊢
  cases ha : g.addTable name with
  | error e => simp [ha] at h
  | ok r =>
      obtain ⟨key, g'⟩ := r
      simp only [ha, Except.ok.injEq] at h
      subst h
      unfold addTable at ha
      split at ha
      · simp at ha
      · split at ha
        · simp at ha
        · simp only [Except.ok.injEq, Prod.mk.injEq] at ha
          obtain ⟨rfl, rfl⟩ := ha
          exact ⟨_, _, _, rfl, rfl, by rw [table?_put, if_pos rfl]⟩

namespace Workspace
variable {w w₁ w' : Workspace} {out : Outcome} {e : Error}

def counted (w : Workspace) : Workspace :=
  { w with database.store := w.database.store.recordCall }

theorem counted_settles (w : Workspace) : w.Settles w.counted := Settling.forward.ok rfl

theorem counted_shrinks (w : Workspace) (c : Connection) (kind : HandleKind) :
    (w.shelf kind).Shrinks ((w.counted.withConnection c).shelf kind) := by
  rw [withConnection_shelf]
  exact w.counted_settles.shrinks kind

theorem forward_run_ok {u : Unit} : forward w = .ok u w₁ ↔ w.counted = w₁ := by
  simp [forward, counted]

theorem forward_run_error : ¬forward w = .error e w' := by simp [forward]

/-- To be forwarded is to be counted. -/
theorem forward_bind {α : Type} (f : Unit → Work α) : (forward >>= f) w = f () w.counted := rfl

theorem act_run_ok {α : Type} {a : Action α} {x : α} : act a w = .ok x w' ↔
    ∃ c, a w.connection = .ok x c ∧ w.withConnection c = w' := by
  unfold act
  cases a w.connection <;> simp [and_assoc]

theorem act_run_error {α : Type} {a : Action α} : act a w = .error e w' ↔
    ∃ c, a w.connection = .error e c ∧ w.withConnection c = w' := by
  unfold act
  cases a w.connection <;> simp [and_assoc]

theorem pass_run_ok {α : Type} {r : Except Error α} {x : α} :
    pass r w = .ok x w' ↔ r = .ok x ∧ w = w' := by
  cases r <;> simp [pass]

theorem keep_run_ok (hw : w.Stocked) {item : Item} {raw : UInt64} (h : keep item w = .ok raw w') :
    w.Puts w' item.kind w.session.context.epoch item.subject raw := by
  obtain ⟨raw', w₁, hk, hp⟩ := keep_puts hw item
  obtain ⟨rfl, rfl⟩ := EStateM.Result.ok.inj (hk.symm.trans h)
  exact hp

theorem keep_run_error {item : Item} : ¬keep item w = .error e w' := by simp [keep]

theorem register_run_ok (hw : w.Stocked) {env : Envelope} {raw : UInt64}
    (h : register env w = .ok raw w') :
    w.Puts w' .envelope env.version env.payload.subject raw := by
  obtain ⟨raw', w₁, hk, hp⟩ := register_puts hw env
  obtain ⟨rfl, rfl⟩ := EStateM.Result.ok.inj (hk.symm.trans h)
  exact hp

theorem register_run_error {env : Envelope} : ¬register env w = .error e w' := by
  simp [register]

theorem boundAt_item (c : Context) (item : Item) (bound : Nat) :
    c.BoundAt item.kind bound ↔ bound = c.epoch := by
  cases item <;> exact Iff.rfl

theorem Puts.context {kind : HandleKind} {bound : Nat} {x : Subject} {raw : UInt64}
    (h : w.Puts w' kind bound x raw) : w'.session.context = w.session.context :=
  congrArg Connection.context h.connection

/-! Transitions and edits -/

-- The equations of the operations are worked out here and not in each of the proofs.
attribute [local simp] Operation.perform

theorem transact_ok {t : Transition} (h : (Operation.transact t).perform w = .ok out w')
    (source? : Option (HandleKind × Nat)) :
    w.Turns t.deed source? w' := by
  simp only [Operation.perform, bind_run_ok, pure_run_ok, forward_run_ok, act_run_ok] at h
  obtain ⟨-, _, rfl, a, _, ⟨c, hc, rfl⟩, rfl, rfl⟩ := h
  exact w.counted_settles.step ((Connection.perform_does t).ok hc)

theorem transact_error {t : Transition} (h : (Operation.transact t).perform w = .error e w')
    (source? : Option (HandleKind × Nat)) : w.Turns .rest source? w' := by
  simp only [Operation.perform, forward_bind, map_run_error, act_run_error] at h
  obtain ⟨c, hc, rfl⟩ := h
  exact w.counted_settles.step ((Connection.perform_does t).error hc)

theorem edit_ok {x : Edit} (h : (Operation.edit x).perform w = .ok out w')
    (source? : Option (HandleKind × Nat)) :
    w.Turns ((Operation.edit x).deed w true) source? w' := by
  simp only [Operation.perform, bind_run_ok, forward_run_ok, act_run_ok] at h
  obtain ⟨-, _, rfl, made, _, ⟨c, hc, rfl⟩, h⟩ := h
  obtain ⟨hwriting, hstep⟩ := Connection.edit_step_ok hc
  have hdeed : (Operation.edit x).deed w true = .edit x := if_pos hwriting
  rw [hdeed]
  cases made with
  | some key =>
      obtain ⟨rfl, rfl⟩ := pure_run_ok.mp h
      exact w.counted_settles.step hstep
  | none =>
      obtain ⟨rfl, rfl⟩ := pure_run_ok.mp h
      exact w.counted_settles.step hstep

theorem edit_error {x : Edit} (h : (Operation.edit x).perform w = .error e w')
    (source? : Option (HandleKind × Nat)) :
    w.Turns ((Operation.edit x).deed w false) source? w' := by
  simp only [Operation.perform, forward_bind, bind_run_error, act_run_error] at h
  obtain ⟨c, hc, rfl⟩ | ⟨made, _, -, h⟩ := h
  · exact w.counted_settles.step (Connection.edit_step_error hc)
  · cases made <;> exact absurd h pure_run_error

theorem createTable_ok (hw : w.Stocked) {name : String}
    (h : (Operation.createTable name).perform w = .ok out w') :
    w.Turns ((Operation.createTable name).deed w true) none w' ∧
      ∃ base g key g' raw, w.session.context.state = .writing base g ∧
        g.addTable name = .ok (key, g') ∧ out.reply = .handle raw ∧
          w.Issues w' .table (.table key) raw := by
  simp only [Operation.perform, bind_run_ok, forward_run_ok, act_run_ok] at h
  obtain ⟨-, _, rfl, made, _, ⟨c, hc, rfl⟩, h⟩ := h
  obtain ⟨hwriting, hstep⟩ := Connection.edit_step_ok hc
  have hdeed : (Operation.createTable name).deed w true = .edit (.addTable name) := if_pos hwriting
  rw [hdeed]
  have hturns : w.Turns _ none (w.counted.withConnection c) := w.counted_settles.step hstep
  obtain ⟨base, g, hstate, hmade, rfl⟩ := Connection.edit_run_ok hc
  obtain ⟨key, g', t, ha, rfl, ht⟩ := Group.edit_addTable hmade
  simp only [bind_run_ok, pure_run_ok] at h
  obtain ⟨raw, w₂, hk, rfl, rfl⟩ := h
  have hp := keep_run_ok ((w.counted_settles.stocked hw).withConnection _) hk
  have hepoch := congrArg Context.epoch hp.context
  have hsees : ∀ n, w₂.session.context.Sees .table
      ⟨n, w.session.context.epoch, .table key⟩ := by
    intro n
    refine ⟨hepoch.symm, (g.edit (.addTable name)).2, ?_, ?_⟩
    · rw [hp.context]
      rfl
    · exact Option.isSome_iff_exists.mpr ⟨_, Group.sight?_table ht⟩
  exact ⟨Turns.puts none hturns (w.counted_shrinks _) hp hsees, base, g, key, g', raw, hstate, ha,
    rfl, hp.issues (w.counted_shrinks _ _)⟩

theorem createTable_error {name : String}
    (h : (Operation.createTable name).perform w = .error e w')
    (source? : Option (HandleKind × Nat)) :
    w.Turns ((Operation.createTable name).deed w false) source? w' := by
  simp only [Operation.perform, forward_bind, bind_run_error, act_run_error] at h
  obtain ⟨c, hc, rfl⟩ | ⟨made, _, -, h⟩ := h
  · exact w.counted_settles.step (Connection.edit_step_error hc)
  · cases made with
    | none => exact absurd h pure_run_error
    | some key => exact absurd (map_run_error.mp h) keep_run_error

/-! Objects for handles -/

theorem keep_ok (hw : w.Stocked) {found : Except Error Item}
    (hf : (Operation.keep found).Fits w) (h : (Operation.keep found).perform w = .ok out w') :
    w.Turns .rest none w' ∧ w'.session.context = w.session.context ∧
      ∃ item raw, found = .ok item ∧ out.reply = .handle raw ∧
        w.Issues w' item.kind item.subject raw := by
  simp only [Operation.perform, bind_run_ok, pure_run_ok, forward_run_ok, pass_run_ok] at h
  obtain ⟨-, _, rfl, item, _, ⟨rfl, rfl⟩, raw, _, hk, rfl, rfl⟩ := h
  have hp := keep_run_ok (w.counted_settles.stocked hw) hk
  obtain ⟨g, hg, hseen⟩ := hf item rfl
  refine ⟨w.counted_settles.puts none hp fun n => ?_, hp.context, item, raw, rfl, rfl,
    hp.issues (w.counted_settles.shrinks _)⟩
  refine ⟨(boundAt_item _ item _).mpr (congrArg Context.epoch hp.context.symm), g, ?_, hseen⟩
  rw [hp.context]
  exact hg

/-- The envelope that was taken, as it stood in its slot. -/
theorem takeEnvelope_run_ok {kind : PayloadKind} {h : UInt64} {env : Envelope}
    (ht : takeEnvelope kind h w = .ok env w₁) : ∃ k o, Handle.decode? h = some k ∧
      (w.shelf .envelope).held k.slot = some o ∧ o.bound = env.version ∧
      o.subject = env.payload.subject ∧ w.database.envelopes.get h = .ok env := by
  unfold takeEnvelope attempt at ht
  split at ht
  next x w₂ hm =>
    obtain ⟨rfl, rfl⟩ := EStateM.Result.ok.inj ht
    obtain ⟨⟨env', d⟩, hd, he⟩ := map_eq_ok.mp hm
    obtain ⟨rfl, rfl⟩ := Prod.mk.inj he
    obtain ⟨a, ha, rfl⟩ := take_eq_ok hd
    obtain ⟨k, hk, -⟩ := Arena.remove_eq_ok.mp ha
    exact ⟨k, _, (Arena.decode_eq_ok hk.decode).1, by simp [shelf, Arena.shelf, hk.live]; rfl, rfl,
      rfl, hk.get⟩
  next => simp at ht

theorem takeOver_ok (hw : w.Stocked) {kind : PayloadKind} {h : UInt64}
    (hp : (Operation.takeOver kind h).perform w = .ok out w') :
    w.Turns .rest (Operation.takeOver kind h).source? w' ∧
      ∃ env raw, w.database.envelopes.get h = .ok env ∧ out.reply = .handle raw ∧
        w.Issues w' (handleKind kind) env.payload.subject raw := by
  simp only [Operation.perform, bind_run_ok, pure_run_ok, forward_run_ok, act_run_ok] at hp
  obtain ⟨env, w₁, ht, -, _, rfl, p, _, ⟨c, hc, rfl⟩, raw, w₂, hk, rfl, rfl⟩ := hp
  have hsettles : w.Settles (w₁.counted.withConnection c) :=
    ((takeEnvelope_settling kind h).ok ht).trans (w₁.counted_settles.trans
      ((Settling.act (Connection.importAs_isQuiet kind env)).ok (act_run_ok.mpr ⟨c, hc, rfl⟩)))
  have hput := keep_run_ok (hsettles.stocked hw) hk
  obtain ⟨rfl, hkind, g, hstate, hseen⟩ := Connection.importAs_run_ok hc
  obtain ⟨k, o, hdecode, ho, hbound, hsubject, henv⟩ := takeEnvelope_run_ok ht
  have hitem : (itemOf env.payload).subject = env.payload.subject := by
    cases env.payload <;> rfl
  have hcontext : w₂.session.context = c.context := hput.context
  have hhere : ∀ n, w₂.session.context.Sees (itemOf env.payload).kind
      ⟨n, c.context.epoch, (itemOf env.payload).subject⟩ := by
    intro n
    refine ⟨(boundAt_item _ _ _).mpr (congrArg Context.epoch hcontext.symm), g, ?_, ?_⟩
    · rw [hcontext]
      simp only [Context.group, hstate]
    · exact hitem ▸ hseen
  have hadmits : ∀ n, w.Admits w₂ (Operation.takeOver kind h).source?
      (itemOf env.payload).kind ⟨n, c.context.epoch, (itemOf env.payload).subject⟩ := by
    intro n
    have hcopy : ∃ p, (w.shelf .envelope).held k.slot = some p ∧
        p.subject = (itemOf env.payload).subject ∧
        w₂.session.context.BoundAt .envelope p.bound ∧
        w₂.session.context.BoundAt (itemOf env.payload).kind c.context.epoch := by
      refine ⟨o, ho, hsubject.trans hitem.symm, ⟨g, ?_⟩, (hhere n).bound⟩
      rw [hbound, hcontext, hstate]
    cases kind with
    | row => exact hhere n
    | query | view => simpa only [Admits, Operation.source?, hdecode, Option.map_some] using hcopy
  have hitemKind : (itemOf env.payload).kind = handleKind kind := by
    rw [← hkind]
    cases env.payload <;> rfl
  have hissues := hput.issues (hsettles.shrinks _)
  rw [hitem, hitemKind] at hissues
  exact ⟨hsettles.puts _ hput hadmits, env, raw, henv, rfl, hissues⟩

/-! Envelopes -/

theorem enclose_ok (hw : w.Stocked) {kind : PayloadKind} {h : UInt64} {p : Payload}
    {policy : HandoverPolicy} (hf : (Operation.enclose kind h p policy).Fits w)
    (hp : (Operation.enclose kind h p policy).perform w = .ok out w') :
    w.Turns .rest (Operation.enclose kind h p policy).source? w' ∧
      ∃ raw, out.reply = .handle raw ∧ w.Issues w' .envelope p.subject raw := by
  obtain ⟨k, o, hdecode, ho, hsubject, hbound⟩ := hf
  simp only [Operation.perform, bind_run_ok, forward_run_ok, act_run_ok,
    Connection.ask_run_ok] at hp
  obtain ⟨-, _, rfl, env, _, ⟨c, ⟨hc, rfl⟩, rfl⟩, hp⟩ := hp
  obtain ⟨rfl, g, hstate, hseen⟩ := Connection.enclose_eq_ok hc
  have hcounted : w.Settles (w.counted.withConnection w.counted.connection) :=
    w.counted_settles.trans (.withConnection _ (.refl _))
  -- A move lets go of the object first.
  have hrest : ∃ w₁ raw, w.Settles w₁ ∧ w₁.session.context = w.session.context ∧
      register env w₁ = .ok raw w' ∧ out = ⟨.handle raw, none⟩ := by
    split at hp
    · simp only [bind_run_ok, pure_run_ok] at hp
      obtain ⟨_, w₁, hr, raw, _, hput, rfl, rfl⟩ := hp
      refine ⟨w₁, raw, hcounted.trans ((release_settling _ h).ok hr), ?_, hput, rfl⟩
      exact (release_context hr).trans rfl
    · simp only [bind_run_ok, pure_run_ok] at hp
      obtain ⟨raw, _, hput, rfl, rfl⟩ := hp
      exact ⟨_, raw, hcounted, rfl, hput, rfl⟩
  obtain ⟨w₁, raw, hsettles, hcontext, hput, rfl⟩ := hrest
  have hput := register_run_ok (hsettles.stocked hw) hput
  have hcontext' : w'.session.context = w.session.context := hput.context.trans hcontext
  have hreading : w'.session.context.state = .reading env.version g := hcontext' ▸ hstate
  refine ⟨hsettles.puts _ hput fun n => ?_, raw, rfl, hput.issues (hsettles.shrinks _)⟩
  simp only [Admits, Operation.source?, hdecode, Option.map_some]
  refine ⟨o, ho, hsubject, ?_, g, hreading⟩
  rw [hbound, hcontext']
  cases kind <;> rfl

structure Delivers (w w' : Workspace) (P : Held → Prop) : Prop where
  connection : w'.connection = w.connection
  stocked : w'.Stocked
  grows : ∀ k, (w.shelf k).Grows (fun o => k = .envelope ∧ P o) (w'.shelf k)

variable {P : Held → Prop}

theorem Delivers.refl (hw : w.Stocked) : w.Delivers w P := ⟨rfl, hw, fun _ => .refl _ _⟩

theorem Delivers.trans (h : w.Delivers w₁ P) (h' : w₁.Delivers w' P) : w.Delivers w' P :=
  ⟨h'.connection.trans h.connection, h'.stocked, fun k => (h.grows k).trans (h'.grows k)⟩

theorem register_delivers (hw : w.Stocked) {env : Envelope} {raw : UInt64}
    (h : register env w = .ok raw w') (hP : ∀ g, P ⟨g, env.version, env.payload.subject⟩) :
    w.Delivers w' P := by
  have hput := register_run_ok hw h
  refine ⟨hput.connection, hput.stocked, fun k slot => ?_⟩
  obtain ⟨hgen, hheld⟩ := hput.grows k slot
  refine ⟨hgen, hheld.imp_right ?_⟩
  rintro ⟨hn, ⟨g, _, _⟩, ho, hk, rfl, rfl⟩
  exact ⟨hn, _, ho, hk, hP g⟩

theorem handOver_delivers (hw : w.Stocked) {r : Response} {x : HandedResult}
    (h : handOver r w = .ok x w')
    (hP : ∀ env ∈ r.envelope?, ∀ g, P ⟨g, env.version, env.payload.subject⟩) :
    w.Delivers w' P := by
  cases r with
  | row env? =>
      cases env? with
      | none =>
          obtain ⟨-, rfl⟩ := pure_run_ok.mp h
          exact .refl hw
      | some env =>
          simp only [handOver, bind_run_ok, pure_run_ok] at h
          obtain ⟨raw, _, hr, -, rfl⟩ := h
          exact register_delivers hw hr (hP env rfl)
  | view env =>
      simp only [handOver, bind_run_ok, pure_run_ok] at h
      obtain ⟨raw, _, hr, -, rfl⟩ := h
      exact register_delivers hw hr (hP env rfl)
  | count n | value v =>
      obtain ⟨-, rfl⟩ := pure_run_ok.mp h
      exact .refl hw

theorem handOver_run_error {r : Response} : ¬handOver r w = .error e w' := by
  cases r with
  | row env? =>
      cases env? with
      | none => exact pure_run_error
      | some env => simp only [handOver, bind_run_error, pure_run_error, register_run_error,
          and_false, exists_false, or_false, not_false_eq_true]
  | view env => simp only [handOver, bind_run_error, pure_run_error, register_run_error,
      and_false, exists_false, or_false, not_false_eq_true]
  | count n | value v => exact pure_run_error

theorem handOver_all_delivers (hw : w.Stocked) {rs : List Response} {xs : List HandedResult}
    (h : rs.mapM handOver w = .ok xs w')
    (hP : ∀ r ∈ rs, ∀ env ∈ r.envelope?, ∀ g, P ⟨g, env.version, env.payload.subject⟩) :
    w.Delivers w' P := by
  induction rs generalizing w xs with
  | nil =>
      rw [List.mapM_nil] at h
      obtain ⟨-, rfl⟩ := pure_run_ok.mp h
      exact .refl hw
  | cons r rs ih =>
      rw [List.mapM_cons] at h
      simp only [bind_run_ok, pure_run_ok] at h
      obtain ⟨x, w₁, hr, xs', _, hrs, -, rfl⟩ := h
      have h₁ := handOver_delivers hw hr (hP r (by simp))
      exact h₁.trans (ih h₁.stocked hrs fun r' hr' => hP r' (by simp [hr']))

theorem handOver_all_run_error {rs : List Response} : ¬rs.mapM handOver w = .error e w' := by
  induction rs generalizing w with
  | nil =>
      rw [List.mapM_nil]
      exact pure_run_error
  | cons r rs ih =>
      rw [List.mapM_cons]
      simp only [bind_run_error, pure_run_error, handOver_run_error, ih, and_false, exists_false,
        or_false, not_false_eq_true]

theorem Settles.delivers (h : w.Settles w₁)
    (hd : w₁.Delivers w' (w'.session.context.Sees .envelope)) :
    w.Turns .rest none w' := by
  refine ⟨hd.connection ▸ h.quiet.course, fun k => ⟨_, h.shrinks k, fun slot => ?_⟩,
    fun _ => hd.stocked⟩
  obtain ⟨hgen, hheld⟩ := hd.grows k slot
  refine ⟨hgen, hheld.imp_right ?_⟩
  rintro ⟨hn, o, ho, rfl, hsees⟩
  exact ⟨hn, o, ho, hsees⟩

theorem run_ok (hw : w.Stocked) {h : UInt64} {request : Request}
    (hp : (Operation.run h request).perform w = .ok out w') :
    w.Turns .rest none w' := by
  simp only [Operation.perform_run, bind_run_ok, pure_run_ok, forward_run_ok, act_run_ok] at hp
  obtain ⟨env, w₁, ht, -, _, rfl, ⟨v, response⟩, _, ⟨c, hc, rfl⟩, x, w₂, hx, rfl, rfl⟩ := hp
  have hsettles : w.Settles (w₁.counted.withConnection c) :=
    ((takeEnvelope_settling _ h).ok ht).trans (w₁.counted_settles.trans
      ((Settling.act (Connection.runQuery_isQuiet env request)).ok (act_run_ok.mpr ⟨c, hc, rfl⟩)))
  have hd : (w₁.counted.withConnection c).Delivers w₂ (c.context.Sees .envelope) :=
    handOver_delivers (hsettles.stocked hw) hx fun env' he g =>
      (Connection.runQuery_shows hc env' he).sees g
  have hcontext : w₂.session.context = c.context := congrArg Connection.context hd.connection
  exact hsettles.delivers (hcontext ▸ hd)

theorem runBatch_ok (hw : w.Stocked) {requests : List (UInt64 × Request)}
    (hp : (Operation.runBatch requests).perform w = .ok out w') :
    w.Turns .rest none w' := by
  simp only [Operation.perform, bind_run_ok, pure_run_ok, forward_run_ok, act_run_ok] at hp
  obtain ⟨es, w₁, ht, -, _, rfl, ⟨v, responses⟩, _, ⟨c, hc, rfl⟩, xs, w₂, hx, rfl, rfl⟩ := hp
  have hsettles : w.Settles (w₁.counted.withConnection c) :=
    ((takeEnvelopes_settling _).ok ht).trans (w₁.counted_settles.trans
      ((Settling.act (Connection.runBatch_isQuiet _)).ok (act_run_ok.mpr ⟨c, hc, rfl⟩)))
  have hd : (w₁.counted.withConnection c).Delivers w₂ (c.context.Sees .envelope) :=
    handOver_all_delivers (hsettles.stocked hw) hx fun r hr env' he g =>
      (Connection.runBatch_shows hc r hr env' he).sees g
  have hcontext : w₂.session.context = c.context := congrArg Connection.context hd.connection
  exact hsettles.delivers (hcontext ▸ hd)

/-! Failures -/

theorem keep_error {found : Except Error Item}
    (h : (Operation.keep found).perform w = .error e w') :
    w.Settles w' := by
  simp only [Operation.perform, forward_bind, bind_run_error, pure_run_error, keep_run_error,
    and_false, exists_false, or_false] at h
  exact w.counted_settles.trans ((Settling.pass found).error h)

theorem enclose_error {kind : PayloadKind} {h : UInt64} {p : Payload} {policy : HandoverPolicy}
    (hp : (Operation.enclose kind h p policy).perform w = .error e w') : w.Settles w' := by
  simp only [Operation.perform, forward_bind, bind_run_error] at hp
  obtain hp | ⟨env, w₁, hact, hp⟩ := hp
  · exact w.counted_settles.trans ((Settling.act (.ask _)).error hp)
  · refine w.counted_settles.trans (((Settling.act (.ask _)).ok hact).trans ?_)
    split at hp
    · simp only [bind_run_error, pure_run_error, register_run_error, and_false, exists_false,
        or_false] at hp
      exact (release_settling _ h).error hp
    · simp only [bind_run_error, pure_run_error, register_run_error, and_false, exists_false,
        or_false] at hp

theorem takeOver_error {kind : PayloadKind} {h : UInt64}
    (hp : (Operation.takeOver kind h).perform w = .error e w') : w.Settles w' := by
  simp only [Operation.perform, bind_run_error, pure_run_error, forward_run_ok, forward_run_error,
    keep_run_error, false_or, and_false, exists_false, or_false] at hp
  obtain hp | ⟨env, w₁, ht, -, _, rfl, hp⟩ := hp
  · exact (takeEnvelope_settling kind h).error hp
  · exact ((takeEnvelope_settling kind h).ok ht).trans (w₁.counted_settles.trans
      ((Settling.act (Connection.importAs_isQuiet kind env)).error hp))

theorem run_error {h : UInt64} {request : Request}
    (hp : (Operation.run h request).perform w = .error e w') : w.Settles w' := by
  simp only [Operation.perform_run, bind_run_error, pure_run_error, forward_run_ok,
    forward_run_error, handOver_run_error, false_or, and_false, exists_false, or_false] at hp
  obtain hp | ⟨env, w₁, ht, -, _, rfl, hp⟩ := hp
  · exact (takeEnvelope_settling _ h).error hp
  · exact ((takeEnvelope_settling _ h).ok ht).trans (w₁.counted_settles.trans
      ((Settling.act (Connection.runQuery_isQuiet env request)).error hp))

theorem runBatch_error {requests : List (UInt64 × Request)}
    (hp : (Operation.runBatch requests).perform w = .error e w') : w.Settles w' := by
  simp only [Operation.perform, bind_run_error, pure_run_error, forward_run_ok, forward_run_error,
    handOver_all_run_error, false_or, and_false, exists_false, or_false] at hp
  obtain hp | ⟨es, w₁, ht, -, _, rfl, hp⟩ := hp
  · exact (takeEnvelopes_settling _).error hp
  · exact ((takeEnvelopes_settling _).ok ht).trans (w₁.counted_settles.trans
      ((Settling.act (Connection.runBatch_isQuiet _)).error hp))

/-! Operations that put nothing in -/

theorem release_perform_settling (kind : HandleKind) (h : UInt64) :
    Settling (Operation.release kind h).perform :=
  (release_settling kind h).bind fun _ => .pure _

theorem read_settling (result : Except Error Reply) : Settling (Operation.read result).perform :=
  Settling.forward.bind fun _ => (Settling.pass result).bind fun _ => .pure _

theorem replaceQuery_settles {h : UInt64} {q : Query} (hf : (Operation.replaceQuery h q).Fits w) :
    w.Settles (after (Operation.replaceQuery h q).perform w) :=
  w.counted_settles.trans ((setQuery_settles w.counted h q hf).bind fun _ => .pure _)

theorem replaceView_settles {h : UInt64} {outcome : Except Error Unit} {v : View}
    (hf : (Operation.replaceView h outcome v).Fits w) :
    w.Settles (after (Operation.replaceView h outcome v).perform w) :=
  w.counted_settles.trans ((setView_settles w.counted h v hf).bind fun _ =>
    (Settling.pass outcome).bind fun _ => .pure _)

/-! All operations -/

theorem perform_ok (hw : w.Stocked) {operation : Operation} (hf : operation.Fits w)
    (h : operation.perform w = .ok out w') :
    w.Turns (operation.deed w true) operation.source? w' := by
  cases operation with
  | answer reply =>
      obtain ⟨-, rfl⟩ := pure_run_ok.mp h
      exact (Settles.refl w).turns
  | release kind h' => exact ((release_perform_settling kind h').ok h).turns
  | transact t => exact transact_ok h none
  | read result => exact ((read_settling result).ok h).turns
  | edit x => exact edit_ok h none
  | createTable name => exact (createTable_ok hw h).1
  | keep found => exact (keep_ok hw hf h).1
  | replaceQuery h' q => exact (after_ok h ▸ replaceQuery_settles hf).turns
  | replaceView h' outcome v => exact (after_ok h ▸ replaceView_settles hf).turns
  | enclose kind h' p policy => exact (enclose_ok hw hf h).1
  | takeOver kind h' => exact (takeOver_ok hw h).1
  | run h' request => exact run_ok hw h
  | runBatch requests => exact runBatch_ok hw h

theorem perform_error {operation : Operation} (hf : operation.Fits w)
    (h : operation.perform w = .error e w') :
    w.Turns (operation.deed w false) operation.source? w' := by
  cases operation with
  | answer reply => exact absurd h pure_run_error
  | release kind h' => exact ((release_perform_settling kind h').error h).turns
  | transact t => exact transact_error h none
  | read result => exact ((read_settling result).error h).turns
  | edit x => exact edit_error h none
  | createTable name => exact createTable_error h none
  | keep found => exact (keep_error h).turns
  | replaceQuery h' q => exact (after_error h ▸ replaceQuery_settles hf).turns
  | replaceView h' outcome v => exact (after_error h ▸ replaceView_settles hf).turns
  | enclose kind h' p policy => exact (enclose_error h).turns
  | takeOver kind h' => exact (takeOver_error h).turns
  | run h' request => exact (run_error h).turns
  | runBatch requests => exact (runBatch_error h).turns

end Workspace
end SnapshotStore
