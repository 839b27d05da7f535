import SnapshotStore.Proofs.Connection.Advance
import SnapshotStore.Proofs.Connection.Epoch
import SnapshotStore.Proofs.Imports

/-!
Versions inside a transaction. As long as the epoch of a context stays what it is, the version
that the context reports does not fall, whatever the context and the others do. A read can be
moved to every kept version that is not before its own, and to no other.
-/

namespace SnapshotStore

/-- A context later on. While the epoch stays the same, the version does not fall. -/
structure Context.Onward (c c' : Context) : Prop where
  epoch_le : c.epoch ≤ c'.epoch
  version_le : c'.epoch = c.epoch → ∀ v, c.version? = some v → ∃ v', c'.version? = some v' ∧ v ≤ v'

namespace Context
variable {c c' c'' : Context} {v : Version} {g : Group}

theorem version?_of_reading (h : c.state = .reading v g) : c.version? = some v := by
  rw [version?, h]
  rfl

theorem version?_of_writing (h : c.state = .writing v g) : c.version? = some v := by
  rw [version?, h]
  rfl

namespace Onward

theorem refl (c : Context) : c.Onward c := ⟨Nat.le_refl _, fun _ v hv => ⟨v, hv, Nat.le_refl v⟩⟩

theorem trans (h : c.Onward c') (h' : c'.Onward c'') : c.Onward c'' where
  epoch_le := Nat.le_trans h.epoch_le h'.epoch_le
  version_le he v hv := by
    have hle := h.epoch_le
    have hle' := h'.epoch_le
    obtain ⟨v', hv', hvv'⟩ := h.version_le (by omega) v hv
    obtain ⟨v'', hv'', hv'v''⟩ := h'.version_le (by omega) v' hv'
    exact ⟨v'', hv'', Nat.le_trans hvv' hv'v''⟩

/-- A new epoch owes nothing to the versions before. -/
theorem of_epoch_lt (h : c.epoch < c'.epoch) : c.Onward c' :=
  ⟨Nat.le_of_lt h, fun he => absurd he (Nat.ne_of_gt h)⟩

theorem of_le {u : Version} (he : c'.epoch = c.epoch) (hv : c.version? = some v)
    (hu : c'.version? = some u) (hle : v ≤ u) : c.Onward c' where
  epoch_le := Nat.le_of_eq he.symm
  version_le _ _ hw := ⟨u, hu, Option.some.inj (hv.symm.trans hw) ▸ hle⟩

end Onward
end Context

namespace Connection
variable {c c' : Connection} {d : Deed}

theorem Step.onward (h : Step c d c') : c.context.Onward c'.context := by
  cases h with
  | stay | count => exact .refl _
  | beginRead | endRead | beginWrite | commit | abandon => exact .of_epoch_lt (Nat.lt_succ_self _)
  | advance reading later =>
      exact .of_le rfl (Context.version?_of_reading reading) rfl (Nat.le_of_lt later)
  | promote reading free later => exact .of_le rfl (Context.version?_of_reading reading) rfl later
  | edit e writing => exact .of_le rfl (Context.version?_of_writing writing) rfl (Nat.le_refl _)
  | commitAndRead writing commit =>
      obtain ⟨-, -, rfl, -⟩ := Store.commit_eq_ok commit
      exact .of_le rfl (Context.version?_of_writing writing) rfl (Nat.le_succ _)
  | rollbackAndRead writing =>
      exact .of_le rfl (Context.version?_of_writing writing) rfl (Nat.le_refl _)

theorem Step.nextContext (h : Step c d c') : c'.store.nextContext = c.store.nextContext := by
  cases h with
  | stay | count | edit | beginWrite => rfl
  | beginRead _ pin =>
      obtain ⟨-, -, rfl⟩ := Store.pin_eq_ok pin
      rfl
  | advance _ _ pin | rollbackAndRead _ pin =>
      obtain ⟨-, -, rfl⟩ := Store.pin_eq_ok pin
      simp
  | endRead | promote | abandon => simp
  | commit _ commit | commitAndRead _ commit =>
      obtain ⟨-, -, -, _, -, rfl⟩ := Store.commit_eq_ok commit
      simp

theorem Quiet.id (h : Quiet c c') : c'.context.id = c.context.id := by
  induction h with
  | refl => rfl
  | tail _ hs ih => exact hs.id.trans ih

theorem close_nextContext (c : Connection) : c.close.nextContext = c.store.nextContext := by
  unfold close
  split <;> simp

end Connection

namespace World
variable {settings : Settings} {w w' : World} {ch ch' : Chronicle} {n : Nat} {c c' : Context}
  {d : Deed}

theorem Step.nextContext_le (h : Step w n d w') : w.store.nextContext ≤ w'.store.nextContext := by
  cases h with
  | act live step => exact Nat.le_of_eq step.nextContext.symm
  | join => exact Nat.le_succ _
  | @leave c live => exact Nat.le_of_eq (Connection.close_nextContext ⟨w.store, c⟩).symm
  | compact => exact Nat.le_refl _

theorem Path.nextContext_le (h : Path w ch w' ch') :
    w.store.nextContext ≤ w'.store.nextContext := by
  induction h with
  | refl => exact Nat.le_refl _
  | step _ hs ih => exact Nat.le_trans ih hs.nextContext_le

/-- A context that is still there has gone onward, whoever took which steps. -/
theorem Path.onward (h : Path w ch w' ch') (hc : w.context? n = some c)
    (hid : (c.id : Nat) < w.store.nextContext) (hc' : w'.context? n = some c')
    (same : c'.id = c.id) : c.Onward c' := by
  induction h generalizing c' with
  | refl => exact Option.some.inj (hc.symm.trans hc') ▸ .refl c
  | @step w₁ w₂ ch₁ m d hpath hs ih =>
      by_cases hm : n = m
      · subst hm
        cases hs with
        | act live step =>
            rw [set_context?_self] at hc'
            obtain rfl := Option.some.inj hc'
            exact (ih live (step.id.symm.trans same)).trans step.onward
        | join vacant =>
            -- Whoever joins is given an identity that nobody had.
            rw [set_context?_self] at hc'
            obtain rfl := Option.some.inj hc'
            have hnew : c.id = w₁.store.nextContext := same.symm
            exact absurd hid (Nat.not_lt_of_le (hnew ▸ hpath.nextContext_le))
        | leave =>
            rw [set_context?_self] at hc'
            simp at hc'
        | compact => exact ih hc' same
      · exact ih (hs.context?_ne hm ▸ hc') same

/-- Quiet steps of one author are a path. -/
theorem Path.quiet {e : Connection} (hc : w.context? n = some c)
    (hq : Connection.Quiet ⟨w.store, c⟩ e) : Path w ch (w.set n e.store (some e.context)) ch := by
  induction hq with
  | refl =>
      rw [set_context w hc]
      exact .refl
  | @tail c₁ c₂ _ hs ih =>
      have hstep := Step.act (set_context?_self w n c₁.store (some c₁.context)) hs
      rw [set_set] at hstep
      exact ih.step hstep

/-- What decides whether an open read can be moved to a version. -/
theorem Reachable.advance_ok_iff (h : Reachable settings w ch) (hc : w.context? n = some c)
    (to? : Option Version) :
    (∃ a e, Connection.advance to? ⟨w.store, c⟩ = .ok a e) ↔
      ∃ u g, c.state = .reading u g ∧ u ≤ to?.getD w.store.latest ∧
        w.store.isRetained (to?.getD w.store.latest) := by
  obtain ⟨l, hexact, -⟩ := h.sound.store.exact
  have hsame : Connection.advance to? ⟨w.store, c⟩ =
      Connection.advance (some (to?.getD w.store.latest)) ⟨w.store, c⟩ := rfl
  rw [hsame]
  generalize to?.getD w.store.latest = v
  rw [Store.isRetained, NatMap.contains_eq]
  constructor
  · rintro ⟨a, e, ha⟩
    obtain ⟨g, g', hmoves, hreads⟩ := Connection.advance_run_ok ha
    obtain ⟨gv, harrives⟩ := Connection.advance_reads ha
    obtain ⟨rfl, -⟩ := TransactionState.reading.inj (hreads.symm.trans harrives)
    refine ⟨a.before, g, hmoves.leaves, ?_⟩
    rcases hmoves.log with ⟨hsame, -⟩ | ⟨changes, hchanges, -, hv⟩
    · rw [hsame]
      exact ⟨Nat.le_refl _, Option.isSome_of_eq_some (h.kept hc hmoves.leaves)⟩
    · exact ⟨Store.changesBetween_le hchanges, Option.isSome_of_eq_some hv⟩
  · rintro ⟨u, g, hreads, hle, hv⟩
    have hu := h.kept hc hreads
    obtain ⟨gv, hgv⟩ := Option.isSome_iff_exists.mp hv
    rcases Nat.lt_or_eq_of_le hle with hlt | rfl
    · obtain ⟨a, ha⟩ := Connection.advance_to_kept hexact hreads hu hlt hgv
      exact ⟨a, _, ha⟩
    · exact ⟨⟨u, u, .empty⟩, ⟨w.store, c⟩, by simp [Connection.advance, hreads]⟩

end World

namespace Connections
variable {settings : Settings} {cs cs' : Connections} {ch : Chronicle} {id : ContextId}
  {c c' : Context}

/-- Whatever can be asked of contexts that share a store: moves, and work with what others have
handed over. -/
inductive Task
  | move (m : Move)
  | takeOver (id : ContextId) (kind : PayloadKind) (e : Envelope)
  | runQuery (id : ContextId) (e : Envelope) (r : Request)
  | runBatch (id : ContextId) (items : List BatchItem)

/-- The contexts after an action of one of them, be it a success or a failure. -/
def afterAct {α : Type} (cs : Connections) (id : ContextId) (a : Action α) : Connections :=
  ((cs.act id a).map (·.2)).getD cs

def undertake (cs : Connections) : Task → Connections
  | .move m => cs.make m
  | .takeOver id kind e => cs.afterAct id (Connection.importAs kind e)
  | .runQuery id e r => cs.afterAct id (Connection.runQuery e r)
  | .runBatch id items => cs.afterAct id (Connection.runBatch items)

def undertakeAll (cs : Connections) (tasks : List Task) : Connections :=
  tasks.foldl undertake cs

theorem afterAct_path {α : Type} {a : Action α} (ha : Connection.IsQuiet a) (hk : cs.Keyed)
    (id : ContextId) : (cs.afterAct id a).Keyed ∧
      World.Path cs.world ch (cs.afterAct id a).world ch := by
  cases hc : cs.contexts.get? id with
  | none =>
      have hsame : cs.afterAct id a = cs := by simp [afterAct, act, Connections.get?, hc]
      rw [hsame]
      exact ⟨hk, .refl⟩
  | some c =>
      have hput : cs.afterAct id a = cs.put (Connection.after a ⟨cs.store, c⟩) := by
        rw [afterAct, act_eq a hc, Connection.after]
        cases a ⟨cs.store, c⟩ <;> rfl
      have hq := ha ⟨cs.store, c⟩
      rw [hput]
      refine ⟨hk.put _, ?_⟩
      rw [world_put, hq.id.trans (hk id c hc)]
      exact World.Path.quiet hc hq

theorem undertake_path (hk : cs.Keyed) (hr : World.Reachable settings cs.world ch) (t : Task) :
    (cs.undertake t).Keyed ∧ ∃ ch', World.Path cs.world ch (cs.undertake t).world ch' := by
  cases t with
  | move m => exact (make_path hk hr m).imp_right fun h => ⟨_, h⟩
  | takeOver id kind e =>
      exact (afterAct_path (Connection.importAs_isQuiet kind e) hk id).imp_right fun h => ⟨_, h⟩
  | runQuery id e r =>
      exact (afterAct_path (Connection.runQuery_isQuiet e r) hk id).imp_right fun h => ⟨_, h⟩
  | runBatch id items =>
      exact (afterAct_path (Connection.runBatch_isQuiet items) hk id).imp_right fun h => ⟨_, h⟩

theorem undertakeAll_path (hk : cs.Keyed) (hr : World.Reachable settings cs.world ch)
    (tasks : List Task) : (cs.undertakeAll tasks).Keyed ∧
      ∃ ch', World.Path cs.world ch (cs.undertakeAll tasks).world ch' := by
  induction tasks generalizing cs ch with
  | nil => exact ⟨hk, ch, .refl⟩
  | cons t tasks ih =>
      obtain ⟨hk₁, ch₁, hfirst⟩ := undertake_path hk hr t
      obtain ⟨hk₂, ch₂, hrest⟩ := ih hk₁ (hr.path hfirst)
      exact ⟨hk₂, ch₂, hfirst.trans hrest⟩

theorem act_eq_ok {α : Type} {a : Action α} {x : α} (hc : cs.contexts.get? id = some c) :
    cs.act id a = some (.ok x, cs') ↔ ∃ e, a ⟨cs.store, c⟩ = .ok x e ∧ cs' = cs.put e := by
  rw [act_eq a hc]
  cases a ⟨cs.store, c⟩ <;> simp [eq_comm, and_assoc]

theorem act_eq_error {α : Type} {a : Action α} {error : Error}
    (hc : cs.contexts.get? id = some c) : cs.act id a = some (.error error, cs') ↔
      ∃ e, a ⟨cs.store, c⟩ = .error error e ∧ cs' = cs.put e := by
  rw [act_eq a hc]
  cases a ⟨cs.store, c⟩ <;> simp [eq_comm, and_assoc]

theorem get?_of_act {α : Type} {a : Action α} {r : Except Error α}
    (h : cs.act id a = some (r, cs')) : ∃ c, cs.contexts.get? id = some c := by
  cases hc : cs.contexts.get? id with
  | none => simp [act, Connections.get?, hc] at h
  | some c => exact ⟨c, rfl⟩

/-- Versions go one way only. -/
structure Steady (cs : Connections) : Prop where
  /-- Whatever comes next, while the epoch of a context stays the same its version does not fall. -/
  onward : ∀ tasks id c c', cs.contexts.get? id = some c →
    (cs.undertakeAll tasks).contexts.get? id = some c' → c.Onward c'
  /-- A read can be moved to a kept version that is not before its own. -/
  advances : ∀ id c to?, cs.contexts.get? id = some c →
    ((∃ a cs', cs.act id (Connection.advance to?) = some (.ok a, cs')) ↔
      ∃ u g, c.state = .reading u g ∧ u ≤ to?.getD cs.store.latest ∧
        cs.store.isRetained (to?.getD cs.store.latest))
  arrives : ∀ id to? a cs', cs.act id (Connection.advance to?) = some (.ok a, cs') →
    ∃ c' g, cs'.contexts.get? id = some c' ∧ c'.state = .reading (to?.getD cs.store.latest) g
  /-- Where a read cannot be moved, contexts and store stay as they are. -/
  refused : ∀ id to? e cs', cs.act id (Connection.advance to?) = some (.error e, cs') → cs' = cs

theorem steady_of_reachable (hk : cs.Keyed) (hr : World.Reachable settings cs.world ch) :
    cs.Steady := by
  refine ⟨fun tasks id c c' hc hc' => ?_, fun id c to? hc => ?_, fun id to? a cs' ha => ?_,
    fun id to? e cs' he => ?_⟩
  · obtain ⟨hk', ch', hpath⟩ := undertakeAll_path hk hr tasks
    exact hpath.onward hc (hr.sound.ids id c hc) hc' ((hk' id c' hc').trans (hk id c hc).symm)
  · refine Iff.trans ?_ (hr.advance_ok_iff hc to?)
    simp only [act_eq_ok hc]
    exact exists_congr fun a => exists_comm.trans (exists_congr fun e =>
      ⟨fun ⟨_, h, _⟩ => h, fun h => ⟨_, h, rfl⟩⟩)
  · obtain ⟨c, hc⟩ := get?_of_act ha
    obtain ⟨e, he, rfl⟩ := (act_eq_ok hc).mp ha
    obtain ⟨g, hreads⟩ := Connection.advance_reads (v := to?.getD cs.store.latest) he
    have hid : e.context.id = id :=
      ((Connection.advance_does to?).ok he).id.trans (hk id c hc)
    exact ⟨e.context, g, hid ▸ NatMap.get?_insert_self .., hreads⟩
  · obtain ⟨c, hc⟩ := get?_of_act he
    obtain ⟨_, herror, rfl⟩ := (act_eq_error hc).mp he
    obtain rfl := Connection.advance_error herror
    exact congrArg (Connections.mk cs.store) (hk id c hc ▸ NatMap.insert_of_get? hc)

/-- However contexts come, go and take turns, versions go one way only. -/
theorem versions_never_move_back {name : String} {s : Store}
    (h : Store.openNew name settings = .ok s) (tasks : List Task) :
    ((Connections.new s).undertakeAll tasks).Steady := by
  have hk : (Connections.new s).Keyed := fun id c hc => by simp [new] at hc
  have hr : World.Reachable settings (Connections.new s).world .opened := .opened h
  obtain ⟨hkeyed, ch, hpath⟩ := undertakeAll_path hk hr tasks
  exact steady_of_reachable hkeyed (hr.path hpath)

/-- A context promotes its read past the commit of another, gives the write up and goes on reading
what it was based on. -/
theorem versions_never_move_back_on_rollback : ∃ cs c c', Steady cs ∧
    cs.contexts.get? 1 = some c ∧ c.state = .reading 1 .empty ∧
    (cs.undertakeAll [.move (.transact 1 .promote), .move (.edit 1 (.addTable "b")),
      .move (.transact 1 .rollbackAndRead)]).contexts.get? 1 = some c' ∧
    c'.epoch = c.epoch ∧ c'.version? = some 2 ∧ c.Onward c' := by
  have ho : Store.openNew "store" {} = .ok _ := rfl
  have h := versions_never_move_back ho [.move .connect, .move .connect,
    .move (.transact 1 (.beginRead none)), .move (.transact 2 .beginWrite),
    .move (.edit 2 (.addTable "a")), .move (.transact 2 .commit)]
  refine ⟨_, _, _, h, rfl, rfl, rfl, rfl, rfl, ?_⟩
  exact h.onward [.move (.transact 1 .promote), .move (.edit 1 (.addTable "b")),
    .move (.transact 1 .rollbackAndRead)] 1 _ _ rfl rfl

end Connections
end SnapshotStore
