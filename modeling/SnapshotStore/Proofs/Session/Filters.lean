import SnapshotStore.Proofs.Query.Filters
import SnapshotStore.Proofs.Session.Reshaping

/-!
Queries that stay under their handles. The only call that changes such a query is one that puts a
filter on it, if the session accepts the filter; whatever else a session does, the query is either
let go of or as it was.
-/

namespace SnapshotStore

namespace Arena
variable {α : Type} {a a' : Arena α} {x : α} {raw : UInt64} {kind : HandleKind}

/-- What stands under a handle before and after is the same. -/
def Retains (a a' : Arena α) : Prop :=
  ∀ raw x x', a.get raw = .ok x → a'.get raw = .ok x' → x' = x

theorem Retains.refl (a : Arena α) : a.Retains a :=
  fun _ _ _ hx hx' => Except.ok.inj (hx'.symm.trans hx)

theorem remove_retains (hr : a.remove raw = .ok (x, a')) : a.Retains a' :=
  fun _ _ _ hx hx' => Except.ok.inj (((remove_get_iff hr).mp hx').2.symm.trans hx)

theorem Stocks.insert_retains (h : a.Stocks kind) (x : α) : a.Retains (a.insert x).2 :=
  fun _ _ _ hy hy' => Except.ok.inj (hy'.symm.trans (h.insert_get_of_get x hy))

end Arena

namespace Workspace
variable {α β : Type} {w w' : Workspace} {a : Work α} {raw : UInt64} {x x' : Bound Query}

/-- The work leaves all queries of the session as they are. -/
def Still (a : Work α) : Prop := ∀ w : Workspace, (after a w).session.queries = w.session.queries

/-- The work changes no query in its place. -/
def Retaining (a : Work α) : Prop := ∀ w : Workspace, w.session.queries.Stocks .query →
  w.session.queries.Retains (after a w).session.queries

namespace Still

theorem ok (h : Still a) {y : α} (hy : a w = .ok y w') : w'.session.queries = w.session.queries :=
  after_ok hy ▸ h w

theorem error (h : Still a) {e : Error} (he : a w = .error e w') :
    w'.session.queries = w.session.queries := after_error he ▸ h w

theorem retaining (h : Still a) : Retaining a := fun w _ => by
  rw [h w]
  exact .refl _

theorem pure (y : α) : Still (pure y : Work α) := fun _ => rfl

theorem bind {f : α → Work β} (h : Still a) (hf : ∀ y, Still (f y)) : Still (a >>= f) := by
  intro w
  cases hy : a w with
  | ok y w' =>
      rw [after_bind_ok hy]
      exact (hf y w').trans (h.ok hy)
  | error e w' =>
      rw [after_bind_error hy]
      exact h.error hy

theorem mapM {f : α → Work β} (hf : ∀ y, Still (f y)) (ys : List α) : Still (ys.mapM f) := by
  induction ys with
  | nil => exact .pure _
  | cons y ys ih =>
      rw [List.mapM_cons]
      exact (hf y).bind fun _ => ih.bind fun _ => .pure _

theorem forward : Still forward := fun _ => rfl

theorem act (f : Action α) : Still (act f) := by
  intro w
  unfold Workspace.act after
  dsimp only
  cases f w.connection <;> rfl

theorem pass (r : Except Error α) : Still (pass r) := by
  intro w
  cases r <;> rfl

theorem attempt {f : Workspace → Except Error (α × Workspace)}
    (h : ∀ w y w', f w = .ok (y, w') → w'.session.queries = w.session.queries) :
    Still (attempt f) := by
  intro w
  unfold Workspace.attempt after
  dsimp only
  cases hf : f w with
  | ok r => exact h w r.1 r.2 hf
  | error e => rfl

theorem release {kind : HandleKind} (hkind : kind ≠ .query) (h : UInt64) :
    Still (release kind h) := by
  refine .attempt fun w y w' hr => ?_
  cases kind with
  | query => exact absurd rfl hkind
  | table | row | view | linkList | envelope =>
      obtain ⟨_, -, he⟩ := map_eq_ok.mp hr
      obtain ⟨-, rfl⟩ := Prod.mk.inj he
      rfl

theorem takeEnvelope (kind : PayloadKind) (h : UInt64) : Still (takeEnvelope kind h) := by
  refine .attempt fun w y w' ht => ?_
  obtain ⟨_, -, he⟩ := map_eq_ok.mp ht
  obtain ⟨-, rfl⟩ := Prod.mk.inj he
  rfl

theorem takeEnvelopes (hs : List UInt64) : Still (takeEnvelopes hs) := by
  refine .attempt fun w y w' ht => ?_
  obtain ⟨_, -, he⟩ := map_eq_ok.mp ht
  obtain ⟨-, rfl⟩ := Prod.mk.inj he
  rfl

theorem setView (h : UInt64) (v : View) : Still (setView h v) := by
  refine .attempt fun w y w' hr => ?_
  obtain ⟨_, -, he⟩ := map_eq_ok.mp hr
  obtain ⟨-, rfl⟩ := Prod.mk.inj he
  rfl

theorem register (e : Envelope) : Still (register e) := fun _ => rfl

theorem keep {item : Item} (hitem : ∀ q, item ≠ .query q) : Still (keep item) := by
  intro w
  cases item with
  | query q => exact absurd rfl (hitem q)
  | table | row | view | list => rfl

theorem handOver (r : Response) : Still (handOver r) := by
  cases r with
  | row e? =>
      cases e? with
      | none => exact .pure _
      | some e => exact (Still.register e).bind fun _ => .pure _
  | view e => exact (Still.register e).bind fun _ => .pure _
  | count | value => exact .pure _

end Still

namespace Retaining

/-- It is enough that one part of the work keeps the queries, and the others leave them alone. -/
theorem before {f : α → Work β} (h : Still a) (hf : ∀ y, Retaining (f y)) :
    Retaining (a >>= f) := by
  intro w hw
  cases hy : a w with
  | ok y w' =>
      have hsame := h.ok hy
      rw [after_bind_ok hy, ← hsame]
      exact hf y w' (hsame ▸ hw)
  | error e w' =>
      rw [after_bind_error hy, h.error hy]
      exact .refl _

theorem bind {f : α → Work β} (h : Retaining a) (hf : ∀ y, Still (f y)) : Retaining (a >>= f) := by
  intro w hw
  have hretains := h w hw
  cases hy : a w with
  | ok y w' =>
      rw [after_bind_ok hy, hf y w', ← after_ok hy]
      exact hretains
  | error e w' =>
      rw [after_bind_error hy, ← after_error hy]
      exact hretains

theorem release (kind : HandleKind) (h : UInt64) : Retaining (release kind h) := by
  cases kind with
  | query =>
      intro w _
      unfold Workspace.release attempt after
      dsimp only
      cases hr : w.session.queries.remove h with
      | ok r => exact Arena.remove_retains hr
      | error e => exact .refl _
  | table | row | view | linkList | envelope => exact (Still.release (by nofun) h).retaining

theorem keep (item : Item) : Retaining (keep item) := by
  cases item with
  | query q => exact fun w hw => hw.insert_retains _
  | table | row | view | list => exact (Still.keep (by nofun)).retaining

end Retaining

/-- Of all operations only the one that is there for it changes a query in its place. -/
theorem perform_retaining {operation : Operation} (ho : ∀ h q, operation ≠ .replaceQuery h q) :
    Retaining operation.perform := by
  cases operation with
  | answer reply => exact (Still.pure _).retaining
  | release kind h => exact (Retaining.release kind h).bind fun _ => .pure _
  | transact t =>
      exact (Still.forward.bind fun _ => (Still.act _).bind fun _ => .pure _).retaining
  | read result =>
      exact (Still.forward.bind fun _ => (Still.pass _).bind fun _ => .pure _).retaining
  | edit e =>
      refine (Still.forward.bind fun _ => (Still.act _).bind fun made => ?_).retaining
      cases made <;> exact .pure _
  | createTable name =>
      refine .before .forward fun _ => .before (.act _) fun made => ?_
      cases made with
      | some key => exact (Retaining.keep _).bind fun _ => .pure _
      | none => exact (Still.pure _).retaining
  | keep found =>
      exact .before .forward fun _ => .before (.pass _) fun item =>
        (Retaining.keep item).bind fun _ => .pure _
  | replaceQuery h q => exact absurd rfl (ho h q)
  | replaceView h outcome v =>
      exact (Still.forward.bind fun _ => (Still.setView h v).bind fun _ =>
        (Still.pass outcome).bind fun _ => .pure _).retaining
  | enclose kind h p policy =>
      refine .before .forward fun _ => .before (.act _) fun e => ?_
      have hregister : Still (do return ⟨.handle (← register e), none⟩ : Work Outcome) :=
        (Still.register e).bind fun _ => .pure _
      split
      · exact (Retaining.release _ h).bind fun _ => hregister
      · exact hregister.retaining
  | takeOver kind h =>
      exact .before (.takeEnvelope kind h) fun _ => .before .forward fun _ =>
        .before (.act _) fun p => (Retaining.keep _).bind fun _ => .pure _
  | run h request =>
      rw [Operation.perform_run]
      exact Still.retaining <| .bind (.takeEnvelope _ h) fun _ => .bind .forward fun _ =>
        .bind (.act _) fun r => .bind (.handOver r.2) fun _ => .pure _
  | runBatch requests =>
      exact Still.retaining <| .bind (.takeEnvelopes _) fun _ => .bind .forward fun _ =>
        .bind (.act _) fun r => .bind (.mapM .handOver r.2) fun _ => .pure _

/-! Filters -/

theorem setQuery_run {queries : Arena (Bound Query)} {h : UInt64} {q : Query}
    (hm : (w.session.queries.modify h fun b => { b with object := q }) = .ok queries) :
    setQuery h q w = .ok () { w with session := { w.session with queries } } := by
  simp only [setQuery, attempt, hm, Except.map]

/-- A filter that passes the check goes into the query of its handle. -/
theorem queryFilter_filters {q : Query} {t : Table} {p : Predicate}
    (found : w.session.query raw = .ok (q, t)) (hcheck : (q.filter p).check t = .ok ()) :
    ∃ queries, (w.session.queries.modify raw fun b => { b with object := q.filter p }) =
        .ok queries ∧
      call (.queryFilter raw p) w = .ok ⟨.nothing, none⟩
        { w.counted with session := { w.session with queries } } := by
  obtain ⟨b, hl, -, -⟩ := Session.lookUp_eq_ok found
  obtain ⟨queries, hm⟩ := Arena.modify_of_get hl fun b => { b with object := q.filter p }
  have hplan : w.session.plan (.queryFilter raw p) = .ok (.replaceQuery raw (q.filter p)) :=
    bind_eq_ok.mpr ⟨(q, t), found, bind_eq_ok.mpr ⟨(), hcheck, rfl⟩⟩
  refine ⟨_, hm, call_ok_iff.mpr ⟨_, hplan, ?_⟩⟩
  rw [Operation.perform, forward_bind, bind_of_ok (setQuery_run (w := w.counted) hm)]
  rfl

/-- What a call makes of a query that stands under a handle before and after. -/
theorem call_filters (hw : w.Stocked) (c : Call) (hx : w.session.queries.get raw = .ok x)
    (hx' : (after (call c) w).session.queries.get raw = .ok x') :
    (∃ p out w', c = .queryFilter raw p ∧ call c w = .ok out w' ∧
      x'.object = x.object.filter p) ∨
    (x' = x ∧ ∀ p, c = .queryFilter raw p → ∃ e w', call c w = .error e w') := by
  cases hplan : w.session.plan c with
  | error e =>
      have hcall : call c w = .error e w := by simp only [call, hplan]
      rw [after_error hcall] at hx'
      exact .inr ⟨Except.ok.inj (hx'.symm.trans hx), fun _ _ => ⟨e, w, hcall⟩⟩
  | ok operation =>
      by_cases hreplaces : ∃ h q, operation = .replaceQuery h q
      · obtain ⟨h, q', rfl⟩ := hreplaces
        obtain ⟨p, rfl⟩ := Session.plan_eq_replaceQuery hplan
        obtain ⟨⟨q, t⟩, found, hplan⟩ := bind_eq_ok.mp hplan
        obtain ⟨_, hcheck, -⟩ := bind_eq_ok.mp hplan
        obtain ⟨queries, hm, hcall⟩ := queryFilter_filters found hcheck
        obtain ⟨⟨y, hy, hy'⟩, hothers⟩ := hw.queries.modify_get hm
        rw [after_ok hcall] at hx'
        by_cases hsame : raw = h
        · subst hsame
          obtain ⟨b, hl, rfl, -⟩ := Session.lookUp_eq_ok found
          obtain rfl := Except.ok.inj (hx.symm.trans hl)
          obtain rfl := Except.ok.inj (hx'.symm.trans hy')
          exact .inl ⟨p, _, _, rfl, hcall, rfl⟩
        · have hold := (hothers raw x' hsame).mp hx'
          refine .inr ⟨Except.ok.inj (hold.symm.trans hx), fun p' hp' => ?_⟩
          exact absurd (Call.queryFilter.inj hp').1.symm hsame
      · have hretains := perform_retaining (fun h q he => hreplaces ⟨h, q, he⟩) w hw.queries
        rw [after_call_of_plan hplan] at hx'
        refine .inr ⟨hretains raw x x' hx hx', ?_⟩
        rintro p rfl
        obtain ⟨found, -, hplan⟩ := bind_eq_ok.mp hplan
        obtain ⟨_, -, hplan⟩ := bind_eq_ok.mp hplan
        exact absurd ⟨_, _, (pure_eq_ok.mp hplan).symm⟩ hreplaces

/-- The query of all rows of a table is put under the handle that is answered. -/
theorem call_whereTable (hw : w.Stocked) {h : UInt64} {out : Outcome}
    (hc : call (.whereTable h) w = .ok out w') : ∃ t slot g b, w.session.table h = .ok t ∧
      out.reply = .handle (Handle.ofParts .query slot g).encode ∧
      w'.session.queries.live? slot = some (g, b) ∧ b.object = .ofTable t := by
  obtain ⟨operation, hplan, hp⟩ := call_ok_iff.mp hc
  obtain ⟨t, ht, hplan⟩ := bind_eq_ok.mp hplan
  obtain rfl := pure_eq_ok.mp hplan
  simp only [Operation.perform, bind_run_ok, pure_run_ok, forward_run_ok, pass_run_ok] at hp
  obtain ⟨-, _, rfl, item, _, ⟨hitem, rfl⟩, raw, _, hk, rfl, rfl⟩ := hp
  obtain rfl := Except.ok.inj hitem
  obtain ⟨rfl, rfl⟩ := EStateM.Result.ok.inj hk
  refine ⟨t, w.session.queries.vacancy, w.session.queries.generation w.session.queries.vacancy,
    ⟨.ofTable t, w.session.context.epoch⟩, ht, ?_,
    (Arena.insert_live? hw.queries.tidy _ _).trans (if_pos rfl), rfl⟩
  rw [← hw.queries.kind]
  exact congrArg Reply.handle (Arena.insert_handle w.session.queries _)

end Workspace
end SnapshotStore
