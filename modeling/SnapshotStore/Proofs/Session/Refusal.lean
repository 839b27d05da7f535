import SnapshotStore.Proofs.Connection.Refusal
import SnapshotStore.Proofs.Session.Envelopes
import SnapshotStore.Proofs.View

/-!
Calls that fail. Whatever a call was going to do to the session, to the store or to the registry, it
has not done when it fails; only the sync of a view may have begun with its work, and so may a sort
that panics.
-/

namespace SnapshotStore

/-- An object that is changed into itself leaves the arena as it is. -/
theorem Arena.modify_same {α : Type} {a : Arena α} {raw : UInt64} {x : α} {f : α → α}
    (h : a.get raw = .ok x) (hf : f x = x) : a.modify raw f = .ok a := by
  obtain ⟨k, hk⟩ := get_eq_ok.mp h
  have hslot := live?_eq_some.mp hk.live
  have hslots : a.slots.modify k.slot (fun s => { s with object? := some x }) = a.slots := by
    refine List.ext_getElem? fun i => ?_
    rw [List.getElem?_modify]
    split
    next hi =>
      subst hi
      simp [hslot]
    next => simp
  rw [hk.modify, hf, put, hslots]

/-- The call is about objects that were handed over. -/
def Call.isHandover : Call → Bool
  | importObject .. | run .. | runBatch .. => true
  | _ => false

/-- The call works on a view in its place and may break off in the middle of that. -/
def Call.worksInPlace : Call → Bool
  | viewSort .. | viewSync _ => true
  | _ => false

/-- If the operation fails, the view that it puts in a place is the one that was there. Operations
that take envelopes are left out. -/
def Operation.Restores (s : Session) : Operation → Prop
  | replaceView h outcome v => ∀ e, outcome = .error e → ∃ t, s.view h = .ok (v, t)
  | takeOver .. | run .. | runBatch .. => False
  | _ => True

namespace Workspace

/-- All but the views is as it was, apart from the count of the calls that reached the store and
from the marks in a working copy. -/
structure Stands (w w' : Workspace) : Prop where
  store : w'.database.store = w.database.store ∨
    w'.database.store = w.database.store.recordCall
  envelopes : w'.database.envelopes = w.database.envelopes
  context : w.session.context.Alike w'.session.context
  tables : w'.session.tables = w.session.tables
  rows : w'.session.rows = w.session.rows
  queries : w'.session.queries = w.session.queries
  lists : w'.session.lists = w.session.lists

def withViews (w : Workspace) (views : Arena (Bound View)) : Workspace :=
  { w with session := { w.session with views } }

variable {w w' : Workspace} {e : Error} {h : UInt64} {v : View}

theorem Stands.refl (w : Workspace) : w.Stands w where
  store := .inl rfl
  envelopes := rfl
  context := .refl _
  tables := rfl
  rows := rfl
  queries := rfl
  lists := rfl

theorem counted_stands (w : Workspace) : w.Stands w.counted :=
  { Stands.refl w with store := .inr rfl }

theorem Stands.withViews (h : w.Stands w') (views : Arena (Bound View)) :
    w.Stands (w'.withViews views) := { h with }

theorem pass_run_error {α : Type} {r : Except Error α} :
    pass r w = .error e w' ↔ r = .error e ∧ w = w' := by
  cases r <;> simp [pass]

theorem setView_run {views : Arena (Bound View)}
    (hm : (w.session.views.modify h fun b => { b with object := v }) = .ok views) :
    setView h v w = .ok () (w.withViews views) := by
  simp only [setView, attempt, hm, Except.map]
  rfl

/-- A good handle of a view takes another view. -/
theorem setView_of_view {u : View} {t : Table} (hv : w.session.view h = .ok (u, t)) (v : View) :
    ∃ views, (w.session.views.modify h fun b => { b with object := v }) = .ok views := by
  obtain ⟨b, hl, -, -⟩ := Session.lookUp_eq_ok hv
  exact Arena.modify_of_get hl _

theorem modify_view_same {t : Table} (hv : w.session.view h = .ok (v, t)) :
    (w.session.views.modify h fun b => { b with object := v }) = .ok w.session.views := by
  obtain ⟨b, hl, rfl, -⟩ := Session.lookUp_eq_ok hv
  exact Arena.modify_same hl rfl

end Workspace

namespace Operation
variable {w w' : Workspace} {e : Error} {h : UInt64} {v : View}

open Workspace in
theorem replaceView_run_error {views : Arena (Bound View)}
    (hm : (w.session.views.modify h fun b => { b with object := v }) = .ok views) :
    (replaceView h (.error e) v).perform w = .error e (w.counted.withViews views) := by
  rw [perform, forward_bind,
    bind_of_ok (setView_run (w := w.counted) hm), bind_of_error (pass_run_error.mpr ⟨rfl, rfl⟩)]

open Workspace in
theorem replaceView_run_ok {views : Arena (Bound View)}
    (hm : (w.session.views.modify h fun b => { b with object := v }) = .ok views) :
    (replaceView h (.ok ()) v).perform w = .ok ⟨.nothing, none⟩ (w.counted.withViews views) := by
  rw [perform, forward_bind, bind_of_ok (setView_run (w := w.counted) hm)]
  rfl

theorem edit_error_stands {x : Edit} {c : Connection}
    (hc : Connection.edit x w.counted.connection = .error e c) :
    w.Stands (w.counted.withConnection c) := by
  obtain ⟨hstore, hcontext⟩ := Connection.edit_error hc
  exact { w.counted_stands with store := .inr hstore, context := hcontext }

open Workspace in
/-- An export fails before it lets go of anything. -/
theorem enclose_error_stands {kind : PayloadKind} {p : Payload} {policy : HandoverPolicy}
    (hp : (enclose kind h p policy).perform w = .error e w') : w' = w.counted := by
  simp only [perform, forward_bind, bind_run_error, act_run_error, act_run_ok,
    Connection.ask_run_ok, Connection.ask_run_error] at hp
  obtain ⟨_, ⟨-, rfl⟩, rfl⟩ | ⟨env, _, ⟨_, ⟨-, rfl⟩, rfl⟩, hp⟩ := hp
  · rfl
  · split at hp
    · simp only [bind_run_error, register_run_error, pure_run_error, and_false, exists_false,
        or_false] at hp
      obtain ⟨-, rfl⟩ := attempt_run_error.mp hp
      rfl
    · exact absurd (map_run_error.mp hp) register_run_error

open Workspace in
/-- An operation that fails has changed nothing, if it restores the view that it was to replace. -/
theorem perform_error_stands {operation : Operation} (hr : operation.Restores w.session)
    (hpublish : w.connection.Publishable) (hp : operation.perform w = .error e w') :
    w.Stands w' ∧ w'.session.views = w.session.views := by
  cases operation with
  | answer reply => exact absurd hp pure_run_error
  | release kind h =>
      obtain ⟨-, rfl⟩ := attempt_run_error.mp (map_run_error.mp hp)
      exact ⟨.refl w, rfl⟩
  | transact t =>
      simp only [perform, forward_bind, map_run_error, act_run_error] at hp
      obtain ⟨c, hc, rfl⟩ := hp
      have hcounted : w.counted.connection.Publishable := hpublish
      obtain rfl := Connection.perform_error hcounted hc
      exact ⟨w.counted_stands, rfl⟩
  | read result =>
      simp only [perform, forward_bind, map_run_error, pass_run_error] at hp
      obtain ⟨-, rfl⟩ := hp
      exact ⟨w.counted_stands, rfl⟩
  | edit x =>
      simp only [perform, forward_bind, bind_run_error, act_run_error] at hp
      obtain ⟨c, hc, rfl⟩ | ⟨made, _, -, hp⟩ := hp
      · exact ⟨edit_error_stands hc, rfl⟩
      · cases made <;> exact absurd hp pure_run_error
  | createTable name =>
      simp only [perform, forward_bind, bind_run_error, act_run_error] at hp
      obtain ⟨c, hc, rfl⟩ | ⟨made, _, -, hp⟩ := hp
      · exact ⟨edit_error_stands hc, rfl⟩
      · cases made with
        | none => exact absurd hp pure_run_error
        | some key => exact absurd (map_run_error.mp hp) keep_run_error
  | keep found =>
      simp only [perform, forward_bind, bind_run_error, pure_run_error, pass_run_error,
        keep_run_error, and_false, exists_false, or_false] at hp
      obtain ⟨-, rfl⟩ := hp
      exact ⟨w.counted_stands, rfl⟩
  | replaceQuery h q =>
      simp only [perform, setQuery, forward_bind, map_run_error, attempt_run_error] at hp
      obtain ⟨-, rfl⟩ := hp
      exact ⟨w.counted_stands, rfl⟩
  | replaceView h outcome v =>
      cases outcome with
      | ok u =>
          simp only [perform, setView, forward_bind, bind_run_error, pure_run_error,
            attempt_run_error, pass_run_error, reduceCtorEq, false_and, and_false, exists_false,
            or_false] at hp
          obtain ⟨-, rfl⟩ := hp
          exact ⟨w.counted_stands, rfl⟩
      | error e' =>
          -- The view goes in before the failure comes out.
          obtain ⟨t, hv⟩ := hr e' rfl
          have hrun := replaceView_run_error (e := e') (modify_view_same hv)
          obtain ⟨-, rfl⟩ := EStateM.Result.error.inj (hrun.symm.trans hp)
          exact ⟨w.counted_stands.withViews _, rfl⟩
  | enclose kind h p policy =>
      obtain rfl := enclose_error_stands hp
      exact ⟨w.counted_stands, rfl⟩
  | takeOver kind h | run h request | runBatch requests => exact hr.elim

end Operation

namespace Session
variable {s : Session} {h : UInt64}

theorem restores_of_form {operation : Operation} {form : Operation.Form}
    (ho : operation.form = form) (hform : match form with
      | .replaceView | .takeOver | .run | .runBatch => False
      | _ => True) : operation.Restores s := by
  subst ho
  cases operation <;> trivial

theorem view_attached {v : View} {t : Table} (hv : s.view h = .ok (v, t)) :
    v.isAttached t = true := by
  obtain ⟨b, -, rfl, hr⟩ := lookUp_eq_ok hv
  obtain ⟨-, -, g, -, -, hsuits⟩ := Bound.resolve_eq_ok hr
  exact hsuits

theorem plan_viewSync {v : View} {t : Table} (hv : s.view h = .ok (v, t)) :
    s.plan (.viewSync h) = .ok (.replaceView h (v.sync t).1 (v.sync t).2) :=
  bind_eq_ok.mpr ⟨(v, t), hv, rfl⟩

theorem plan_viewSort {v : View} {t : Table} {keys : List (Int × Bool)} {sorting : List SortKey}
    (hv : s.view h = .ok (v, t)) (hkeys : Request.checkKeys t keys = .ok sorting) (d : Disorder) :
    s.plan (.viewSort h keys d) =
      .ok (.replaceView h (v.sort t sorting d).1 (v.sort t sorting d).2) :=
  bind_eq_ok.mpr ⟨(v, t), hv, bind_eq_ok.mpr ⟨sorting, hkeys, rfl⟩⟩

theorem plan_viewSort_eq_ok {keys : List (Int × Bool)} {d : Disorder} {operation : Operation}
    (hplan : s.plan (.viewSort h keys d) = .ok operation) : ∃ v t sorting,
      s.view h = .ok (v, t) ∧ Request.checkKeys t keys = .ok sorting ∧
      operation = .replaceView h (v.sort t sorting d).1 (v.sort t sorting d).2 := by
  obtain ⟨⟨v, t⟩, hv, hrest⟩ := bind_eq_ok.mp hplan
  obtain ⟨sorting, hkeys, -⟩ := bind_eq_ok.mp hrest
  exact ⟨v, t, sorting, hv, hkeys,
    (Except.ok.inj ((plan_viewSort hv hkeys d).symm.trans hplan)).symm⟩

/-- A view that cannot be thinned out is put back as it was. -/
theorem plan_viewDistinct_eq_ok {column : Int} {operation : Operation}
    (hplan : s.plan (.viewDistinct h column) = .ok operation) : ∃ v t i outcome v',
      s.view h = .ok (v, t) ∧ operation = .replaceView h outcome v' ∧
      (v.distinct t i = .ok v' ∧ outcome = .ok () ∨ v' = v) := by
  obtain ⟨⟨v, t⟩, hv, hplan⟩ := bind_eq_ok.mp hplan
  obtain ⟨i, -, hplan⟩ := bind_eq_ok.mp hplan
  obtain ⟨_, -, hplan⟩ := bind_eq_ok.mp hplan
  cases hthin : v.distinct t i with
  | ok v' =>
      simp only [hthin] at hplan
      exact ⟨v, t, i, _, v', hv, (pure_eq_ok.mp hplan).symm, .inl ⟨hthin, rfl⟩⟩
  | error e =>
      simp only [hthin] at hplan
      exact ⟨v, t, i, _, v, hv, (pure_eq_ok.mp hplan).symm, .inr rfl⟩

/-- Calls but for those that work on a view in its place come to operations that restore what they
were to replace. -/
theorem plan_restores {c : Call} (hc : c.isHandover = false) (hwhole : c.worksInPlace = false) :
    Yields (Operation.Restores s) (s.plan c) := by
  cases c with
  | importObject kind h | run h request | runBatch requests => simp [Call.isHandover] at hc
  | viewSync h | viewSort h keys d => simp [Call.worksInPlace] at hwhole
  | viewDistinct h column =>
      intro operation hplan
      obtain ⟨v, t, i, outcome, v', hv, rfl, ⟨-, rfl⟩ | rfl⟩ := plan_viewDistinct_eq_ok hplan
      · exact fun _ he => nomatch he
      · exact fun _ _ => ⟨t, hv⟩
  | _ => exact plan_yields_of_form fun _ ho => restores_of_form ho trivial

/-- The views after a call that has broken off in the middle of its work on one of them: the sync of
a view that it tears, or a sort that panics, which leaves the rows in an order of its own. -/
def Tears (s : Session) (views : Arena (Bound View)) : Call → Prop
  | .viewSync h => ∃ v t v', s.view h = .ok (v, t) ∧ v.Torn t v' ∧
    (s.views.modify h fun b => { b with object := v' }) = .ok views
  | .viewSort h keys d => ∃ v t sorting reason, s.view h = .ok (v, t) ∧
    Request.checkKeys t keys = .ok sorting ∧ v.Panics t sorting d reason ∧
    (s.views.modify h fun b => { b with object := { v with rows := d.arrange v.rows } }) = .ok views
  | _ => False

end Session

namespace Workspace
variable {w w' : Workspace} {c : Call} {e : Error} {h : UInt64}

theorem replaceView_eq_error {u v : View} {t : Table} {outcome : Except Error Unit}
    (hv : w.session.view h = .ok (u, t))
    (hp : (Operation.replaceView h outcome v).perform w = .error e w') : outcome = .error e ∧
      ∃ views, (w.session.views.modify h fun b => { b with object := v }) = .ok views ∧
        w' = w.counted.withViews views := by
  obtain ⟨views, hviews⟩ := setView_of_view hv v
  cases outcome with
  | ok u => exact nomatch (Operation.replaceView_run_ok hviews).symm.trans hp
  | error e' =>
      have hrun := Operation.replaceView_run_error (e := e') hviews
      obtain ⟨rfl, rfl⟩ := EStateM.Result.error.inj (hrun.symm.trans hp)
      exact ⟨rfl, views, hviews, rfl⟩

/-- The sync of a view that fails leaves the views as they were, unless it tears its own. -/
theorem viewSync_error_stands {v : View} {t : Table} (hv : w.session.view h = .ok (v, t))
    (hp : (Operation.replaceView h (v.sync t).1 (v.sync t).2).perform w = .error e w') :
    w.Stands w' ∧ (∀ views, w.session.Tears views (.viewSync h) → w'.session.views = views) ∧
      ((∀ views, ¬w.session.Tears views (.viewSync h)) →
        w'.session.views = w.session.views) := by
  obtain ⟨hsync, views, hviews, rfl⟩ := replaceView_eq_error hv hp
  refine ⟨w.counted_stands.withViews views, fun views' htears => ?_, fun hnone => ?_⟩
  · obtain ⟨v', t', v'', hv', htorn, hviews'⟩ := htears
    obtain ⟨rfl, rfl⟩ := Prod.mk.inj (Except.ok.inj (hv.symm.trans hv'))
    rcases View.sync_error (Session.view_attached hv) hsync with ⟨-, hwhole⟩ | htorn'
    · exact absurd htorn (hwhole v'')
    · rw [htorn'.unique htorn] at hviews
      exact Except.ok.inj (hviews.symm.trans hviews')
  · rcases View.sync_error (Session.view_attached hv) hsync with ⟨hsame, -⟩ | htorn
    · rw [hsame] at hviews
      exact Except.ok.inj (hviews.symm.trans (modify_view_same hv))
    · exact absurd ⟨v, t, _, hv, htorn, hviews⟩ (hnone views)

/-- A sort that gets past its checks can fail only by a panic. -/
theorem viewSort_error_stands {v : View} {t : Table} {keys : List (Int × Bool)}
    {sorting : List SortKey} {d : Disorder} (hv : w.session.view h = .ok (v, t))
    (hkeys : Request.checkKeys t keys = .ok sorting)
    (hp : (Operation.replaceView h (v.sort t sorting d).1 (v.sort t sorting d).2).perform w =
      .error e w') :
    w.Stands w' ∧ (∀ views, w.session.Tears views (.viewSort h keys d) →
        w'.session.views = views) ∧
      ((∀ views, ¬w.session.Tears views (.viewSort h keys d)) →
        w'.session.views = w.session.views) := by
  obtain ⟨hsort, views, hviews, rfl⟩ := replaceView_eq_error hv hp
  have hcheck := View.checkAttached_of_attached (Session.view_attached hv)
  obtain ⟨he, -⟩ | ⟨reason, -, hpanics, hbroken⟩ := View.sort_eq_error hsort
  · exact nomatch hcheck.symm.trans he
  rw [hbroken] at hviews
  refine ⟨w.counted_stands.withViews views, fun views' htears => ?_, fun hnone => ?_⟩
  · obtain ⟨v', t', _, _, hv', -, -, hviews'⟩ := htears
    obtain ⟨rfl, rfl⟩ := Prod.mk.inj (Except.ok.inj (hv.symm.trans hv'))
    exact Except.ok.inj (hviews.symm.trans hviews')
  · exact absurd ⟨v, t, sorting, reason, hv, hkeys, hpanics, hviews⟩ (hnone views)

/-- A call that fails, other than one about what was handed over, leaves everything as it was, but
for a view that it tears. -/
theorem call_error_stands (hc : c.isHandover = false) (hpublish : w.connection.Publishable)
    (hcall : call c w = .error e w') : w.Stands w' ∧
      (∀ views, w.session.Tears views c → w'.session.views = views) ∧
      ((∀ views, ¬w.session.Tears views c) → w'.session.views = w.session.views) := by
  unfold call at hcall
  cases hplan : w.session.plan c with
  | error e' =>
      simp only [hplan] at hcall
      obtain ⟨-, rfl⟩ := EStateM.Result.error.inj hcall
      refine ⟨.refl w, fun views htears => ?_, fun _ => rfl⟩
      cases c with
      | viewSync h =>
          obtain ⟨v, t, v', hv, -, -⟩ := htears
          exact nomatch hplan.symm.trans (Session.plan_viewSync hv)
      | viewSort h keys d =>
          obtain ⟨v, t, sorting, _, hv, hkeys, -, -⟩ := htears
          exact nomatch hplan.symm.trans (Session.plan_viewSort hv hkeys d)
      | _ => exact htears.elim
  | ok operation =>
      simp only [hplan] at hcall
      cases hplace : c.worksInPlace with
      | true =>
          cases c with
          | viewSync h =>
              obtain ⟨⟨v, t⟩, hv, -⟩ := bind_eq_ok.mp hplan
              obtain rfl := Except.ok.inj ((Session.plan_viewSync hv).symm.trans hplan)
              exact viewSync_error_stands hv hcall
          | viewSort h keys d =>
              obtain ⟨v, t, sorting, hv, hkeys, rfl⟩ := Session.plan_viewSort_eq_ok hplan
              exact viewSort_error_stands hv hkeys hcall
          | _ => simp [Call.worksInPlace] at hplace
      | false =>
          obtain ⟨hstands, hviews⟩ := Operation.perform_error_stands
            (Session.plan_restores hc hplace operation hplan) hpublish hcall
          refine ⟨hstands, fun views htears => ?_, fun _ => hviews⟩
          cases c with
          | viewSync | viewSort => simp [Call.worksInPlace] at hplace
          | _ => exact htears.elim

end Workspace
end SnapshotStore
