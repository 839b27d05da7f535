import SnapshotStore.Proofs.Handle
import SnapshotStore.Proofs.Session.ViewRows
import SnapshotStore.Proofs.View.OpenEnd

/-!
Views that stay under their handles. Only three calls on its handle change such a view: one sorts
it, one thins it out and one syncs it. Whatever they do, it keeps its query and its window.
-/

namespace SnapshotStore

/-- The call is one that gives the view of the handle its shape. -/
def Call.Shapes (raw : UInt64) : Call → Prop
  | viewSort h _ _ | viewDistinct h _ => h = raw
  | _ => False

/-- What a call on the handle of a view makes of the view. -/
inductive Session.Reshapes (s : Session) (raw : UInt64) : Call → View → View → Prop
  | sorted {keys : List (Int × Bool)} {sorting : List SortKey} {d : Disorder} {v : View} {t : Table}
      (found : s.view raw = .ok (v, t)) :
      Reshapes s raw (.viewSort raw keys d) v (v.sort t sorting d).2
  | thinned {column : Int} {i : Nat} {v v' : View} {t : Table}
      (found : s.view raw = .ok (v, t)) (thin : v.distinct t i = .ok v') :
      Reshapes s raw (.viewDistinct raw column) v v'
  | synced {v : View} {t : Table} (found : s.view raw = .ok (v, t)) :
      Reshapes s raw (.viewSync raw) v (v.sync t).2

namespace Session.Reshapes
variable {s : Session} {raw : UInt64} {c : Call} {v₀ v v' : View}

theorem becomes (h : s.Reshapes raw c v v') (hv : v₀.Becomes v) : v₀.Becomes v' := by
  obtain ⟨rows, sortKeys?, distinctColumn?, rfl⟩ := hv
  cases h with
  | @sorted _ sorting d _ t found =>
      obtain ⟨_, _, -, hsorted⟩ := View.sort_reorders _ t sorting d
      exact ⟨_, _, _, hsorted⟩
  | thinned found thin =>
      obtain ⟨-, _, -, rfl⟩ := View.distinct_eq_ok thin
      exact ⟨_, _, _, rfl⟩
  | @synced _ t found =>
      obtain ⟨rows', hrows⟩ := View.sync_rows_only _ t
      exact ⟨_, _, _, hrows⟩

/-- The column that a view is distinct in passed the check when it became so. -/
theorem distinct (h : s.Reshapes raw c v v') : v'.distinctColumn? = v.distinctColumn? ∨
    ∃ t i, s.view raw = .ok (v, t) ∧ t.checkDistinct i = .ok () ∧ v'.distinctColumn? = some i := by
  cases h with
  | @sorted _ sorting d _ t found =>
      obtain ⟨_, _, -, hsorted⟩ := v.sort_reorders t sorting d
      exact .inl (by rw [hsorted])
  | thinned found thin =>
      obtain ⟨hcheck, _, -, rfl⟩ := View.distinct_eq_ok thin
      exact .inr ⟨_, _, found, hcheck, rfl⟩
  | @synced _ t found =>
      obtain ⟨rows, hrows⟩ := View.sync_rows_only v t
      exact .inl (by rw [hrows])

/-- A view that is not given a shape has the one it had. -/
theorem plain (h : s.Reshapes raw c v v') (hc : ¬c.Shapes raw) :
    v'.sortKeys? = v.sortKeys? ∧ v'.distinctColumn? = v.distinctColumn? := by
  cases h with
  | sorted | thinned => exact absurd rfl hc
  | @synced _ t found =>
      obtain ⟨rows, hrows⟩ := View.sync_rows_only v t
      rw [hrows]
      exact ⟨rfl, rfl⟩

end Session.Reshapes

namespace Workspace
variable {w w' : Workspace} {c : Call} {P : View → Prop} {h : UInt64} {v v' : View} {t : Table}
  {slot g : Nat} {x x' : Bound View}

/-- What is still there after views were taken out and put in is what was there before. -/
theorem Stows.same (hs : w.Stows P w') (hx : w.session.views.live? slot = some (g, x))
    (hx' : w'.session.views.live? slot = some (g, x')) : x' = x := by
  obtain ⟨w₁, hsheds, hgathers⟩ := hs
  rcases hsheds.views.entered hgathers.views hx' with ⟨-, hold⟩ | ⟨hkeeps, -⟩
  · exact (Prod.mk.inj (Option.some.inj (hold.symm.trans hx))).2
  · have hkept := Arena.keeps_iff.mpr ⟨by rw [hx, Option.isSome_some],
      (Arena.live?_generation hx').trans (Arena.live?_generation hx).symm⟩
    exact Bool.noConfusion (hkept.symm.trans hkeeps)

/-- To change a view in its place leaves the others as they are. -/
theorem replaceView_in_place (hw : w.Stocked) {outcome : Except Error Unit}
    (hv : w.session.view h = .ok (v, t)) (hx : w.session.views.live? slot = some (g, x))
    (hx' : (after (Operation.replaceView h outcome v').perform w).session.views.live? slot =
      some (g, x')) :
    x' = x ∨ h = (Handle.ofParts .view slot g).encode ∧ x.object = v ∧ x'.object = v' := by
  obtain ⟨views, hm, hafter⟩ := after_replaceView hv outcome v'
  rw [hafter] at hx'
  obtain ⟨b, hlocate, rfl, -⟩ := Session.lookUp_eq_ok hv
  obtain ⟨k, b₁, hk, hlive, -⟩ := Arena.modify_spec hm
  obtain rfl := Except.ok.inj (hlocate.symm.trans hk.get)
  obtain ⟨hdecode, hkind⟩ := Arena.decode_eq_ok hk.decode
  change views.live? slot = _ at hx'
  rw [hlive] at hx'
  split at hx'
  next hslot =>
    -- The view of the handle itself: slot and generation are those on the handle.
    subst hslot
    obtain ⟨rfl, rfl⟩ := Prod.mk.inj (Option.some.inj (hx.symm.trans hk.live))
    obtain ⟨-, rfl⟩ := Prod.mk.inj (Option.some.inj hx')
    refine .inr ⟨?_, rfl, rfl⟩
    rw [← Handle.encode_of_decode? hdecode, ← hkind.trans hw.views.kind, Handle.ofParts_self]
  next => exact .inl (Prod.mk.inj (Option.some.inj (hx'.symm.trans hx))).2

/-- What a call whose plan is to change a view in its place makes of the views that are there. -/
theorem reshaping_reshapes (hw : w.Stocked) (hc : c.reshapes = true) {operation : Operation}
    (hplan : w.session.plan c = .ok operation) (hx : w.session.views.live? slot = some (g, x))
    (hx' : (after operation.perform w).session.views.live? slot = some (g, x')) :
    x'.object = x.object ∨
      w.session.Reshapes (Handle.ofParts .view slot g).encode c x.object x'.object := by
  cases c with
  | viewSort h keys d =>
      obtain ⟨v, t, sorting, hv, -, rfl⟩ := Session.plan_viewSort_eq_ok hplan
      rcases replaceView_in_place hw hv hx hx' with rfl | ⟨rfl, rfl, hsorted⟩
      · exact .inl rfl
      · exact .inr (hsorted ▸ .sorted hv)
  | viewDistinct h column =>
      obtain ⟨v, t, i, outcome, v', hv, rfl, hthin⟩ := Session.plan_viewDistinct_eq_ok hplan
      rcases replaceView_in_place hw hv hx hx' with rfl | ⟨rfl, rfl, hnew⟩
      · exact .inl rfl
      · rcases hthin with ⟨hthin, -⟩ | rfl
        · exact .inr (hnew ▸ .thinned hv hthin)
        · exact .inl hnew
  | viewSync h =>
      obtain ⟨⟨v, t⟩, hv, -⟩ := bind_eq_ok.mp hplan
      obtain rfl := Except.ok.inj ((Session.plan_viewSync hv).symm.trans hplan)
      rcases replaceView_in_place hw hv hx hx' with rfl | ⟨rfl, rfl, hsynced⟩
      · exact .inl rfl
      · exact .inr (hsynced ▸ .synced hv)
  | _ => exact Bool.noConfusion hc

/-- What a call leaves of a view that is still there after it. -/
theorem call_reshapes (hw : w.Stocked) (hn : ∀ g, w.session.context.group = .ok g → g.Numbered)
    (c : Call) (hx : w.session.views.live? slot = some (g, x))
    (hx' : (after (call c) w).session.views.live? slot = some (g, x')) :
    x'.object = x.object ∨
      w.session.Reshapes (Handle.ofParts .view slot g).encode c x.object x'.object := by
  cases hplan : w.session.plan c with
  | error e =>
      have hafter : after (call c) w = w := by simp only [after, call, hplan]
      rw [hafter] at hx'
      exact .inl (congrArg (·.2.object) (Option.some.inj (hx'.symm.trans hx)))
  | ok operation =>
      rw [after_call_of_plan hplan] at hx'
      cases hc : c.reshapes with
      | false =>
          -- Whatever else was put in went into another slot, or gave this one a new generation.
          have hl := Session.plan_lists hn hc operation hplan
          refine .inl (congrArg Bound.object ?_)
          cases hp : operation.perform w with
          | ok out w' => exact (perform_stows hw hl hp).same hx (after_ok hp ▸ hx')
          | error e w' =>
              have hstows := (perform_error_sheds hl hp).stows (P := fun _ => True)
              exact hstows.same hx (after_error hp ▸ hx')
      | true => exact reshaping_reshapes hw hc hplan hx hx'

/-- The view that a query finds is put under the handle that is answered. -/
theorem call_queryFindAll (hw : w.Stocked) {q : Query} {start stop limit : Int} {out : Outcome}
    (hq : w.session.query h = .ok (q, t))
    (hc : call (.queryFindAll h start stop limit) w = .ok out w') :
    ∃ window v₀ slot g x, Window.ofBounds t.size start stop limit = .ok window ∧
      View.ofQuery t q window = .ok v₀ ∧
      out.reply = .handle (Handle.ofParts .view slot g).encode ∧
      w'.session.views.live? slot = some (g, x) ∧ x.object = v₀ := by
  obtain ⟨operation, hplan, hp⟩ := call_ok_iff.mp hc
  obtain ⟨⟨q', t'⟩, hq', hplan⟩ := bind_eq_ok.mp hplan
  obtain ⟨rfl, rfl⟩ := Prod.mk.inj (Except.ok.inj (hq.symm.trans hq'))
  obtain ⟨window, hwindow, hplan⟩ := bind_eq_ok.mp hplan
  obtain rfl := pure_eq_ok.mp hplan
  simp only [Operation.perform, bind_run_ok, pure_run_ok, forward_run_ok, pass_run_ok] at hp
  obtain ⟨-, _, rfl, item, _, ⟨hitem, rfl⟩, raw, _, hk, rfl, rfl⟩ := hp
  obtain ⟨v₀, hv₀, rfl⟩ := map_eq_ok.mp hitem
  obtain ⟨rfl, rfl⟩ := EStateM.Result.ok.inj hk
  refine ⟨window, v₀, w.session.views.vacancy,
    w.session.views.generation w.session.views.vacancy, ⟨v₀, w.session.context.epoch⟩, hwindow, hv₀,
    ?_, (Arena.insert_live? hw.views.tidy _ _).trans (if_pos rfl), rfl⟩
  rw [← hw.views.kind]
  exact congrArg Reply.handle (Arena.insert_handle w.session.views _)

/-- What a sync finds stays under the handle of the view, also if the call fails. -/
theorem viewSync_syncs (hw : w.Stocked) (hv : w.session.view h = .ok (v, t)) : ∃ w',
    w'.session.view h = .ok ((v.sync t).2, t) ∧
    ((v.sync t).1 = .ok () → call (.viewSync h) w = .ok ⟨.nothing, none⟩ w') ∧
    ∀ e, (v.sync t).1 = .error e → call (.viewSync h) w = .error e w' := by
  have hplan := Session.plan_viewSync hv
  obtain ⟨rows, hrows⟩ := v.sync_rows_only t
  obtain ⟨views, hm, hview⟩ := view_replaced hw hv ⟨rows, v.sortKeys?, v.distinctColumn?, hrows⟩
  refine ⟨w.counted.withViews views, hview, fun hok => ?_, fun e herror => ?_⟩
  · rw [hok] at hplan
    exact call_ok_iff.mpr ⟨_, hplan, Operation.replaceView_run_ok hm⟩
  · rw [herror] at hplan
    rw [call, hplan]
    exact Operation.replaceView_run_error hm

end Workspace
end SnapshotStore
