import SnapshotStore.Proofs.Arena.Record
import SnapshotStore.Proofs.Session.Stowing

/-!
The rows of the views that a session holds and of those in envelopes, over a whole call. A view that
stays in its place lists no row that it did not list before, unless a sync has found its rows anew.
All else was found in the group that the session sees then, or copies what was there before.
-/

namespace SnapshotStore

/-! Plans -/

/-- The call changes a view in its place. -/
def Call.reshapes : Call → Bool
  | viewSort .. | viewDistinct .. | viewSync .. => true
  | _ => false

namespace Session
variable {w : Workspace} {h : UInt64}

theorem portable_lists {kind : PayloadKind} {p : Payload} {policy : HandoverPolicy}
    (hp : w.session.portable kind h = .ok p) : (Operation.enclose kind h p policy).Lists w := by
  rintro v rfl
  cases kind with
  | query | row =>
      obtain ⟨_, -, he⟩ := map_eq_ok.mp hp
      exact nomatch he
  | view =>
      obtain ⟨⟨u, t⟩, hu, he⟩ := map_eq_ok.mp hp
      obtain rfl := Payload.view.inj he
      exact ⟨rfl, t, hu⟩

/-- What a query finds is in the table that the open transaction sees. -/
theorem findAll_lists {q : Query} {t : Table} {window : Window}
    (hn : ∀ g, w.session.context.group = .ok g → g.Numbered)
    (hq : w.session.query h = .ok (q, t)) :
    (Operation.keep ((View.ofQuery t q window).map .view)).Lists w := by
  intro v hv
  obtain ⟨u, hu, he⟩ := map_eq_ok.mp hv
  obtain rfl := Item.view.inj he
  obtain ⟨g, hg, ht⟩ := (lookUp_seen hn hq).2
  rw [View.Current, (View.ofQuery_eq_ok hu).1, Context.tableSize_of_seen hg ht]
  exact View.ofQuery_within hu

theorem lists_of_form {operation : Operation} {form : Operation.Form}
    (ho : operation.form = form) (hform : match form with
      | .keep | .replaceView | .enclose => False
      | _ => True) : operation.Lists w := by
  subst ho
  cases operation <;> trivial

/-- A plan puts in no view but one that has just been found or that is there already. -/
theorem plan_lists (hn : ∀ g, w.session.context.group = .ok g → g.Numbered) {c : Call}
    (hc : c.reshapes = false) : Yields (Operation.Lists w) (w.session.plan c) := by
  cases c with
  | getTable name =>
      refine .bind fun g _ => ?_
      split <;> exact .pure nofun
  | whereTable h => exact .bind fun _ _ => .pure nofun
  | getRow h row | getLinkList h column row => exact .bind fun _ _ => .bind fun _ _ => .pure nofun
  | queryFindAll h start stop limit =>
      exact .bind fun _ hq => .bind fun _ _ => .pure (findAll_lists hn hq)
  | exportObject kind h policy => exact .bind fun _ hp => .pure (portable_lists hp)
  | viewSort | viewDistinct | viewSync => exact Bool.noConfusion hc
  | _ => exact plan_yields_of_form fun _ ho => lists_of_form ho trivial

end Session

namespace Workspace
variable {w w' : Workspace} {c : Call} {P : View → Prop} {h : UInt64} {v v' : View} {t : Table}

/-- The slot of the view whose rows a sync finds anew. It may still fail after that. -/
def refound? (w : Workspace) : Call → Option (HandleKind × Nat)
  | .viewSync h =>
    match w.session.view h with
    | .ok (v, t) =>
      if (v.query.findAll t v.window).isOk then (Handle.decode? h).map fun k => (.view, k.slot)
      else none
    | .error _ => none
  | _ => none

/-- What was in the slot is still there, and its rows were not found anew. -/
def Stays (w w' : Workspace) (refound? : Option (HandleKind × Nat)) (kind : HandleKind)
    (slot : Nat) : Prop :=
  (w.shelf kind).keeps (w'.shelf kind) slot = true ∧ refound? ≠ some (kind, slot)

instance (w w' : Workspace) (refound? : Option (HandleKind × Nat)) (kind : HandleKind)
    (slot : Nat) : Decidable (w.Stays w' refound? kind slot) := inferInstanceAs (Decidable (_ ∧ _))

/-- What is left of views and envelopes. What stays lists no row that it did not list before, and P
is true of all else. -/
structure Leaves (w w' : Workspace) (refound? : Option (HandleKind × Nat)) (P : View → Prop) :
    Prop where
  views : ∀ slot g b, w'.session.views.live? slot = some (g, b) →
    w.Stays w' refound? .view slot ∧
        (∃ b₀, w.session.views.live? slot = some (g, b₀) ∧ b.object.rows ⊆ b₀.object.rows) ∨
      ¬w.Stays w' refound? .view slot ∧ P b.object
  envelopes : ∀ slot g e, w'.database.envelopes.live? slot = some (g, e) →
    w.Stays w' refound? .envelope slot ∧ w.database.envelopes.live? slot = some (g, e) ∨
      ¬w.Stays w' refound? .envelope slot ∧ ∀ v, e.payload = .view v → P v

theorem not_stays {refound? : Option (HandleKind × Nat)} {kind : HandleKind} {slot : Nat}
    (h : (w.shelf kind).keeps (w'.shelf kind) slot = false) : ¬w.Stays w' refound? kind slot :=
  fun hstays => Bool.noConfusion (h.symm.trans hstays.1)

theorem Stows.leaves (hs : w.Stows P w') : w.Leaves w' none P := by
  obtain ⟨w₁, hsheds, hgathers⟩ := hs
  refine ⟨fun slot g b hb => ?_, fun slot g e he => ?_⟩
  · rcases hsheds.views.entered hgathers.views hb with ⟨hkeeps, hold⟩ | ⟨hkeeps, hP⟩
    · exact .inl ⟨⟨hkeeps, nofun⟩, b, hold, List.Subset.refl _⟩
    · exact .inr ⟨not_stays hkeeps, hP⟩
  · rcases hsheds.envelopes.entered hgathers.envelopes he with ⟨hkeeps, hold⟩ | ⟨hkeeps, hP⟩
    · exact .inl ⟨⟨hkeeps, nofun⟩, hold⟩
    · exact .inr ⟨not_stays hkeeps, hP⟩

theorem after_replaceView (hv : w.session.view h = .ok (v, t)) (outcome : Except Error Unit)
    (v' : View) : ∃ views,
      (w.session.views.modify h fun b => { b with object := v' }) = .ok views ∧
      after (Operation.replaceView h outcome v').perform w = w.counted.withViews views := by
  obtain ⟨views, hm⟩ := setView_of_view hv v'
  refine ⟨views, hm, ?_⟩
  cases outcome with
  | ok u => exact after_ok (Operation.replaceView_run_ok hm)
  | error e => exact after_error (Operation.replaceView_run_error hm)

/-- To change a view in its place leaves all else as it is. -/
theorem replaceView_leaves {outcome : Except Error Unit} {refound? : Option (HandleKind × Nat)}
    (hv : w.session.view h = .ok (v, t))
    (hrows : refound? = none ∧ v'.rows ⊆ v.rows ∨
      refound? = (Handle.decode? h).map (fun k => (.view, k.slot)) ∧ P v') :
    w.Leaves (after (Operation.replaceView h outcome v').perform w) refound? P := by
  obtain ⟨views, hm, hafter⟩ := after_replaceView hv outcome v'
  rw [hafter]
  obtain ⟨b, hlocate, rfl, -⟩ := Session.lookUp_eq_ok hv
  obtain ⟨k, b', hk, hlive, hgen, -⟩ := Arena.modify_spec hm
  obtain rfl := Except.ok.inj (hlocate.symm.trans hk.get)
  rw [(Arena.decode_eq_ok hk.decode).1, Option.map_some] at hrows
  have hkeeps : ∀ s, (w.session.views.live? s).isSome →
      (w.shelf .view).keeps ((w.counted.withViews views).shelf .view) s = true := fun s hs =>
    Arena.keeps_iff.mpr ⟨hs, hgen s⟩
  refine ⟨fun s g' x hx => ?_, fun s g' e he => .inl ⟨⟨?_, ?_⟩, he⟩⟩
  · change views.live? s = _ at hx
    rw [hlive] at hx
    split at hx
    next hs =>
      obtain ⟨rfl, rfl⟩ := Prod.mk.inj (Option.some.inj hx)
      subst hs
      rcases hrows with ⟨rfl, hsub⟩ | ⟨rfl, hP⟩
      · exact .inl ⟨⟨hkeeps _ (by rw [hk.live, Option.isSome_some]), nofun⟩, b, hk.live, hsub⟩
      · exact .inr ⟨fun hstays => hstays.2 rfl, hP⟩
    next hs =>
      refine .inl ⟨⟨hkeeps s (by rw [hx, Option.isSome_some]), ?_⟩, x, hx, List.Subset.refl _⟩
      rcases hrows with ⟨rfl, -⟩ | ⟨rfl, -⟩
      · nofun
      · intro he
        exact hs (Prod.mk.inj (Option.some.inj he)).2.symm
  · exact Arena.keeps_iff.mpr ⟨by
      change w.database.envelopes.live? s = _ at he
      rw [he, Option.isSome_some], rfl⟩
  · rcases hrows with ⟨rfl, -⟩ | ⟨rfl, -⟩ <;> nofun

theorem viewSync_leaves (hn : ∀ g, w.session.context.group = .ok g → g.Numbered)
    (hv : w.session.view h = .ok (v, t)) {w' : Workspace}
    (hw' : after (Operation.replaceView h (v.sync t).1 (v.sync t).2).perform w = w') :
    w.Leaves w' (w.refound? (.viewSync h)) (w.Draws w' none) := by
  have hcontext : w'.session.context = w.session.context := by
    obtain ⟨views, -, hafter⟩ := after_replaceView hv (v.sync t).1 (v.sync t).2
    rw [← hw', hafter]
    rfl
  subst hw'
  have ha := Session.view_attached hv
  refine replaceView_leaves hv ?_
  cases hfound : v.query.findAll t v.window with
  | error e =>
      refine .inl ⟨?_, ?_⟩
      · simp only [refound?, hv, hfound]
        rfl
      · rw [View.sync_of_not_found ha hfound]
        exact List.Subset.refl _
  | ok rows =>
      refine .inr ⟨?_, ?_⟩
      · simp only [refound?, hv, hfound]
        rfl
      · have hsubject := View.sync_subject v t
        obtain ⟨hkey, g, hg, ht⟩ := Session.lookUp_seen hn hv
        have htable : (v.sync t).2.table = t.key := (Subject.columns.inj hsubject).1.trans hkey.symm
        rw [Draws, View.Current, hcontext, htable, Context.tableSize_of_seen hg ht]
        exact fun row hrow => Query.findAll_lt hfound row (View.sync_rows ha hfound hrow)

theorem after_call_of_plan {operation : Operation} (hplan : w.session.plan c = .ok operation) :
    after (call c) w = after operation.perform w := by
  simp only [after, call, hplan]

theorem refound?_of_not_reshapes (hc : c.reshapes = false) : w.refound? c = none := by
  cases c <;> first | rfl | exact Bool.noConfusion hc

theorem refound?_of_plan_error {e : Error} (hplan : w.session.plan c = .error e) :
    w.refound? c = none := by
  cases c with
  | viewSync h =>
      cases hv : w.session.view h with
      | error e' => simp only [refound?, hv]
      | ok r => exact nomatch hplan.symm.trans (Session.plan_viewSync hv)
  | _ => rfl

theorem reshaping_leaves (hn : ∀ g, w.session.context.group = .ok g → g.Numbered)
    (hc : c.reshapes = true) {operation : Operation} (hplan : w.session.plan c = .ok operation) :
    w.Leaves (after operation.perform w) (w.refound? c)
      (w.Draws (after operation.perform w) operation.source?) := by
  cases c with
  | viewSort h keys d =>
      obtain ⟨v, t, sorting, hv, -, rfl⟩ := Session.plan_viewSort_eq_ok hplan
      exact replaceView_leaves hv (.inl ⟨rfl, (v.sort_perm t sorting d).subset⟩)
  | viewDistinct h column =>
      obtain ⟨v, t, i, outcome, v', hv, rfl, ⟨hthin, -⟩ | rfl⟩ :=
        Session.plan_viewDistinct_eq_ok hplan
      · exact replaceView_leaves hv (.inl ⟨rfl, View.distinct_rows hthin⟩)
      · exact replaceView_leaves hv (.inl ⟨rfl, List.Subset.refl _⟩)
  | viewSync h =>
      obtain ⟨⟨v, t⟩, hv, -⟩ := bind_eq_ok.mp hplan
      obtain rfl := Except.ok.inj ((Session.plan_viewSync hv).symm.trans hplan)
      exact viewSync_leaves hn hv rfl
  | _ => exact Bool.noConfusion hc

/-- What a call leaves of views and envelopes. -/
theorem call_leaves (hw : w.Stocked) (hn : ∀ g, w.session.context.group = .ok g → g.Numbered)
    (c : Call) : w.Leaves (after (call c) w) (w.refound? c)
      (w.Draws (after (call c) w) (w.source? c)) := by
  cases hplan : w.session.plan c with
  | error e =>
      have hafter : after (call c) w = w := by simp only [after, call, hplan]
      rw [hafter, refound?_of_plan_error hplan]
      exact (Sheds.refl w).stows.leaves
  | ok operation =>
      rw [after_call_of_plan hplan, source?_of_plan hplan]
      cases hc : c.reshapes with
      | true => exact reshaping_leaves hn hc hplan
      | false =>
          rw [refound?_of_not_reshapes hc]
          have hl := Session.plan_lists hn hc operation hplan
          cases hp : operation.perform w with
          | ok out w' => exact after_ok hp ▸ (perform_stows hw hl hp).leaves
          | error e w' => exact after_error hp ▸ (perform_error_sheds hl hp).stows.leaves

end Workspace

/-! Reading and sorting -/

/-- The first view as it may be later on: with other rows and in another shape. -/
def View.Becomes (v₀ v : View) : Prop := ∃ rows sortKeys? distinctColumn?,
  v = { v₀ with rows, sortKeys?, distinctColumn? }

namespace Session
variable {s : Session} {h : UInt64} {v : View} {t : Table}

/-- A view that is attached can be worked on. -/
theorem view_of_attached (ha : s.isAttached s.views h = .ok true) :
    ∃ v t, s.view h = .ok (v, t) := by
  unfold isAttached at ha
  cases hget : s.views.get h with
  | ok b =>
      simp only [hget, Bound.isAttached] at ha
      cases hr : b.resolve s.context with
      | ok t => exact ⟨b.object, t, bind_eq_ok.mpr ⟨b, hget, bind_eq_ok.mpr ⟨t, hr, rfl⟩⟩⟩
      | error e => simp [hr, Except.isOk, Except.toBool] at ha
  | error e =>
      simp only [hget] at ha
      split at ha <;> simp at ha

theorem plan_viewGet {column position row : Nat} (hv : s.view h = .ok (v, t))
    (hcolumn : column < t.columnCount) (hrow : v.rows[position]? = some row) :
    s.plan (.viewGet h column position) = .ok (.read ((t.get column row).map .value)) := by
  have hposition : position < v.size := (List.getElem?_eq_some_iff.mp hrow).1
  have hi : t.checkColumn column = .ok column := if_pos (by omega)
  have hp : checkPosition position v.size = .ok position := if_pos (by omega)
  rw [← View.get_of_row (view_attached hv) hrow]
  exact bind_eq_ok.mpr ⟨(v, t), hv, bind_eq_ok.mpr ⟨column, hi, bind_eq_ok.mpr ⟨position, hp, rfl⟩⟩⟩

end Session

namespace Workspace
variable {w : Workspace} {h : UInt64} {v : View} {t : Table} {column position row : Nat}

/-- A cell of a view is read if the table still has the row. -/
theorem viewGet_there (hv : w.session.view h = .ok (v, t)) (hcolumn : column < t.columnCount)
    (hrow : v.rows[position]? = some row) (hthere : row < t.size) :
    ∃ x, t.get column row = .ok x ∧
      call (.viewGet h column position) w = .ok ⟨.value x, none⟩ w.counted := by
  obtain ⟨x, hx⟩ := Table.get_of_lt hcolumn hthere
  have hplan := Session.plan_viewGet hv hcolumn hrow
  rw [hx] at hplan
  exact ⟨x, hx, call_ok_iff.mpr ⟨_, hplan, rfl⟩⟩

theorem viewGet_gone (hv : w.session.view h = .ok (v, t)) (hcolumn : column < t.columnCount)
    (hrow : v.rows[position]? = some row) (hgone : t.size ≤ row) :
    call (.viewGet h column position) w =
      .error (.rowOutOfRange (Error.signed row) t.size false) w.counted := by
  have hplan := Session.plan_viewGet hv hcolumn hrow
  rw [Table.get_of_ge hcolumn hgone] at hplan
  rw [call, hplan]
  rfl

/-- A view that becomes another one stays under its handle and attached to its table. -/
theorem view_replaced (hw : w.Stocked) {v' : View} (hv : w.session.view h = .ok (v, t))
    (hb : v.Becomes v') : ∃ views,
      (w.session.views.modify h fun b => { b with object := v' }) = .ok views ∧
      (w.counted.withViews views).session.view h = .ok (v', t) := by
  obtain ⟨views, hm⟩ := setView_of_view hv v'
  refine ⟨views, hm, ?_⟩
  obtain ⟨⟨b, hget, hput⟩, -⟩ := hw.views.modify_get hm
  obtain ⟨b', hlocate, rfl, hr⟩ := Session.lookUp_eq_ok hv
  obtain rfl := Except.ok.inj (hget.symm.trans hlocate)
  obtain ⟨_, _, _, rfl⟩ := hb
  exact bind_eq_ok.mpr ⟨_, hput, bind_eq_ok.mpr ⟨t, hr, rfl⟩⟩

/-- What is sorted by keys that order it stays under its handle. -/
theorem viewSort_sorts (hw : w.Stocked) {keys : List (Int × Bool)} {sorting : List SortKey}
    (hv : w.session.view h = .ok (v, t)) (hkeys : Request.checkKeys t keys = .ok sorting)
    (horders : SortKey.Orders t sorting v.rows) :
    ∃ w', (∀ d, call (.viewSort h keys d) w = .ok ⟨.nothing, none⟩ w') ∧ w'.session.view h =
      .ok ({ v with rows := SortKey.sort t sorting v.rows, sortKeys? := some sorting }, t) := by
  obtain ⟨views, hm, hview⟩ := view_replaced hw hv ⟨SortKey.sort t sorting v.rows, some sorting,
    v.distinctColumn?, rfl⟩
  refine ⟨w.counted.withViews views, fun d => ?_, hview⟩
  have hplan := Session.plan_viewSort hv hkeys d
  rw [View.sort_of_orders (Session.view_attached hv) horders] at hplan
  exact call_ok_iff.mpr ⟨_, hplan, Operation.replaceView_run_ok hm⟩

end Workspace
end SnapshotStore
