import SnapshotStore.Proofs.Query.Aggregate
import SnapshotStore.Proofs.Service.Bounds
import SnapshotStore.Proofs.Session.ViewRows
import SnapshotStore.Proofs.Service.Windows

/-!
Aggregates over a query and over a view of its matches. A session may sort the view as often as it
likes: its rows stay those that the query finds, and so do the sum of integers, the least and the
greatest value.
-/

namespace SnapshotStore

namespace Session
variable {s : Session} {raw handle : UInt64} {q : Query} {v : View} {t : Table} {c : Nat}
  {kind : Aggregate} {x : Value}

theorem plan_queryAggregate (found : s.query raw = .ok (q, t)) (hcheck : q.check t = .ok ())
    (hc : c < t.columnCount) (hx : t.aggregate (q.matching t .all) kind c = .ok x) :
    s.plan (.queryAggregate raw kind c) = .ok (.read (.ok (.value x))) := by
  have hi : t.checkColumn c = .ok c := if_pos (by omega)
  have haggregate : q.aggregate t kind c .all = .ok x := bind_eq_ok.mpr ⟨(), hcheck, hx⟩
  refine bind_eq_ok.mpr ⟨(q, t), found, bind_eq_ok.mpr ⟨c, hi, ?_⟩⟩
  rw [haggregate]
  rfl

theorem plan_viewAggregate (hv : s.view handle = .ok (v, t)) (hc : c < t.columnCount)
    (hx : t.aggregate v.rows kind c = .ok x) :
    s.plan (.viewAggregate handle kind c) = .ok (.read (.ok (.value x))) := by
  have hi : t.checkColumn c = .ok c := if_pos (by omega)
  have haggregate : v.aggregate t kind c = .ok x :=
    bind_eq_ok.mpr ⟨(), View.checkAttached_of_attached (view_attached hv), hx⟩
  refine bind_eq_ok.mpr ⟨(v, t), hv, bind_eq_ok.mpr ⟨c, hi, ?_⟩⟩
  rw [haggregate]
  rfl

/-- The query is there, and the view lists the rows in some order. -/
structure Arranges (s : Session) (raw handle : UInt64) (q : Query) (t : Table) (rows : List Nat) :
    Prop where
  query : s.query raw = .ok (q, t)
  view : ∃ v, s.view handle = .ok (v, t) ∧ v.rows.Perm rows

end Session

namespace Workspace
variable {w : Workspace} {raw handle : UInt64} {q : Query} {t : Table} {rows : List Nat}

/-- To sort the view, or to fail at that, arranges the rows anew. -/
theorem arranges_viewSort (hw : w.Stocked) (h : w.session.Arranges raw handle q t rows)
    (keys : List (Int × Bool)) (d : Disorder) :
    (after (call (.viewSort handle keys d)) w).session.Arranges raw handle q t rows := by
  obtain ⟨v, hv, hperm⟩ := h.view
  cases hplan : w.session.plan (.viewSort handle keys d) with
  | error e =>
      have hafter : after (call (.viewSort handle keys d)) w = w := by
        simp only [after, call, hplan]
      rwa [hafter]
  | ok operation =>
      obtain ⟨v', t', sorting, hv', -, rfl⟩ := Session.plan_viewSort_eq_ok hplan
      obtain ⟨rfl, rfl⟩ := Prod.mk.inj (Except.ok.inj (hv.symm.trans hv'))
      obtain ⟨_, keys?, -, hsorted⟩ := v.sort_reorders t sorting d
      obtain ⟨views, hm, hview⟩ := view_replaced hw hv ⟨_, keys?, v.distinctColumn?, hsorted⟩
      obtain ⟨views', hm', hafter⟩ := after_replaceView hv (v.sort t sorting d).1
        (v.sort t sorting d).2
      obtain rfl := Except.ok.inj (hm.symm.trans hm')
      rw [after_call_of_plan hplan, hafter]
      exact ⟨h.query, _, hview, (v.sort_perm t sorting d).trans hperm⟩

end Workspace

namespace Service
variable {settings : Settings} {s : Service} {b : Notebook} {n : Nat} {session : Session}
  {raw handle : UInt64} {q : Query} {t : Table} {c : Nat} {column : Column} {kind : Aggregate}
  {rows : List Nat} {x : Value}

/-- The service after the session has tried to sort a view by each of the keys in turn. -/
def sortView (s : Service) (n : Nat) (handle : UInt64)
    (sorts : List (List (Int × Bool) × Disorder)) : Service :=
  sorts.foldl (fun s (keys, d) => s.make (.call n (.viewSort handle keys d))) s

theorem Kept.sortView_arranges (hk : Kept settings s b) (hs : s.sessions.get? n = some session)
    (h : session.Arranges raw handle q t rows) (sorts : List (List (Int × Bool) × Disorder)) :
    ∃ b' session', Kept settings (s.sortView n handle sorts) b' ∧
      (s.sortView n handle sorts).sessions.get? n = some session' ∧
      session'.Arranges raw handle q t rows := by
  induction sorts generalizing s b session with
  | nil => exact ⟨b, session, hk, hs, h⟩
  | cons sort rest ih =>
      obtain ⟨keys, d⟩ := sort
      have hafter := Workspace.arranges_viewSort (w := s.workspace session)
        (hk.stocked n session hs) h keys d
      have hs' : (s.make (.call n (.viewSort handle keys d))).sessions.get? n =
          some (Workspace.after (Workspace.call (.viewSort handle keys d))
            (s.workspace session)).session := by
        rw [make_call hs]
        exact NatMap.get?_insert_self ..
      exact ih (hk.make (.call n (.viewSort handle keys d))) hs' hafter

/-- The query and the view answer one aggregate. -/
theorem Kept.arranged_answers (hk : Kept settings s b) (hs : s.sessions.get? n = some session)
    (h : session.Arranges raw handle q t (q.matching t .all)) (valid : q.predicate.check t = .ok ())
    (hw : t.WellFormed) (hc : t.columns[c]? = some column) (hkind : kind.Orderless column.type)
    (hx : t.aggregate (q.matching t .all) kind c = .ok x) :
    s.Answers n (.queryAggregate raw kind c) (.value x) ∧
      s.Answers n (.viewAggregate handle kind c) (.value x) := by
  have hcolumn : c < t.columnCount := (List.getElem?_eq_some_iff.mp hc).1
  obtain ⟨v, hv, hperm⟩ := h.view
  have hcheck := Session.query_check (fun g => hk.numbered hs (g := g)) h.query valid
  have hrows : ∀ row ∈ q.matching t .all, row < t.size := fun row => Query.matching_lt
  have hsame := Table.aggregate_perm hw hc hkind hrows hperm hx
  have hquery := Session.plan_queryAggregate h.query hcheck hcolumn hx
  have hview := Session.plan_viewAggregate hv hcolumn hsame
  exact ⟨answers_of_read hs hquery, answers_of_read hs hview⟩

/-- The sum of integers, the least value and the greatest say what they should of the values of all
rows that a query finds. The query answers them, and so does the view of all its matches, whatever
it was sorted by in the meantime. -/
theorem Reachable.aggregate_arranged (h : Reachable settings s b)
    (hs : s.sessions.get? n = some session) (found : session.query raw = .ok (q, t))
    (valid : q.predicate.check t = .ok ()) (hc : t.columns[c]? = some column)
    (hkind : kind.Orderless column.type) : ∃ rows x handle s₁,
      q.Finds t 0 t.size rows ∧ kind.Tells (t.values c rows) x ∧
      s.Answers n (.queryAggregate raw kind c) (.value x) ∧
      s.call n (.queryFindAll raw 0 (-1) (-1)) = some (.ok ⟨.handle handle, none⟩, s₁) ∧
      ((∀ session₁, s₁.sessions.get? n = some session₁ →
          session₁.views.slots.length ≤ 0x100000000) →
        ∀ sorts,
          (s₁.sortView n handle sorts).Answers n (.queryAggregate raw kind c) (.value x) ∧
          (s₁.sortView n handle sorts).Answers n (.viewAggregate handle kind c) (.value x)) := by
  have hk := h.kept
  obtain ⟨-, g, hg, ht⟩ := Session.lookUp_seen (fun g => hk.numbered hs (g := g)) found
  have hw : t.WellFormed := (h.group_wellFormed hs hg).1.tables _ _ ht
  have hwindow : Window.Accepts t.size 0 (-1) (-1) := by simp [Window.Accepts, Window.resolve]
  obtain ⟨v, hv, hrows, hcall⟩ := hk.findAll_keeps hs found valid hwindow
  -- The window of the numbers 0, -1 and -1 is that of all rows.
  have hfinds := q.finds_onward (t := t) 0
  have hall : q.matching t (Window.ofAccepted t.size 0 (-1) (-1)) = q.matching t .all := by
    obtain ⟨rows, hrows, hmatching⟩ := q.matching_ofAccepted hwindow
    rw [hmatching, if_pos rfl]
    exact hrows.unique hfinds
  have hbelow : ∀ row ∈ q.matching t .all, row < t.size := fun row => Query.matching_lt
  obtain ⟨x, hx, htells⟩ := Table.aggregate_tells hw hc hkind hbelow
  have hcheck := Session.query_check (fun g => hk.numbered hs (g := g)) found valid
  have hplan := Session.plan_queryAggregate found hcheck (List.getElem?_eq_some_iff.mp hc).1 hx
  refine ⟨_, x, _, _, hfinds, htells, answers_of_read hs hplan, hcall, fun room sorts => ?_⟩
  have hs₁ := NatMap.get?_insert_self s.sessions n (session.keep (.view v)).2
  have harranges : (session.keep (.view v)).2.Arranges raw (session.keep (.view v)).1 q t
      (q.matching t .all) := by
    refine ⟨found, v, hk.view_of_findAll hs found hv (room _ hs₁), ?_⟩
    rw [hrows, hall]
  obtain ⟨-, -, -, hmake, -⟩ := call_eq_ok hs hcall
  have hk₁ := hk.make (.call n (.queryFindAll raw 0 (-1) (-1)))
  rw [hmake] at hk₁
  obtain ⟨b₂, session₂, hk₂, hs₂, harranges₂⟩ := hk₁.sortView_arranges hs₁ harranges sorts
  exact hk₂.arranged_answers hs₂ harranges₂ valid hw hc hkind hx

/-- The sum of the largest integer and 1 is the smallest, also after the rows were sorted the other
way round. -/
theorem aggregate_arranged_wraps : ∃ s b session q t column, Reachable {} s b ∧
    s.sessions.get? 1 = some session ∧ session.query 0x300000100000000 = .ok (q, t) ∧
    q.predicate.check t = .ok () ∧ t.columns[0]? = some column ∧
    Aggregate.sum.Orderless column.type ∧ ∃ s₁,
      s.call 1 (.queryFindAll 0x300000100000000 0 (-1) (-1)) =
        some (.ok ⟨.handle 0x400000100000000, none⟩, s₁) ∧
      (s₁.sortView 1 0x400000100000000 [([(0, false)], .panic)]).Answers 1
        (.viewAggregate 0x400000100000000 .sum 0) (.value (.int (-9223372036854775808))) := by
  have h := unused_reachable [.openSession 1, .call 1 (.transact .beginWrite),
    .call 1 (.addTable "t"), .call 1 (.addColumn 0x100000100000000 .int "points" true),
    .call 1 (.addEmptyRow 0x100000100000000), .call 1 (.addEmptyRow 0x100000100000000),
    .call 1 (.addEmptyRow 0x100000100000000),
    .call 1 (.setScalar 0x100000100000000 0 1 (.int 1)),
    .call 1 (.setScalar 0x100000100000000 0 2 (.int 9223372036854775807)),
    .call 1 (.whereTable 0x100000100000000)]
  have hkind : Aggregate.sum.Orderless .int := rfl
  obtain ⟨rows, x, handle, s₁, -, -, ⟨s', hquery⟩, hcall, hsorted⟩ :=
    h.aggregate_arranged (n := 1) (c := 0) rfl
      (show Session.query _ 0x300000100000000 = _ from rfl) rfl rfl hkind
  have hanswer := Option.some.inj (hquery.symm.trans
    (show _ = some (.ok ⟨.value (.int (-9223372036854775808)), none⟩, _) from rfl))
  have hput := Option.some.inj (hcall.symm.trans
    (show _ = some (.ok ⟨.handle 0x400000100000000, none⟩, _) from rfl))
  obtain rfl : x = .int (-9223372036854775808) := by simpa using (Prod.mk.inj hanswer).1
  obtain rfl : handle = 0x400000100000000 := by simpa using (Prod.mk.inj hput).1
  obtain rfl := (Prod.mk.inj hput).2
  refine ⟨_, _, _, _, _, _, h, rfl, rfl, rfl, rfl, hkind, _, hcall, (hsorted ?_ _).2⟩
  intro session₁ hs₁
  obtain rfl := Option.some.inj (hs₁.symm.trans rfl)
  decide

end Service
end SnapshotStore
