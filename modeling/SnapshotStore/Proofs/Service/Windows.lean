import SnapshotStore.Proofs.Query.Windows
import SnapshotStore.Proofs.Registry
import SnapshotStore.Proofs.Service.Envelopes
import SnapshotStore.Proofs.Service.Reports
import SnapshotStore.Proofs.View.Shaping

/-!
The windows of query calls. A session gives a window in numbers, and whether it asks for the first
match, for a view of all or for how many there are, the same rows are meant.
-/

namespace SnapshotStore

namespace Workspace
variable {w : Workspace} {c : Call}

theorem call_of_read {reply : Reply} (h : w.session.plan c = .ok (.read (.ok reply))) :
    call c w = .ok ⟨reply, none⟩ w.counted := by
  rw [call, h]
  rfl

theorem call_of_keep {item : Item} (h : w.session.plan c = .ok (.keep (.ok item))) :
    call c w = .ok ⟨.handle (w.session.keep item).1, none⟩
      { w.counted with session := (w.session.keep item).2 } := by
  rw [call, h]
  rfl

end Workspace

namespace Session
variable {s : Session} {raw : UInt64} {q : Query} {t : Table} {start stop limit : Int}

/-- A view that a query has just found is attached under its handle, unless it was put into a slot
that no handle can name. -/
theorem view_of_keep {window : Window} {v : View} {g : Group} (hviews : s.views.Stocks .view)
    (hin : s.context.isInTransaction) (hg : s.context.group = .ok g)
    (ht : g.table? t.key = some t) (hv : View.ofQuery t q window = .ok v)
    (room : (s.keep (.view v)).2.views.slots.length ≤ 0x100000000) :
    (s.keep (.view v)).2.view (s.keep (.view v)).1 = .ok (v, t) := by
  have hget := (hviews.insert_get (⟨v, s.context.epoch⟩ : Bound View) room).mpr (.inl ⟨rfl, rfl⟩)
  have hkey : v.table = t.key := (View.ofQuery_eq_ok hv).1
  have hthere : g.table? v.table = some t := by rw [hkey, ht]
  have hattached := (View.found_of_ofQuery hv).attached
  have hr : Bound.resolve (⟨v, s.context.epoch⟩ : Bound View) s.context = .ok t :=
    Bound.resolve_of_suits hin rfl hg hthere hattached
  exact bind_eq_ok.mpr ⟨_, hget, bind_eq_ok.mpr ⟨t, hr, rfl⟩⟩

/-- A query that is attached can run if its predicate is valid for its table. -/
theorem query_check (hn : ∀ g, s.context.group = .ok g → g.Numbered)
    (found : s.query raw = .ok (q, t)) (valid : q.predicate.check t = .ok ()) :
    q.check t = .ok () := by
  obtain ⟨hkey, hepoch⟩ := query_suits hn found
  exact (Query.check_of_suits hkey hepoch).trans valid

theorem plan_queryFindAll (found : s.query raw = .ok (q, t)) :
    s.plan (.queryFindAll raw start stop limit) = Window.ofBounds t.size start stop limit >>=
      fun w => .ok (.keep ((View.ofQuery t q w).map .view)) := by
  simp only [plan, found]
  rfl

theorem plan_queryCount (found : s.query raw = .ok (q, t)) :
    s.plan (.queryCount raw start stop limit) = Window.ofBounds t.size start stop limit >>=
      fun w => .ok (.read ((q.count t w).map .number)) := by
  simp only [plan, found]
  rfl

end Session

namespace Service
variable {settings : Settings} {s : Service} {b : Notebook} {n : Nat} {session : Session}
  {raw : UInt64} {q : Query} {t : Table} {start m stop limit : Int}

def Succeeds (s : Service) (n : Nat) (c : Call) : Prop := ∃ out s', s.call n c = some (.ok out, s')

def Answers (s : Service) (n : Nat) (c : Call) (reply : Reply) : Prop :=
  ∃ s', s.call n c = some (.ok ⟨reply, none⟩, s')

/-- The call puts in a view of the table that lists the rows and answers its handle, under which it
is attached. No handle can name a slot beyond the first 2^32. -/
def Lists (s : Service) (n : Nat) (c : Call) (t : Table) (rows : List Nat) : Prop :=
  ∃ session session' s' handle v, s.sessions.get? n = some session ∧
    s.call n c = some (.ok ⟨.handle handle, none⟩, s') ∧ s'.sessions.get? n = some session' ∧
    session.views.insert ⟨v, session.context.epoch⟩ = (handle, session'.views) ∧
    (session'.views.slots.length ≤ 0x100000000 → session'.view handle = .ok (v, t)) ∧
    v.rows = rows

theorem answers_of_read {c : Call} {reply : Reply} (hs : s.sessions.get? n = some session)
    (h : session.plan c = .ok (.read (.ok reply))) : s.Answers n c reply :=
  ⟨_, by rw [call_eq hs, Workspace.call_of_read h]⟩

/-- A call that checks a window succeeds only if the numbers are accepted. -/
theorem accepts_of_succeeds {c : Call} {size : Nat} {f : Window → Except Error Operation}
    (hs : s.sessions.get? n = some session)
    (hplan : session.plan c = Window.ofBounds size start stop limit >>= f)
    (h : s.Succeeds n c) : Window.Accepts size start stop limit := by
  obtain ⟨out, s', hc⟩ := h
  obtain ⟨w', hw, -⟩ := call_eq_ok hs hc
  obtain ⟨_, hoperation, -⟩ := Workspace.call_ok_iff.mp hw
  obtain ⟨window, hwindow, -⟩ := bind_eq_ok.mp (hplan.symm.trans hoperation)
  exact (Window.ofBounds_eq_ok.mp hwindow).1

section Query
variable (hk : Kept settings s b) (hs : s.sessions.get? n = some session)
  (found : session.query raw = .ok (q, t)) (valid : q.predicate.check t = .ok ())
include hk hs found valid

/-- The matches in a window are put in as a view. -/
theorem Kept.findAll_keeps (h : Window.Accepts t.size start stop limit) : ∃ v,
    View.ofQuery t q (Window.ofAccepted t.size start stop limit) = .ok v ∧
      v.rows = q.matching t (Window.ofAccepted t.size start stop limit) ∧
      s.call n (.queryFindAll raw start stop limit) =
        some (.ok ⟨.handle (session.keep (.view v)).1, none⟩, s.turned n
          { (s.workspace session).counted with session := (session.keep (.view v)).2 }) := by
  have hcheck := Session.query_check (fun g => hk.numbered hs (g := g)) found valid
  have hfound := Query.findAll_of_check hcheck (Window.ofAccepted t.size start stop limit)
  obtain ⟨v, hv, hrows⟩ : ∃ v,
      View.ofQuery t q (Window.ofAccepted t.size start stop limit) = .ok v ∧
        v.rows = q.matching t (Window.ofAccepted t.size start stop limit) :=
    ⟨_, bind_eq_ok.mpr ⟨_, hfound, rfl⟩, rfl⟩
  have hplan : session.plan (.queryFindAll raw start stop limit) = .ok (.keep (.ok (.view v))) := by
    rw [Session.plan_queryFindAll found, Window.ofBounds_eq_ok.mpr ⟨h, rfl⟩]
    exact congrArg (fun x => Except.ok (Operation.keep (x.map Item.view))) hv
  have hcall := call_eq hs (.queryFindAll raw start stop limit)
  rw [Workspace.call_of_keep hplan] at hcall
  exact ⟨v, hv, hrows, hcall⟩

omit valid in
/-- The view that is put in is attached under its handle, if a handle can name its slot. -/
theorem Kept.view_of_findAll {window : Window} {v : View} (hv : View.ofQuery t q window = .ok v)
    (room : (session.keep (.view v)).2.views.slots.length ≤ 0x100000000) :
    (session.keep (.view v)).2.view (session.keep (.view v)).1 = .ok (v, t) := by
  obtain ⟨-, g, hg, ht⟩ := Session.lookUp_seen (fun g => hk.numbered hs (g := g)) found
  obtain ⟨bound, -, -, hr⟩ := Session.lookUp_eq_ok found
  obtain ⟨hin, -⟩ := Bound.resolve_eq_ok hr
  exact Session.view_of_keep (hk.stocked n session hs).views hin hg ht hv room

/-- A view of all matches in a window lists them. -/
theorem Kept.findAll_lists (h : Window.Accepts t.size start stop limit) :
    s.Lists n (.queryFindAll raw start stop limit) t
      (q.matching t (Window.ofAccepted t.size start stop limit)) := by
  obtain ⟨v, hv, hrows, hcall⟩ := hk.findAll_keeps hs found valid h
  exact ⟨session, (session.keep (.view v)).2, _, (session.keep (.view v)).1, v, hs, hcall,
    NatMap.get?_insert_self .., rfl, hk.view_of_findAll hs found hv, hrows⟩

theorem Kept.count_answers (h : Window.Accepts t.size start stop limit) :
    s.Answers n (.queryCount raw start stop limit)
      (.number (q.matching t (Window.ofAccepted t.size start stop limit)).length) := by
  have hcheck := Session.query_check (fun g => hk.numbered hs (g := g)) found valid
  have hcount := Query.count_of_check hcheck (Window.ofAccepted t.size start stop limit)
  have hplan : session.plan (.queryCount raw start stop limit) = .ok (.read (.ok
      (.number (q.matching t (Window.ofAccepted t.size start stop limit)).length))) := by
    rw [Session.plan_queryCount found, Window.ofBounds_eq_ok.mpr ⟨h, rfl⟩]
    exact congrArg (fun x => Except.ok (Operation.read (x.map Reply.number))) hcount
  exact answers_of_read hs hplan

theorem Kept.find_answers (hstart : 0 ≤ start) (hin : start ≤ t.size) :
    s.Answers n (.queryFind raw start)
      (.number? (q.matching t ⟨start.toNat, none, none⟩).head?) := by
  have hcheck := Session.query_check (fun g => hk.numbered hs (g := g)) found valid
  have hrow : t.checkRow start true = .ok start.toNat := by
    rw [Table.checkRow, if_pos]
    simp only [if_true]
    omega
  have hplan : session.plan (.queryFind raw start) = .ok (.read (.ok
      (.number? (q.matching t ⟨start.toNat, none, none⟩).head?))) := by
    refine bind_eq_ok.mpr ⟨(q, t), found, bind_eq_ok.mpr ⟨_, hrow, ?_⟩⟩
    rw [Query.find_of_check hcheck]
    rfl
  exact answers_of_read hs hplan

/-- A view of all matches in a window without a limit lists what is found there. -/
theorem Kept.lists_found (h : Window.Accepts t.size start stop (-1)) : ∃ rows,
    q.Finds t start (Window.resolve t.size stop) rows ∧
    s.Lists n (.queryFindAll raw start stop (-1)) t rows := by
  obtain ⟨rows, hfinds, hmatching⟩ := q.matching_ofAccepted h
  rw [if_pos rfl] at hmatching
  exact ⟨rows, hfinds, hmatching ▸ hk.findAll_lists hs found valid h⟩

end Query

/-- What the query calls make of a window in numbers. The view of all matches and the count of them
are had if and only if the numbers are accepted. The view lists the first matches in the window, as
many as the limit says, and the count is how many it lists. The first match from a row onwards is
the first in the view of the window from there to the end. And where a window is cut in two, the
view of the whole lists what the view of the front lists and then what that of the back lists. -/
theorem Reachable.query_windows (h : Reachable settings s b)
    (hs : s.sessions.get? n = some session) (found : session.query raw = .ok (q, t))
    (valid : q.predicate.check t = .ok ()) :
    (∀ start stop limit : Int,
      (s.Succeeds n (.queryFindAll raw start stop limit) ↔
        Window.Accepts t.size start stop limit) ∧
      (s.Succeeds n (.queryCount raw start stop limit) ↔
        Window.Accepts t.size start stop limit) ∧
      (Window.Accepts t.size start stop limit → ∃ rows listed,
        q.Finds t start (Window.resolve t.size stop) rows ∧
        listed = (if limit = -1 then rows else rows.take limit.toNat) ∧
        s.Lists n (.queryFindAll raw start stop limit) t listed ∧
        s.Answers n (.queryCount raw start stop limit) (.number listed.length))) ∧
    (∀ start : Int, 0 ≤ start → start ≤ t.size → ∃ rows,
      s.Lists n (.queryFindAll raw start t.size (-1)) t rows ∧
      s.Answers n (.queryFind raw start) (.number? rows.head?)) ∧
    ∀ start m stop : Int, Window.Accepts t.size start stop (-1) → start ≤ m →
      m ≤ Window.resolve t.size stop → ∃ front back,
        s.Lists n (.queryFindAll raw start m (-1)) t front ∧
        s.Lists n (.queryFindAll raw m stop (-1)) t back ∧
        s.Lists n (.queryFindAll raw start stop (-1)) t (front ++ back) := by
  have hk := h.kept
  refine ⟨fun start stop limit => ⟨?findAll, ?count, fun hw => ?rows⟩,
    fun start hstart hin => ?first, fun start m stop hw hm hm' => ?cut⟩
  case findAll =>
    refine ⟨accepts_of_succeeds hs (Session.plan_queryFindAll found), fun hw => ?_⟩
    obtain ⟨_, _, s', _, _, -, hc, -⟩ := hk.findAll_lists hs found valid hw
    exact ⟨_, s', hc⟩
  case count =>
    refine ⟨accepts_of_succeeds hs (Session.plan_queryCount found), fun hw => ?_⟩
    obtain ⟨s', hc⟩ := hk.count_answers hs found valid hw
    exact ⟨_, s', hc⟩
  case rows =>
    obtain ⟨rows, hfinds, hmatching⟩ := q.matching_ofAccepted hw
    exact ⟨rows, _, hfinds, hmatching, hk.findAll_lists hs found valid hw,
      hk.count_answers hs found valid hw⟩
  case first =>
    have hw : Window.Accepts t.size start t.size (-1) := by
      unfold Window.Accepts Window.resolve
      split <;> omega
    obtain ⟨rows, hfinds, hlists⟩ := hk.lists_found hs found valid hw
    have hend : Window.resolve t.size t.size = t.size := by
      unfold Window.resolve
      split <;> rfl
    have honward := q.finds_onward (t := t) start.toNat
    rw [Int.toNat_of_nonneg hstart] at honward
    rw [hend] at hfinds
    exact ⟨rows, hlists, hfinds.unique honward ▸ hk.find_answers hs found valid hstart hin⟩
  case cut =>
    have hle := hw.resolve_le
    obtain ⟨hfrom, hin, hstop, horder, hlimit⟩ := hw
    have hm_resolve : Window.resolve t.size m = m := by
      unfold Window.resolve
      split <;> omega
    have hfront : Window.Accepts t.size start m (-1) := by
      refine ⟨hfrom, hin, .inr ⟨by omega, by omega⟩, by omega, hlimit⟩
    have hback : Window.Accepts t.size m stop (-1) := ⟨by omega, by omega, hstop, hm', hlimit⟩
    obtain ⟨front, hfinds, hlists⟩ := hk.lists_found hs found valid hfront
    obtain ⟨back, hfinds', hlists'⟩ := hk.lists_found hs found valid hback
    obtain ⟨rows, hall, hlists''⟩ :=
      hk.lists_found hs found valid ⟨hfrom, hin, hstop, horder, hlimit⟩
    rw [hm_resolve] at hfinds
    rw [hall.unique (hfinds.append hm hm' hfinds')] at hlists''
    exact ⟨front, back, hlists, hlists', hlists''⟩

/-- Two rows of three are found, a limit takes the first of them, and a window that would begin
behind the end is refused. -/
theorem query_windows_limited : ∃ s b session q t, Reachable {} s b ∧
    s.sessions.get? 1 = some session ∧ session.query 0x300000100000000 = .ok (q, t) ∧
    q.predicate.check t = .ok () ∧ q.Finds t 0 3 [1, 2] ∧
    s.Lists 1 (.queryFindAll 0x300000100000000 0 (-1) 1) t [1] ∧
    s.Answers 1 (.queryCount 0x300000100000000 0 (-1) 1) (.number 1) ∧
    ¬s.Succeeds 1 (.queryCount 0x300000100000000 4 (-1) (-1)) := by
  have h := unused_reachable [.openSession 1, .call 1 (.transact .beginWrite),
    .call 1 (.addTable "t"), .call 1 (.addColumn 0x100000100000000 .int "points" true),
    .call 1 (.addEmptyRow 0x100000100000000), .call 1 (.addEmptyRow 0x100000100000000),
    .call 1 (.addEmptyRow 0x100000100000000),
    .call 1 (.setScalar 0x100000100000000 0 1 (.int 1)),
    .call 1 (.setScalar 0x100000100000000 0 2 (.int 1)),
    .call 1 (.whereTable 0x100000100000000),
    .call 1 (.queryFilter 0x300000100000000 (.compare 0 .equal (.int 1) true))]
  obtain ⟨hwindows, -⟩ := h.query_windows (n := 1) rfl
    (show Session.query _ 0x300000100000000 = _ from rfl) rfl
  obtain ⟨rows, listed, hfinds, rfl, hlists, hanswers⟩ :=
    (hwindows 0 (-1) 1).2.2 (by simp [Window.Accepts, Window.resolve])
  obtain rfl : rows = [1, 2] := hfinds.unique (Query.finds_onward 0)
  exact ⟨_, _, _, _, _, h, rfl, rfl, rfl, hfinds, hlists, hanswers, fun hsucceeds =>
    absurd ((hwindows 4 (-1) (-1)).2.1.mp hsucceeds) (by
      rintro ⟨-, hin, -⟩
      exact absurd hin (by decide))⟩

end Service
end SnapshotStore
