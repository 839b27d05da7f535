import SnapshotStore.Proofs.Service.OpenEnd
import SnapshotStore.Proofs.Service.Windows
import SnapshotStore.Proofs.Session.Filters

/-!
Filters on the query of a handle, while its session and others go on with whatever they do. The
query is the one of all rows with the accepted filters put on it, in their order, and no other call
has a part in it. So a row is found if it satisfies all of these, whatever their order was, and as
long as the table has the same columns each filter stands or falls by itself.
-/

namespace SnapshotStore
namespace Service

/-- The filter that a move puts on the query of a handle, if the session accepts it. -/
def filter? (s : Service) (n : Nat) (raw : UInt64) : Move → Option Predicate
  | .call m (.queryFilter h p) =>
    if m = n ∧ h = raw ∧ (s.call m (.queryFilter h p)).any (·.1.isOk) then some p else none
  | _ => none

/-- The filters that moves put on the query of a handle, in their order. -/
def filters (n : Nat) (raw : UInt64) : Service → List Move → List Predicate
  | _, [] => []
  | s, m :: moves => (s.filter? n raw m).toList ++ filters n raw (s.make m) moves

/-- Before each of the moves, the table of the query of a handle has the given columns, if the query
is attached then. -/
def Steady (n : Nat) (raw : UInt64) (columns : List Column) : Service → List Move → Prop
  | _, [] => True
  | s, m :: moves => (∀ session q t, s.sessions.get? n = some session →
      session.query raw = .ok (q, t) → t.columns = columns) ∧ Steady n raw columns (s.make m) moves

variable {settings : Settings} {s s₁ s₂ : Service} {b b₂ : Notebook} {n slot g : Nat}
  {session session' session₁ session₂ : Session} {m : Move} {x : Bound Query} {raw : UInt64}
  {p : Predicate} {columns : List Column}

theorem any_isOk_iff {c : Call} : (s.call n c).any (·.1.isOk) = true ↔ s.Succeeds n c := by
  unfold Succeeds
  cases s.call n c with
  | none => simp
  | some r =>
      obtain ⟨result, s'⟩ := r
      cases result <;> simp [Except.isOk, Except.toBool]

theorem filter?_eq_some : s.filter? n raw m = some p ↔
    m = .call n (.queryFilter raw p) ∧ s.Succeeds n (.queryFilter raw p) := by
  unfold filter?
  split
  next k h p' =>
    simp only [any_isOk_iff, Option.ite_none_right_eq_some, Option.some.injEq, Move.call.injEq,
      Call.queryFilter.injEq]
    constructor
    · rintro ⟨⟨rfl, rfl, hsucceeds⟩, rfl⟩
      exact ⟨⟨rfl, rfl, rfl⟩, hsucceeds⟩
    · rintro ⟨⟨rfl, rfl, rfl⟩, hsucceeds⟩
      exact ⟨⟨rfl, rfl, hsucceeds⟩, rfl⟩
  next hnot =>
    simp only [reduceCtorEq, false_iff, not_and]
    rintro rfl
    exact absurd rfl (hnot n raw p)

/-- A filter that is accepted passed the check on the table that it was put to. -/
theorem check_of_succeeds (h : s.Succeeds n (.queryFilter raw p)) : ∃ session q t,
    s.sessions.get? n = some session ∧ session.query raw = .ok (q, t) ∧ p.check t = .ok () := by
  obtain ⟨out, s', hc⟩ := h
  cases hs : s.sessions.get? n with
  | none => simp [call, hs] at hc
  | some session =>
      obtain ⟨w', hw, -⟩ := call_eq_ok hs hc
      obtain ⟨operation, hplan, -⟩ := Workspace.call_ok_iff.mp hw
      obtain ⟨⟨q, t⟩, found, hplan⟩ := bind_eq_ok.mp hplan
      obtain ⟨_, hcheck, -⟩ := bind_eq_ok.mp hplan
      exact ⟨session, q, t, rfl, found,
        (Predicate.check_narrow_eq_ok.mp (Query.check_predicate hcheck)).2⟩

/-- While the columns stay the same, every filter that is accepted is valid for all tables with
these columns. -/
theorem filters_valid {moves : List Move} (steady : Steady n raw columns s moves) :
    ∀ p ∈ filters n raw s moves, ∀ t : Table, t.columns = columns → p.check t = .ok () := by
  induction moves generalizing s with
  | nil => exact fun p hp => absurd hp List.not_mem_nil
  | cons m moves ih =>
      obtain ⟨hnow, hlater⟩ := steady
      intro p hp t ht
      rcases List.mem_append.mp hp with hp | hp
      · obtain ⟨rfl, hsucceeds⟩ := filter?_eq_some.mp (Option.mem_toList.mp hp)
        obtain ⟨session, q, t', hs, found, hcheck⟩ := check_of_succeeds hsucceeds
        rwa [Predicate.check_of_columns (ht.trans (hnow session q t' hs found).symm)]
      · exact ih hlater p hp t ht

namespace Kept

/-- What one move makes of a query that a session holds. -/
theorem query_stays (hk : Kept settings s b) (hs : s.sessions.get? n = some session)
    (hm : ¬m.Ends n) (hs' : (s.make m).sessions.get? n = some session')
    (hslot : slot < 0x100000000) (hg : g < 0x1000000)
    (hx : session.queries.live? slot = some (g, x)) : session'.queries.generation slot ≠ g ∨
      ∃ x', session'.queries.live? slot = some (g, x') ∧ x'.object = x.object.filterAll
        (s.filter? n (Handle.ofParts .query slot g).encode m).toList := by
  have hstocked := hk.stocked n session hs
  have hstocked' := (hk.make m).stocked n session' hs'
  have ho : ((s.workspace session).shelf .query).held slot =
      some ⟨g, x.epoch, Denoting.subject x.object⟩ := Option.map_eq_some_iff.mpr ⟨_, hx, rfl⟩
  have hkind : HandleKind.query ≠ .envelope := nofun
  rcases hk.stays hs hm hs' hkind ho with ⟨ho', -⟩ | hne
  case inr => exact .inl (Arena.live?_generation hx ▸ hne)
  obtain ⟨⟨g', x'⟩, hx', he⟩ := Option.map_eq_some_iff.mp ho'
  obtain ⟨rfl, -, -⟩ := Held.mk.inj he
  refine .inr ⟨x', hx', ?_⟩
  by_cases hown : ∃ c, m = .call n c
  · obtain ⟨c, rfl⟩ := hown
    rw [make_call hs] at hs'
    obtain rfl := Option.some.inj (hs'.symm.trans (NatMap.get?_insert_self ..))
    rcases Workspace.call_filters hstocked c ((hstocked.queries.get_ofParts hslot hg).mpr hx)
      ((hstocked'.queries.get_ofParts hslot hg).mpr hx') with
      ⟨p, out, w', rfl, hw, hx'⟩ | ⟨rfl, hnone⟩
    · have hsome : s.filter? n (Handle.ofParts .query slot g').encode _ = some p :=
        filter?_eq_some.mpr ⟨rfl, out, s.turned n w', by rw [call_eq hs, hw]⟩
      rw [hx', hsome]
      rfl
    · have hfilter : s.filter? n (Handle.ofParts .query slot g').encode (.call n c) = none := by
        refine Option.eq_none_iff_forall_ne_some.mpr fun p hp => ?_
        obtain ⟨hc, out, s', hsucceeds⟩ := filter?_eq_some.mp hp
        obtain ⟨-, rfl⟩ := Move.call.inj hc
        obtain ⟨w', hw, -⟩ := call_eq_ok hs hsucceeds
        obtain ⟨e, w'', hfails⟩ := hnone p rfl
        exact nomatch hw.symm.trans hfails
      rw [hfilter]
      rfl
  · have hfilter : s.filter? n (Handle.ofParts .query slot g').encode m = none :=
      Option.eq_none_iff_forall_ne_some.mpr fun p hp =>
        hown ⟨_, (filter?_eq_some.mp hp).1⟩
    rcases session_of_make hs hm hs' with rfl | ⟨c, rfl, -⟩
    · obtain ⟨-, rfl⟩ := Prod.mk.inj (Option.some.inj (hx.symm.trans hx'))
      rw [hfilter]
      rfl
    · exact absurd ⟨c, rfl⟩ hown

/-- What a whole run makes of it: the accepted filters are put on it, one after the other. -/
theorem query_lasts {moves : List Move} (hk : Kept settings s b)
    (hs : s.sessions.get? n = some session) (hl : Lasts n s moves) (hslot : slot < 0x100000000)
    (hg : g < 0x1000000) {q : Query} (h : g < session.queries.generation slot ∨
      ∃ x, session.queries.live? slot = some (g, x) ∧ x.object = q) : ∃ session',
      (s.run b moves).1.sessions.get? n = some session' ∧
      (g < session'.queries.generation slot ∨ ∃ x, session'.queries.live? slot = some (g, x) ∧
        x.object = q.filterAll (filters n (Handle.ofParts .query slot g).encode s moves)) := by
  induction moves generalizing s b session q with
  | nil => exact ⟨session, hs, h⟩
  | cons m moves ih =>
      obtain ⟨hends, hgen, hrest⟩ := hl
      obtain ⟨session', hs'⟩ := hk.remains hs hends
      have hle : session.queries.generation slot ≤ session'.queries.generation slot :=
        hgen session session' hs hs' .query slot
      rw [filters, Query.filterAll_append]
      refine ih (hk.make m) hs' hrest ?_
      -- Generations never fall, so a slot that is past the handle stays past it.
      rcases h with hlt | ⟨x, hx, rfl⟩
      · exact .inl (Nat.lt_of_lt_of_le hlt hle)
      · rcases hk.query_stays hs hends hs' hslot hg hx with hne | hstays
        · rw [Arena.live?_generation hx] at hle
          exact .inl (Nat.lt_of_le_of_ne hle hne.symm)
        · exact .inr hstays

/-- A query is put under its handle, and every row of its table matches it. -/
theorem issued_query {h : UInt64} {out : Outcome} (hk : Kept settings s b)
    (hs : s.sessions.get? n = some session)
    (made : s.call n (.whereTable h) = some (.ok out, s₁))
    (hs₁ : s₁.sessions.get? n = some session₁) (room : (s₁.workspace session₁).Addressable) :
    ∃ slot g t x, out.reply = .handle (Handle.ofParts .query slot g).encode ∧
      slot < 0x100000000 ∧ g < 0x1000000 ∧ session₁.queries.live? slot = some (g, x) ∧
      x.object = .ofTable t := by
  obtain ⟨w', hw, -, hmake, hs'⟩ := call_eq_ok hs made
  obtain rfl := Option.some.inj (hs₁.symm.trans hs')
  have hk₁ := hmake ▸ hk.call n (.whereTable h)
  obtain ⟨t, slot, g, x, -, hreply, hx, hobject⟩ :=
    Workspace.call_whereTable (hk.stocked n session hs) hw
  refine ⟨slot, g, t, x, hreply, room .query slot ?_, ?_, hx, hobject⟩
  · change ((w'.session.queries.live? slot).map _).isSome
    rw [hx, Option.map_some, Option.isSome_some]
  · exact Arena.live?_generation hx ▸ (hk₁.stocked n w'.session hs₁).generation_lt .query slot

/-- Whether a filter is accepted is up to the filter alone, if the query was valid before, and what
is refused changes nothing. -/
theorem filter_judged {q : Query} {t : Table} (hk : Kept settings s b)
    (hs : s.sessions.get? n = some session) (found : session.query raw = .ok (q, t))
    (valid : q.predicate.check t = .ok ()) (p : Predicate) :
    (p.check t = .ok () → s.Succeeds n (.queryFilter raw p)) ∧
    ∀ e, p.check t = .error e → s.call n (.queryFilter raw p) = some (.error e, s) := by
  obtain ⟨hkey, hepoch⟩ := Session.query_suits (fun g => hk.numbered hs g) found
  have hcheck : (q.filter p).check t = p.check t :=
    (Query.check_of_suits (q := q.filter p) hkey hepoch).trans
      (Predicate.check_narrow_of_valid valid)
  constructor
  · intro hp
    obtain ⟨queries, -, hcall⟩ := Workspace.queryFilter_filters (w := s.workspace session) found
      (hcheck.trans hp)
    exact ⟨_, _, by rw [call_eq hs, hcall]⟩
  · intro e hp
    refine call_unchanged_of_error hs ?_
    have hplan : session.plan (.queryFilter raw p) = .error e := by
      simp only [Session.plan, found, bind, Except.bind, hcheck, hp]
    simp only [Workspace.call, workspace, hplan]

end Kept

/-- How a session goes on with a query of a table that it has given some filters. -/
structure Conjoins (s : Service) (n : Nat) (raw : UInt64) (t : Table) (given : List Predicate) :
    Prop where
  /-- A filter that is valid for the table by itself is accepted. -/
  accepted : ∀ p, p.check t = .ok () → s.Succeeds n (.queryFilter raw p)
  /-- Any other filter is refused and changes nothing. -/
  refused : ∀ p e, p.check t = .error e → s.call n (.queryFilter raw p) = some (.error e, s)
  /-- The rows that the query finds are those found with the filters given in any other order. -/
  reordered : ∀ ps, ps.Perm given → ∀ start stop limit : Int,
    Window.Accepts t.size start stop limit → ∃ rows,
      ((Query.ofTable t).filterAll ps).Finds t start (Window.resolve t.size stop) rows ∧
      s.Lists n (.queryFindAll raw start stop limit) t
        (if limit = -1 then rows else rows.take limit.toNat)

/-- Filters accumulate as a conjunction. A row matches a query that was made of a table if and only
if it satisfies every filter that the session has accepted since. And if the table had the columns
that it has now at every filter, then each filter is judged by itself and their order is all one. -/
theorem Reachable.filters_conjoin {h : UInt64} {out : Outcome} {moves : List Move}
    (reachable : Reachable settings s b) (hs : s.sessions.get? n = some session)
    (made : s.call n (.whereTable h) = some (.ok out, s₁))
    (hs₁ : s₁.sessions.get? n = some session₁) (room : (s₁.workspace session₁).Addressable)
    (lasts : Lasts n s₁ moves)
    (ran : s₁.run (s.observe b (.call n (.whereTable h))) moves = (s₂, b₂))
    (hs₂ : s₂.sessions.get? n = some session₂) : ∃ raw, out.reply = .handle raw ∧
      ∀ q t, session₂.query raw = .ok (q, t) →
        (∀ row, q.matchesRow t row = true ↔ ∃ r, t.rows[row]? = some r ∧
          ∀ p ∈ filters n raw s₁ moves, p.Satisfied r) ∧
        (Steady n raw t.columns s₁ moves → s₂.Conjoins n raw t (filters n raw s₁ moves)) := by
  have hk := reachable.kept
  obtain ⟨slot, g, t₀, x, hreply, hslot, hg, hx, hobject⟩ := hk.issued_query hs made hs₁ room
  obtain ⟨-, -, -, hmake, -⟩ := call_eq_ok hs made
  have hk₁ := hmake ▸ hk.call n (.whereTable h)
  have hk₂ := hk₁.run moves
  obtain ⟨session', hs', hlasts⟩ :=
    hk₁.query_lasts hs₁ lasts hslot hg (.inr ⟨x, hx, hobject⟩)
  rw [ran] at hk₂ hs'
  obtain rfl := Option.some.inj (hs₂.symm.trans hs')
  refine ⟨_, hreply, fun q t found => ?_⟩
  -- The handle is still good, so its slot has not moved on.
  obtain ⟨x₂, hx₂, rfl⟩ := Session.lookUp_live hslot hg found
  rcases hlasts with hlt | ⟨x', hx', hfiltered⟩
  case inl => exact absurd (Arena.live?_generation hx₂) (Nat.ne_of_gt hlt)
  obtain ⟨-, rfl⟩ := Prod.mk.inj (Option.some.inj (hx₂.symm.trans hx'))
  refine ⟨fun row => ?satisfied, fun steady => ?steady⟩
  case satisfied =>
    rw [Query.matchesRow_iff, hfiltered]
    simp only [Query.satisfied_ofTable]
  case steady =>
    have valid : x₂.object.predicate.check t = .ok () := by
      rw [hfiltered, Query.check_ofTable]
      exact fun p hp => filters_valid steady p hp t rfl
    refine ⟨fun p => (hk₂.filter_judged hs₂ found valid p).1,
      fun p => (hk₂.filter_judged hs₂ found valid p).2, fun ps hperm start stop limit hw => ?_⟩
    obtain ⟨rows, hfinds, hmatching⟩ := x₂.object.matching_ofAccepted hw
    refine ⟨rows, hfinds.of_satisfied fun cells => ?_,
      hmatching ▸ hk₂.findAll_lists hs₂ found valid hw⟩
    rw [hfiltered, Query.satisfied_ofTable, Query.satisfied_ofTable]
    exact forall_congr' fun p => by rw [hperm.mem_iff]

/-- Three filters are accepted, of which one is an empty conjunction, and one of text on a column of
numbers is refused. In the opposite order they find the same. -/
theorem conjoined_in_any_order : ∃ (s : Service) (session : Session) (q : Query) (t : Table),
    s.sessions.get? 1 = some session ∧ session.query 0x300000100000000 = .ok (q, t) ∧
    s.call 1 (.queryFilter 0x300000100000000 (.compare 0 .beginsWith (.string "1") true)) =
      some (.error (.typeMismatch 0 .string "Int"), s) ∧
    ((Query.ofTable t).filterAll [.compare 0 .less (.int 5) true,
      .not (.compare 0 .isNull .null true), .and []]).Finds t 0 3 [2] ∧
    s.Lists 1 (.queryFindAll 0x300000100000000 0 (-1) (-1)) t [2] := by
  have h := unused_reachable [.openSession 1, .call 1 (.transact .beginWrite),
    .call 1 (.addTable "t"), .call 1 (.addColumn 0x100000100000000 .int "points" true),
    .call 1 (.addEmptyRow 0x100000100000000), .call 1 (.addEmptyRow 0x100000100000000),
    .call 1 (.addEmptyRow 0x100000100000000),
    .call 1 (.setScalar 0x100000100000000 0 1 (.int 7)),
    .call 1 (.setScalar 0x100000100000000 0 2 (.int 1))]
  obtain ⟨raw, hraw, hfilters⟩ := h.filters_conjoin (n := 1) rfl
    (show Service.call _ 1 (.whereTable 0x100000100000000) = _ from rfl) rfl
    (by
      intro kind slot hheld
      cases kind <;> rcases slot with _ | slot <;>
        first | exact of_decide_eq_true rfl | exact absurd hheld Bool.false_ne_true)
    (show Lasts 1 _ [.call 1 (.queryFilter 0x300000100000000 (.and [])),
        .call 1 (.queryFilter 0x300000100000000 (.compare 0 .beginsWith (.string "1") true)),
        .call 1 (.queryFilter 0x300000100000000 (.not (.compare 0 .isNull .null true))),
        .call 1 (.queryFilter 0x300000100000000 (.compare 0 .less (.int 5) true))] by
      refine ⟨id, ?_, id, ?_, id, ?_, id, ?_, trivial⟩ <;>
        · rintro session session' ⟨⟩ ⟨⟩ kind slot
          cases kind <;> rcases slot with _ | slot <;> exact Nat.le_refl _)
    rfl rfl
  obtain rfl := Reply.handle.inj hraw
  obtain ⟨-, hsteady⟩ := hfilters _ _ rfl
  have hconjoins := hsteady (by
    refine ⟨?_, ?_, ?_, ?_, trivial⟩ <;>
      · rintro session q t ⟨⟩ ⟨⟩
        rfl)
  obtain ⟨rows, hrows, hlists⟩ := hconjoins.reordered _
    (List.reverse_perm _) 0 (-1) (-1) (by simp [Window.Accepts, Window.resolve])
  obtain rfl : rows = [2] := hrows.unique (Query.finds_onward 0)
  exact ⟨_, _, _, _, rfl, rfl, hconjoins.refused _ _ rfl, hrows, hlists⟩

end Service
end SnapshotStore
