import SnapshotStore.Proofs.Service.Envelopes
import SnapshotStore.Proofs.Session.ViewRows
import SnapshotStore.Proofs.View.Order

/-!
A census of the rows of views. An observer notes how many rows the table of a view had when the
rows of the view were found, and copies the number when the view is handed over. A view lists only
rows below its number, whatever becomes of the table. So it can be read and sorted as long as the
table has that many rows.
-/

namespace SnapshotStore

/-- The table that a subject is about. -/
def Subject.tableKey : Subject → TableKey
  | table key | row key _ | columns key _ => key

/-- The numbers for the views that sessions hold and for those in envelopes, slot by slot. -/
structure Census where
  views : Nat → Nat → Nat
  envelopes : Nat → Nat

namespace Census

def opened : Census := ⟨fun _ _ => 0, fun _ => 0⟩

/-- The number for an object that a session has to do with. -/
def noted (k : Census) (n : Nat) (kind : HandleKind) (slot : Nat) : Nat :=
  match kind with
  | .envelope => k.envelopes slot
  | _ => k.views n slot

/-- The number for the view under a handle. -/
def notedOf (k : Census) (n : Nat) (raw : UInt64) : Nat :=
  (Handle.decode? raw).elim 0 fun handle => k.views n handle.slot

/-- The number for a slot after a call. What stays keeps its number, and a copy has that of its
source. All else was found just now. -/
def recount (k : Census) (n : Nat) (w w' : Workspace) (c : Call) (kind : HandleKind)
    (slot : Nat) : Nat :=
  if w.Stays w' (w.refound? c) kind slot then k.noted n kind slot
  else match w.source? c with
    | some (kind, slot) => k.noted n kind slot
    | none => ((w'.shelf kind).held slot).elim 0 fun o =>
        w'.session.context.tableSize o.subject.tableKey

def observe (k : Census) (n : Nat) (w w' : Workspace) (c : Call) : Census where
  views m slot := if m = n then k.recount n w w' c .view slot else k.views m slot
  envelopes := k.recount n w w' c .envelope

/-- The views that a session has to do with list only rows below their numbers. -/
structure Covers (k : Census) (n : Nat) (w : Workspace) : Prop where
  views : ∀ slot g b, w.session.views.live? slot = some (g, b) →
    b.object.Within (k.views n slot)
  envelopes : ∀ slot g e, w.database.envelopes.live? slot = some (g, e) →
    ∀ v, e.payload = .view v → v.Within (k.envelopes slot)

variable {k : Census} {n : Nat} {w w' : Workspace} {c : Call} {kind : HandleKind} {slot : Nat}
  {v : View}

theorem observe_views_self : (k.observe n w w' c).views n slot = k.recount n w w' c .view slot :=
  if_pos rfl

theorem observe_views_of_ne {m : Nat} (h : m ≠ n) :
    (k.observe n w w' c).views m slot = k.views m slot := if_neg h

theorem recount_of_stays (h : w.Stays w' (w.refound? c) kind slot) :
    k.recount n w w' c kind slot = k.noted n kind slot := if_pos h

namespace Covers

/-- A view that was put in lists only rows below the number that is noted for it. -/
theorem drawn (h : k.Covers n w) (hstays : ¬w.Stays w' (w.refound? c) kind slot)
    (hd : w.Draws w' (w.source? c) v) {o : Held} (ho : (w'.shelf kind).held slot = some o)
    (hkey : o.subject.tableKey = v.table) : v.Within (k.recount n w w' c kind slot) := by
  rw [recount, if_neg hstays, ho]
  -- It was found just now, or it is a copy of a view or of one in an envelope.
  unfold Workspace.Draws at hd
  split at hd
  next hsource =>
    rw [hsource, Option.elim_some, hkey]
    exact hd
  next source hsource =>
    obtain ⟨g, b, hb, rfl⟩ := hd
    rw [hsource]
    exact h.views _ g b hb
  next source hsource =>
    obtain ⟨g, e, he, hv⟩ := hd
    rw [hsource]
    exact h.envelopes _ g e he v hv
  next => exact hd.elim

theorem observe (h : k.Covers n w) (hl : w.Leaves w' (w.refound? c) (w.Draws w' (w.source? c))) :
    (k.observe n w w' c).Covers n w' := by
  refine ⟨fun slot g b hb => ?_, fun slot g e he v hv => ?_⟩
  · rw [observe_views_self]
    rcases hl.views slot g b hb with ⟨hstays, b₀, hb₀, hsub⟩ | ⟨hstays, hd⟩
    · rw [recount_of_stays hstays]
      exact (h.views slot g b₀ hb₀).mono hsub
    · have hheld : (w'.shelf .view).held slot = some ⟨g, b.epoch, Denoting.subject b.object⟩ :=
        Option.map_eq_some_iff.mpr ⟨_, hb, rfl⟩
      exact h.drawn hstays hd hheld rfl
  · change v.Within (k.recount n w w' c .envelope slot)
    rcases hl.envelopes slot g e he with ⟨hstays, he₀⟩ | ⟨hstays, hd⟩
    · rw [recount_of_stays hstays]
      exact h.envelopes slot g e he₀ v hv
    · have hheld : (w'.shelf .envelope).held slot = some ⟨g, e.version, e.payload.subject⟩ :=
        Option.map_eq_some_iff.mpr ⟨_, he, rfl⟩
      exact h.drawn hstays (hd v hv) hheld (by rw [hv]; rfl)

end Covers
end Census

namespace Service
variable {settings : Settings} {s : Service} {b : Notebook} {k : Census} {n : Nat}
  {session : Session}

/-- The census after a move. -/
def recount (s : Service) (k : Census) : Move → Census
  | .call number c =>
    match s.sessions.get? number with
    | some session =>
      let w := s.workspace session
      k.observe number w (Workspace.after (Workspace.call c) w) c
    | none => k
  | _ => k

def survey (s : Service) (k : Census) : List Move → Service × Census
  | [] => (s, k)
  | m :: moves => survey (s.make m) (s.recount k m) moves

/-- The services that runs lead to, each with the census of the run. -/
def Surveyed (settings : Settings) (s : Service) (k : Census) : Prop :=
  ∃ id s₀ moves, openNew id settings = .ok s₀ ∧ s₀.survey .opened moves = (s, k)

theorem survey_fst (s : Service) (k : Census) (b : Notebook) (moves : List Move) :
    (s.survey k moves).1 = (s.run b moves).1 := by
  induction moves generalizing s k b with
  | nil => rfl
  | cons m moves ih => exact ih (s.make m) (s.recount k m) (s.observe b m)

/-- A census can be taken on every run. -/
theorem exists_surveyed_iff : (∃ k, Surveyed settings s k) ↔ ∃ b, Reachable settings s b := by
  constructor
  · rintro ⟨k, id, s₀, moves, ho, hr⟩
    refine ⟨_, id, s₀, moves, ho, Prod.ext ?_ rfl⟩
    rw [← s₀.survey_fst .opened, hr]
  · rintro ⟨b, id, s₀, moves, ho, hr⟩
    refine ⟨_, id, s₀, moves, ho, Prod.ext ?_ rfl⟩
    rw [s₀.survey_fst .opened .opened, hr]

theorem unused_surveyed (moves : List Move) :
    Surveyed {} (unused.survey .opened moves).1 (unused.survey .opened moves).2 :=
  ⟨"store", unused, moves, rfl, rfl⟩

/-- All views list only rows below their numbers. -/
structure Covered (s : Service) (k : Census) : Prop where
  views : ∀ n session, s.sessions.get? n = some session →
    ∀ slot g b, session.views.live? slot = some (g, b) → b.object.Within (k.views n slot)
  envelopes : ∀ slot g e, s.database.envelopes.live? slot = some (g, e) →
    ∀ v, e.payload = .view v → v.Within (k.envelopes slot)

namespace Covered

theorem covers (h : s.Covered k) (hs : s.sessions.get? n = some session) :
    k.Covers n (s.workspace session) := ⟨h.views n session hs, h.envelopes⟩

theorem within (h : s.Covered k) (hs : s.sessions.get? n = some session) {raw : UInt64} {v : View}
    {t : Table} (hv : session.view raw = .ok (v, t)) : v.Within (k.notedOf n raw) := by
  obtain ⟨b, hlocate, rfl, -⟩ := Session.lookUp_eq_ok hv
  obtain ⟨handle, hhandle, hlive⟩ := Arena.get_eq_ok.mp hlocate
  rw [Census.notedOf, (Arena.decode_eq_ok hhandle).1, Option.elim_some]
  exact h.views n session hs _ _ b hlive

theorem call (h : s.Covered k) (hk : Kept settings s b) (n : Nat) (c : Call) :
    (s.make (.call n c)).Covered (s.recount k (.call n c)) := by
  cases hs : s.sessions.get? n with
  | none =>
      rw [make_call_none hs]
      simp only [recount, hs]
      exact h
  | some session =>
      rw [make_call hs]
      simp only [recount, hs]
      have hcovers := (h.covers hs).observe
        (Workspace.call_leaves (hk.stocked n session hs) (fun g => hk.numbered hs g) c)
      refine ⟨fun m other hm => ?_, hcovers.envelopes⟩
      -- The views of other sessions stay as they are, and so do their numbers.
      simp only [turned, NatMap.get?_insert] at hm
      split at hm
      next hmn =>
        obtain rfl := Option.some.inj hm
        subst hmn
        exact hcovers.views
      next hmn =>
        intro slot g b hb
        rw [Census.observe_views_of_ne hmn]
        exact h.views m other hm slot g b hb

theorem closeSession (h : s.Covered k) (n : Nat) : (s.closeSession n).Covered k := by
  refine ⟨fun m other hm => ?_, s.closeSession_envelopes n ▸ h.envelopes⟩
  by_cases hmn : m = n
  · subst hmn
    exact nomatch (s.closeSession_get? m).symm.trans hm
  · exact h.views m other ((s.closeSession_get?_ne hmn).symm.trans hm)

/-- A new session holds no views. -/
theorem joined (h : s.Covered k) (n : Nat) : (s.joined n).Covered k := by
  refine ⟨fun m other hm => ?_, h.envelopes⟩
  simp only [Service.joined, NatMap.get?_insert] at hm
  split at hm
  · obtain rfl := Option.some.inj hm
    intro slot g b hb
    simp [Session.new, Arena.live?, Arena.empty] at hb
  next => exact h.views m other hm

theorem make (h : s.Covered k) (hk : Kept settings s b) (m : Move) :
    (s.make m).Covered (s.recount k m) := by
  cases m with
  | openSession n =>
      rw [Service.make, openSession_eq]
      exact (h.closeSession n).joined n
  | closeSession n => exact h.closeSession n
  | call n c => exact h.call hk n c

theorem survey (h : s.Covered k) (hk : Kept settings s b) (moves : List Move) :
    (s.survey k moves).1.Covered (s.survey k moves).2 := by
  induction moves generalizing s k b with
  | nil => exact h
  | cons m moves ih => exact ih (h.make hk m) (hk.make m)

end Covered

theorem openNew_covered {id : String} (h : openNew id settings = .ok s) :
    s.Covered .opened := by
  obtain ⟨database, hd, rfl⟩ := map_eq_ok.mp h
  obtain ⟨store, -, rfl⟩ := map_eq_ok.mp hd
  exact ⟨by simp, by simp [Arena.live?, Arena.empty]⟩

theorem Surveyed.covered (h : Surveyed settings s k) : s.Covered k := by
  obtain ⟨id, s₀, moves, ho, hr⟩ := h
  have hcovered := (openNew_covered ho).survey (kept_openNew ho) moves
  rwa [hr] at hcovered

/-- What an attached view is good for whose rows were found in a table of the given size. -/
structure AttachedView (w : Workspace) (raw : UInt64) (count : Nat) (v : View) (t : Table) :
    Prop where
  view : w.session.view raw = .ok (v, t)
  table : ∃ g, w.session.context.group = .ok g ∧ g.table? v.table = some t
  within : v.Within count
  /-- A cell in a row that the table still has is read. -/
  there : ∀ column position row : Nat, column < t.columnCount → v.rows[position]? = some row →
    row < t.size → ∃ x, t.get column row = .ok x ∧
      Workspace.call (.viewGet raw column position) w = .ok ⟨.value x, none⟩ w.counted
  /-- A cell in a row that is gone is out of range. -/
  gone : ∀ column position row : Nat, column < t.columnCount → v.rows[position]? = some row →
    t.size ≤ row → Workspace.call (.viewGet raw column position) w =
      .error (.rowOutOfRange (Error.signed row) t.size false) w.counted
  /-- All cells of the view are read while there are as many rows as there were. -/
  read : count ≤ t.size → ∀ column position : Nat, column < t.columnCount → position < v.size →
    ∃ x, Workspace.call (.viewGet raw column position) w = .ok ⟨.value x, none⟩ w.counted
  /-- A sort compares cells that exist then, -/
  compared : count ≤ t.size → ∀ keys sorting, Request.checkKeys t keys = .ok sorting →
    (∀ key ∈ sorting, ∀ row ∈ v.rows, ∃ x, t.get key.column row = .ok x) ∧
      Std.TransCmp fun a b : {row // row ∈ v.rows} => SortKey.compareAll t sorting a b
  /-- and brings all the rows in order. -/
  sorted : count ≤ t.size → ∀ keys sorting, Request.checkKeys t keys = .ok sorting →
    ∃ w' v', (∀ d, Workspace.call (.viewSort raw keys d) w = .ok ⟨.nothing, none⟩ w') ∧
      w'.session.view raw = .ok (v', t) ∧ v'.rows.Perm v.rows ∧
      v'.rows.Pairwise fun a b => (SortKey.compareAll t sorting a b).isLE

/-- An attached view lists only rows below the size that its table had when they were found. Those
that are still there can be read and the others are out of range; and if the table has as many rows
as then, the view can be read as a whole and be sorted. -/
theorem Surveyed.attached_view_within_count (h : Surveyed settings s k)
    (hs : s.sessions.get? n = some session) (raw : UInt64)
    (ha : session.isAttached session.views raw = .ok true) :
    ∃ v t, AttachedView (s.workspace session) raw (k.notedOf n raw) v t := by
  obtain ⟨b, hb⟩ := exists_surveyed_iff.mp ⟨k, h⟩
  have hk := hb.kept
  obtain ⟨v, t, hv⟩ := Session.view_of_attached ha
  obtain ⟨hkey, g, hg, ht⟩ := Session.lookUp_seen (fun g => hk.numbered hs g) hv
  have hseen : g.table? v.table = some t := by
    rw [← ht, hkey]
    rfl
  have hwithin := h.covered.within hs hv
  -- With enough rows in the table nothing that the view lists is missing.
  have hthere (henough : k.notedOf n raw ≤ t.size) : v.Within t.size := fun row hrow =>
    Nat.lt_of_lt_of_le (hwithin row hrow) henough
  refine ⟨v, t, hv, ⟨g, hg, hseen⟩, hwithin, ?there, ?gone, ?read, ?compared, ?sorted⟩
  case there =>
    exact fun _ _ _ => Workspace.viewGet_there (w := s.workspace session) hv
  case gone =>
    exact fun _ _ _ => Workspace.viewGet_gone (w := s.workspace session) hv
  case read =>
    intro henough column position hcolumn hposition
    obtain ⟨row, hrow⟩ : ∃ row, v.rows[position]? = some row :=
      ⟨_, List.getElem?_eq_getElem hposition⟩
    obtain ⟨x, -, hcall⟩ := Workspace.viewGet_there (w := s.workspace session) hv hcolumn hrow
      (hthere henough row (List.mem_of_getElem? hrow))
    exact ⟨x, hcall⟩
  case compared =>
    intro henough keys sorting hkeys
    exact ⟨fun key hkey row hrow =>
      SortKey.cells_of_checkKeys hkeys key hkey row (hthere henough row hrow),
      SortKey.compareAll_trans (hthere henough)⟩
  case sorted =>
    intro henough keys sorting hkeys
    have horders : SortKey.Orders t sorting v.rows := SortKey.orders_of_there (hthere henough)
    obtain ⟨w', hcall, hv'⟩ := Workspace.viewSort_sorts (hk.stocked n session hs) hv hkeys horders
    exact ⟨w', _, hcall, hv', SortKey.sort_perm t sorting v.rows, SortKey.sort_sorted horders⟩

/-- A table with two rows left out of three that a view lists. -/
def shrinking : List Move := [.openSession 1, .call 1 (.transact .beginWrite),
  .call 1 (.addTable "x"), .call 1 (.addColumn 0x100000100000000 .int "a" false),
  .call 1 (.addEmptyRow 0x100000100000000), .call 1 (.addEmptyRow 0x100000100000000),
  .call 1 (.addEmptyRow 0x100000100000000), .call 1 (.setScalar 0x100000100000000 0 0 (.int 1)),
  .call 1 (.whereTable 0x100000100000000), .call 1 (.queryFindAll 0x300000100000000 0 (-1) (-1)),
  .call 1 (.removeRow 0x100000100000000 2)]

/-- With one more row all that the view lists is there again. -/
theorem refilled_view_sorted : ∃ s k session t w' v', Surveyed {} s k ∧
    s.sessions.get? 1 = some session ∧
    session.isAttached session.views 0x400000100000000 = .ok true ∧
    k.notedOf 1 0x400000100000000 = 3 ∧ t.size = 3 ∧
    (∃ x, Workspace.call (.viewGet 0x400000100000000 0 2) (s.workspace session) =
      .ok ⟨.value x, none⟩ (s.workspace session).counted) ∧
    (∀ d, Workspace.call (.viewSort 0x400000100000000 [(0, true)] d) (s.workspace session) =
      .ok ⟨.nothing, none⟩ w') ∧ w'.session.view 0x400000100000000 = .ok (v', t) ∧
    v'.rows.Perm [0, 1, 2] ∧
    v'.rows.Pairwise fun a b => (SortKey.compareAll t [⟨0, true⟩] a b).isLE := by
  have h := unused_surveyed (shrinking ++ [.call 1 (.addEmptyRow 0x100000100000000)])
  obtain ⟨v, t, hattached⟩ := h.attached_view_within_count (n := 1) rfl 0x400000100000000 rfl
  obtain ⟨rfl, rfl⟩ := Prod.mk.inj (Except.ok.inj hattached.view)
  have henough : 3 ≤ 3 := Nat.le_refl 3
  obtain ⟨w', v', hcall, hv', hperm, hsorted⟩ :=
    hattached.sorted henough [(0, true)] [⟨0, true⟩] rfl
  exact ⟨_, _, _, _, w', v', h, rfl, rfl, rfl, rfl, hattached.read henough 0 2
    (of_decide_eq_true rfl) (of_decide_eq_true rfl), hcall, hv', hperm, hsorted⟩

/-- A view stays attached when its rows go. Then it has a cell that is out of range, and the order
that it is sorted in is none: the row that is gone is equal to two rows that are not equal. -/
theorem view_outlives_its_rows : ∃ s b session v t, Reachable {} s b ∧
    s.sessions.get? 1 = some session ∧
    session.isAttached session.views 0x400000100000000 = .ok true ∧
    session.view 0x400000100000000 = .ok (v, t) ∧ v.rows = [0, 1, 2] ∧ t.size = 2 ∧
    t.columnCount = 1 ∧
    Workspace.call (.viewGet 0x400000100000000 0 2) (s.workspace session) =
      .error (.rowOutOfRange 2 2 false) (s.workspace session).counted ∧
    Request.checkKeys t [(0, true)] = .ok [⟨0, true⟩] ∧
    ¬Std.TransCmp fun a b : {row // row ∈ v.rows} => SortKey.compareAll t [⟨0, true⟩] a b := by
  refine ⟨_, _, _, _, _, unused_reachable shrinking, rfl, rfl, rfl, rfl, rfl, rfl, rfl, rfl,
    fun htrans => ?_⟩
  have hle := htrans.isLE_trans (a := ⟨0, .head _⟩) (b := ⟨2, .tail _ (.tail _ (.head _))⟩)
    (c := ⟨1, .tail _ (.head _)⟩) rfl rfl
  exact Bool.noConfusion hle

end Service
end SnapshotStore
