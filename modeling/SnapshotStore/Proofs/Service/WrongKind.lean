import SnapshotStore.Proofs.Batches
import SnapshotStore.Proofs.Service.Envelopes
import SnapshotStore.Proofs.Session.Lending

/-!
Envelopes of the wrong kind. An import or a run looks at the kind before it takes the envelope,
so what it rejects stays registered. A batch takes its envelopes first and looks afterwards: one
of the wrong kind costs it all of them.
-/

namespace SnapshotStore

/-! Rejections -/

def PayloadKind.mismatch (held wanted : PayloadKind) : Error :=
  .illegalArgument s!"Handover holds a {held.name}, not a {wanted.name}"

/-- The rejection of a batch for its entry at a position. -/
def PayloadKind.mismatchAt (held : PayloadKind) (position : Nat) : Error :=
  .illegalArgument s!"Batch entry {position} holds a {held.name}, not a Query"

/-- The one envelope that a call takes and the kind that it wants. Batches are not among these
calls. -/
def Call.wants? : Call → Option (UInt64 × PayloadKind)
  | importObject kind h => some (h, kind)
  | run h _ => some (h, .query)
  | _ => none

namespace Connection
variable {c : Connection} {e : Envelope} {kind : PayloadKind} {v : Version}
  {item : BatchItem} {before after : List BatchItem}

theorem checkEnvelope_mismatch (home : e.store = c.store.id) (hkind : e.kind ≠ kind) :
    c.checkEnvelope kind e = .error (e.kind.mismatch kind) := by
  unfold checkEnvelope
  rw [if_neg (not_not_intro home), if_pos hkind]
  rfl

/-- The first entry that is no query decides, if the entries before it are in order. -/
theorem checkBatchFrom_mismatch
    (fits : ∀ item ∈ before, item.envelope.kind = .query ∧ item.envelope.store = c.store.id ∧
      item.envelope.version = v) (hkind : item.envelope.kind ≠ .query) (position : Nat) :
    c.checkBatchFrom v position (before ++ item :: after) =
      .error (item.envelope.kind.mismatchAt (position + before.length)) := by
  induction before generalizing position with
  | nil =>
      have hquery : item.envelope.isQuery = false := decide_eq_false hkind
      have hitem : c.checkBatchItem v position item.envelope =
          .error (item.envelope.kind.mismatchAt position) := by
        unfold checkBatchItem
        rw [hquery]
        rfl
      rw [List.nil_append, checkBatchFrom, hitem]
      rfl
  | cons first before ih =>
      obtain ⟨⟨hquery, home, hversion⟩, hrest⟩ := List.forall_mem_cons.mp fits
      have hfirst : c.checkBatchItem v position first.envelope = .ok () := by
        rw [checkBatchItem_eq (decide_eq_true hquery) hversion, ← hquery]
        exact checkEnvelope_of_home home
      rw [List.cons_append, checkBatchFrom, hfirst, List.length_cons, ← Nat.add_assoc,
        Nat.add_right_comm]
      exact ih hrest (position + 1)

theorem checkBatch_mismatch
    (fits : ∀ item ∈ before, item.envelope.kind = .query ∧ item.envelope.store = c.store.id ∧
      item.envelope.version = v) (hkind : item.envelope.kind ≠ .query) :
    c.checkBatch (before ++ item :: after) =
      .error (item.envelope.kind.mismatchAt before.length) := by
  cases before with
  | nil =>
      have hfrom : c.checkBatchFrom item.envelope.version 0 ([] ++ item :: after) = _ :=
        checkBatchFrom_mismatch (List.forall_mem_nil _) hkind 0
      exact congrArg (Except.map _) hfrom
  | cons first before =>
      obtain rfl := (fits first List.mem_cons_self).2.2
      have hfrom : c.checkBatchFrom _ 0 (first :: before ++ item :: after) = _ :=
        checkBatchFrom_mismatch fits hkind 0
      rw [Nat.zero_add] at hfrom
      exact congrArg (Except.map _) hfrom

end Connection
namespace Workspace
variable {w : Workspace} {raw : UInt64} {e : Envelope} {kind : PayloadKind} {c : Call}
  {raws : List UInt64} {es : List Envelope}

/-! One envelope -/

theorem takeEnvelope_mismatch (hget : w.database.envelopes.get raw = .ok e)
    (home : e.store = w.database.store.id) (hkind : e.kind ≠ kind) :
    takeEnvelope kind raw w = .error (e.kind.mismatch kind) w := by
  have hcheck : w.connection.checkEnvelope kind e = .error (e.kind.mismatch kind) :=
    Connection.checkEnvelope_mismatch home hkind
  refine attempt_run_error.mpr ⟨map_eq_error.mpr ?_, rfl⟩
  simp only [Database.take, hget, bind, Except.bind, hcheck]

/-- A call that takes one envelope leaves it registered if it is of another kind. -/
theorem call_mismatch (hc : c.wants? = some (raw, kind))
    (hget : w.database.envelopes.get raw = .ok e) (home : e.store = w.database.store.id)
    (hkind : e.kind ≠ kind) : call c w = .error (e.kind.mismatch kind) w := by
  cases c <;> simp only [Call.wants?, Option.some.injEq, Prod.mk.injEq, reduceCtorEq] at hc <;>
    obtain ⟨rfl, rfl⟩ := hc
  case importObject => exact bind_of_error (takeEnvelope_mismatch hget home hkind)
  case run => exact bind_of_error (takeEnvelope_mismatch hget home hkind)

theorem takeEnvelope_of_home (hget : w.database.envelopes.get raw = .ok e)
    (home : e.store = w.database.store.id) : ∃ w₁, takeEnvelope e.kind raw w = .ok e w₁ := by
  have hcheck : w.connection.checkEnvelope e.kind e = .ok () :=
    Connection.checkEnvelope_of_home home
  obtain ⟨a, ha⟩ := Arena.remove_of_get hget
  refine ⟨_, attempt_run_ok.mpr (map_eq_ok.mpr ⟨(e, { w.database with envelopes := a }), ?_, rfl⟩)⟩
  simp only [Database.take, hget, bind, Except.bind, hcheck, ha, pure, Except.pure]

/-- An import of its own kind takes an envelope, whatever comes after that. -/
theorem took_import (hget : w.database.envelopes.get raw = .ok e)
    (home : e.store = w.database.store.id) : w.took (.importObject e.kind raw) = [raw] := by
  obtain ⟨w₁, ht⟩ := takeEnvelope_of_home hget home
  obtain ⟨a, ha, rfl⟩ := takeEnvelope_removes ht
  have hafter : (after (call (.importObject e.kind raw)) w).database.envelopes = a := by
    change (after (Operation.takeOver e.kind raw).perform w).database.envelopes = a
    rw [Operation.perform, after_bind_ok ht]
    have hcalm : Calm (do
        forward
        let p ← act (Connection.importAs e.kind e)
        return ⟨.handle (← keep (itemOf p)), none⟩ : Work Outcome) :=
      .bind .forward fun _ => .bind (.act _) fun _ => .bind (.keep _) fun _ => .pure _
    exact hcalm _
  have hbefore : w.database.envelopes.contains raw = true := Arena.contains_iff.mpr ⟨e, hget⟩
  have hgone : a.contains raw = false := Bool.eq_false_iff.mpr fun h => by
    obtain ⟨x, hx⟩ := Arena.contains_iff.mp h
    exact ((Arena.remove_get_iff ha).mp hx).1 rfl
  simp [took, Call.named, hafter, hbefore, hgone]

/-! Batches -/

theorem takeEnvelopes_of_nodup (hnodup : raws.Nodup)
    (hgets : List.Forall₂ (fun raw e => w.database.envelopes.get raw = .ok e) raws es) :
    ∃ w₁, takeEnvelopes raws w = .ok es w₁ := by
  obtain ⟨a, ha⟩ := Database.takeAll_of_nodup hnodup hgets
  exact ⟨_, attempt_run_ok.mpr (map_eq_ok.mpr ⟨_, ha, rfl⟩)⟩

theorem call_batch_unchecked {requests : List (UInt64 × Request)} {w₁ : Workspace} {x : Error}
    (ht : takeEnvelopes (requests.map (·.1)) w = .ok es w₁)
    (hcheck : w₁.counted.connection.checkBatch (batchItems es requests) = .error x) :
    call (.runBatch requests) w = .error x w₁.counted := by
  change (Operation.runBatch requests).perform w = _
  have hforward : forward w₁ = .ok () w₁.counted := rfl
  have hrun : Connection.runBatch (batchItems es requests) w₁.counted.connection =
      .error x w₁.counted.connection :=
    bind_of_error (Connection.ask_of_error hcheck)
  rw [Operation.perform, bind_of_ok ht, bind_of_ok hforward]
  exact bind_of_error (act_run_error.mpr ⟨_, hrun, rfl⟩)

/-- A batch with an entry that is no query has taken all its envelopes when it fails. -/
theorem call_batch_mismatch {requests : List (UInt64 × Request)} {before after : List Envelope}
    {v : Version} (hnodup : (requests.map (·.1)).Nodup)
    (hgets : List.Forall₂ (fun request e => w.database.envelopes.get request.1 = .ok e) requests
      (before ++ e :: after))
    (fits : ∀ e ∈ before, e.kind = .query ∧ e.store = w.database.store.id ∧ e.version = v)
    (hkind : e.kind ≠ .query) : ∃ w',
      call (.runBatch requests) w = .error (e.kind.mismatchAt before.length) w' ∧
        w.database.envelopes.Loses (requests.map (·.1)) w'.database.envelopes := by
  obtain ⟨w₁, ht⟩ := takeEnvelopes_of_nodup hnodup (List.forall₂_map_left_iff.mpr hgets)
  obtain ⟨a, hloses, -, rfl⟩ := takeEnvelopes_removes ht
  refine ⟨_, call_batch_unchecked ht ?_, hloses⟩
  -- The entries before the one that is no query are the items of the envelopes before it.
  have henvelopes := batchItems_envelopes hgets.length_eq.symm
  obtain ⟨items, rest, hsplit, rfl, hrest⟩ := List.map_eq_append_iff.mp henvelopes
  obtain ⟨item, items', rfl, rfl, -⟩ := List.map_eq_cons_iff.mp hrest
  rw [hsplit, List.length_map]
  exact Connection.checkBatch_mismatch (fun item hitem => fits _ (List.mem_map_of_mem hitem)) hkind

end Workspace
namespace Service
variable {settings : Settings} {s : Service} {b : Notebook}

/-- What an import or a run rejects for its kind stays registered, with all else as it was, and
any session can still take it with an import of its own kind. A batch that is rejected for the
kind of an entry has taken all that it names: none of it can be imported, run or closed after
that. An envelope of another store would be rejected for that before its kind is looked at. -/
theorem Reachable.rejected_for_kind (h : Reachable settings s b) (session : Session) :
    (∀ c raw kind e, c.wants? = some (raw, kind) → s.database.envelopes.get raw = .ok e →
      e.store = s.database.store.id → e.kind ≠ kind →
        Workspace.call c (s.workspace session) =
          .error (e.kind.mismatch kind) (s.workspace session) ∧
        ∀ other, (s.workspace other).took (.importObject e.kind raw) = [raw]) ∧
    ∀ requests before e after v, (requests.map (·.1)).Nodup →
      List.Forall₂ (fun request e => s.database.envelopes.get request.1 = .ok e) requests
        (before ++ e :: after) →
      (∀ e ∈ before, e.kind = .query ∧ e.store = s.database.store.id ∧ e.version = v) →
      e.kind ≠ .query → ∃ w',
        Workspace.call (.runBatch requests) (s.workspace session) =
          .error (e.kind.mismatchAt before.length) w' ∧
        ∀ raw ∈ requests.map (·.1), ∀ other c, raw ∈ c.named →
          ∃ x, Workspace.call c ⟨w'.database, other⟩ = .error x ⟨w'.database, other⟩ ∧
            (c.named = [raw] → ∃ k, Handle.decode? raw = some k ∧ x = .alreadyConsumed k.text) := by
  have hstocks := h.kept.envelopes
  constructor
  · intro c raw kind e hc hget home hkind
    refine ⟨Workspace.call_mismatch hc hget home hkind, fun other => ?_⟩
    exact Workspace.took_import (w := s.workspace other) hget home
  · intro requests before e after v hnodup hgets fits hkind
    obtain ⟨w', hcall, hloses⟩ := Workspace.call_batch_mismatch (w := s.workspace session) hnodup
      hgets fits hkind
    refine ⟨w', hcall, fun raw hraw other c hnamed => ?_⟩
    exact Workspace.call_refused (w := ⟨w'.database, other⟩) (hloses.stocks hstocks)
      (hloses.stale hstocks raw hraw) hnamed

/-- A row is not imported as a view, and is there to be imported as a row. -/
theorem row_kept_for_its_kind : ∃ s b session, Reachable {} s b ∧
    s.sessions.get? 1 = some session ∧
    Workspace.call (.importObject .view 0x600000100000001) (s.workspace session) =
      .error (.illegalArgument "Handover holds a Row, not a TableView") (s.workspace session) ∧
    (s.workspace session).took (.importObject .row 0x600000100000001) = [0x600000100000001] := by
  have h := unused_reachable [.openSession 1, .call 1 (.transact .beginWrite),
    .call 1 (.addTable "t"), .call 1 (.addEmptyRow 0x100000100000000),
    .call 1 (.transact .commitAndRead), .call 1 (.whereTable 0x100000100000000),
    .call 1 (.getRow 0x100000100000000 0),
    .call 1 (.exportObject .query 0x300000100000000 .copy),
    .call 1 (.exportObject .row 0x200000100000000 .copy)]
  refine ⟨_, _, _, h, rfl, ?_⟩
  exact ((h.rejected_for_kind _).1 (.importObject .view 0x600000100000001) _ .view _ rfl rfl rfl
    (by decide)).imp id fun htake => htake _

/-- A batch that names a row next to a query destroys both. -/
theorem batch_destroys_rejected : ∃ s b session, Reachable {} s b ∧
    s.sessions.get? 1 = some session ∧ session.context.isWriting = false ∧
    s.database.pendingEnvelopes = 2 ∧
    (s.call 1 (.runBatch [(0x600000100000000, .findAll 0 (-1) (-1)),
      (0x600000100000001, .findAll 0 (-1) (-1))])).map (·.1) =
        some (.error (.illegalArgument "Batch entry 1 holds a Row, not a Query")) ∧
    ((s.make (.call 1 (.runBatch [(0x600000100000000, .findAll 0 (-1) (-1)),
      (0x600000100000001, .findAll 0 (-1) (-1))]))).call 1
        (.importObject .query 0x600000100000000)).map (·.1) =
          some (.error (.alreadyConsumed "Handover@0:1")) ∧
    ((s.make (.call 1 (.runBatch [(0x600000100000000, .findAll 0 (-1) (-1)),
      (0x600000100000001, .findAll 0 (-1) (-1))]))).call 1
        (.importObject .row 0x600000100000001)).map (·.1) =
          some (.error (.alreadyConsumed "Handover@1:1")) := by
  have h := unused_reachable [.openSession 1, .call 1 (.transact .beginWrite),
    .call 1 (.addTable "t"), .call 1 (.addEmptyRow 0x100000100000000),
    .call 1 (.transact .commitAndRead), .call 1 (.whereTable 0x100000100000000),
    .call 1 (.getRow 0x100000100000000 0),
    .call 1 (.exportObject .query 0x300000100000000 .copy),
    .call 1 (.exportObject .row 0x200000100000000 .copy)]
  exact ⟨_, _, _, h, rfl, rfl, rfl, rfl, rfl, rfl⟩

end Service
end SnapshotStore
