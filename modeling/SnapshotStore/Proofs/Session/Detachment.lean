import SnapshotStore.Proofs.Service.Target
import SnapshotStore.Proofs.Session.Filing
import SnapshotStore.Proofs.Session.Lending

/-!
Handles whose transaction is over. The end of a transaction raises the epoch of the session and
files nothing, so all that the session holds is bound to epochs that are over. What stands under
a handle stays so until the handle is issued again, and calls on the handle stop at their plan.
-/

namespace SnapshotStore

/-- The handle whose object a call asks about, which need not be attached. -/
def Call.asks? : Call → Option (HandleKind × UInt64)
  | isTableAttached h => some (.table, h)
  | isRowAttached h => some (.row, h)
  | isViewAttached h => some (.view, h)
  | _ => none

/-! Looking up what is bound to another epoch -/

theorem Bound.resolve_of_epoch_ne {α : Type} [Anchored α] {b : Bound α} {c : Context}
    (h : b.epoch ≠ c.epoch) : b.resolve c = .error (.detached (Anchored.kind α).name) := by
  simp [resolve, h.symm]

theorem Arena.Stocks.get_handle {α : Type} {a : Arena α} {k : Handle} {raw : UInt64}
    (h : a.Stocks k.kind) (hk : k.kind ≠ .envelope) (hdecode : Handle.decode? raw = some k) :
    (∃ x, a.get raw = .ok x ∧ a.live? k.slot = some (k.generation, x)) ∨
      a.get raw = .error (.detached k.kind.name) := by
  cases hget : a.get raw with
  | ok x =>
      obtain ⟨k', hdecode', -, hlive⟩ := h.get_iff.mp hget
      obtain rfl := Option.some.inj (hdecode.symm.trans hdecode')
      exact .inl ⟨x, rfl, hlive⟩
  | error e =>
      obtain ⟨k', hdecode', hlocate⟩ :=
        stale_of_get_ne hdecode h.kind.symm fun x hx => by simp [hget] at hx
      obtain rfl := Option.some.inj (hdecode.symm.trans hdecode')
      obtain rfl := Except.error.inj (hget.symm.trans (get_eq_error.mpr hlocate))
      rw [stale, h.kind]
      cases hkind : k.kind with
      | envelope => exact absurd hkind hk
      | table | row | query | view | linkList => exact .inr rfl

namespace Session
variable {α : Type} [Anchored α] [Denoting α] {s : Session} {a : Arena (Bound α)} {k : Handle}
  {raw : UInt64}

theorem lookUp_of_expired (hdecode : Handle.decode? raw = some k) (ha : a.Stocks k.kind)
    (hk : k.kind ≠ .envelope) (hanchored : Anchored.kind α = k.kind)
    (h : ∀ o, a.shelf.held k.slot = some o → o.generation = k.generation →
      o.bound < s.context.epoch) :
    s.lookUp a raw = .error (.detached k.kind.name) ∧ s.isAttached a raw = .ok false := by
  rcases ha.get_handle hk hdecode with ⟨x, hget, hlive⟩ | hget
  · have hlt : x.epoch < s.context.epoch := h _ (congrArg (Option.map _) hlive) rfl
    have hresolve := Bound.resolve_of_epoch_ne (Nat.ne_of_lt hlt)
    rw [hanchored] at hresolve
    constructor
    · simp only [lookUp, hget, bind, Except.bind, hresolve]
    · simp only [isAttached, hget, Bound.isAttached, hresolve]
      rfl
  · constructor
    · simp only [lookUp, hget, bind, Except.bind]
    · simp only [isAttached, hget]
      rfl

end Session
namespace Workspace
variable {w w' : Workspace} {c : Call} {k : Handle} {d : Deed} {raw : UInt64}
  {raws : List UInt64}

/-! Ends of transactions -/

/-- The call ends the transaction that the session has open. -/
inductive Ends (w : Workspace) : Call → Prop
  | endRead (reading : w.session.context.isReading) : Ends w (.transact .endRead)
  | commit (writing : w.session.context.isWriting) : Ends w (.transact .commit)
  | rollback (writing : w.session.context.isWriting) : Ends w (.transact .rollback)
  | lent {c : Call} (reading : w.session.context.isReading) (lends : w.lends c) : Ends w c
  /-- Whatever leaves the session idle, such as a commit to go on reading that fails. -/
  | left {c : Call} (inTransaction : w.session.context.isInTransaction)
      (idle : (after (call c) w).session.context.state = .idle) : Ends w c

theorem after_transact (t : Transition) (w : Workspace) :
    (after (call (.transact t)) w).session.context =
      (Connection.after t.perform w.counted.connection).context := by
  cases h : t.perform w.counted.connection with
  | ok a c =>
      rw [after_ok (call_transact_ok h), Connection.after_ok h]
      rfl
  | error e c =>
      rw [after_error (call_transact_error h), Connection.after_error h]
      rfl

theorem Ends.epoch_lt (h : w.Ends c)
    (hcourse : w.connection.Course d (after (call c) w).connection) :
    w.session.context.epoch < (after (call c) w).session.context.epoch := by
  have hrests : w.session.context.isInTransaction →
      (after (call c) w).session.context.state = .idle → _ := hcourse.proceeds.epoch_lt
  cases h with
  | endRead reading =>
      refine hrests (Context.isInTransaction_of_reading reading) ?_
      rw [after_transact]
      exact Connection.endRead_rests reading
  | commit writing =>
      refine hrests (Context.isInTransaction_of_writing writing) ?_
      rw [after_transact]
      exact Connection.commit_rests writing
  | rollback writing =>
      refine hrests (Context.isInTransaction_of_writing writing) ?_
      rw [after_transact]
      exact Connection.rollback_rests writing
  | lent reading lends =>
      have hcomes := call_comesOut (isRun_of_lends lends) w
      cases hcall : call c w with
      | ok out w' =>
          rw [hcall] at hcomes
          rw [after_ok hcall]
          exact hcomes.2.1 reading
      | error e w' =>
          rw [hcall] at hcomes
          rw [after_error hcall] at hrests ⊢
          exact hrests (Context.isInTransaction_of_reading reading) (hcomes.1 lends)
  | left inTransaction idle => exact hrests inTransaction idle

/-! Handles that stand for nothing any more -/

/-- Whatever stands under the handle is bound to an epoch that is over. -/
def Expired (w : Workspace) (k : Handle) : Prop :=
  ∀ o, (w.shelf k.kind).held k.slot = some o → o.generation = k.generation →
    o.bound < w.session.context.epoch

theorem expired_of_files (hdecode : Handle.decode? raw = some k) (hk : k.kind ≠ .envelope)
    (hfiles : w.Files w' raws) (hraw : raw ∉ raws) (h : ∀ o, (w.shelf k.kind).held k.slot = some o →
      o.generation = k.generation → o.bound < w'.session.context.epoch) : w'.Expired k := by
  intro o ho hgen
  rcases hfiles k.kind hk k.slot o ho with ⟨p, hp, hgen', hbound⟩ | hissued
  · exact hbound ▸ h p hp (hgen'.trans hgen)
  · rw [hgen, Handle.ofParts_self, Handle.encode_of_decode? hdecode] at hissued
    exact absurd hissued hraw

namespace Expired

theorem attached (h : w.Expired k) (hdecode : Handle.decode? raw = some k) (hw : w.Stocked)
    (hk : k.kind ≠ .envelope) :
    w.session.attached k.kind raw = .error (.detached k.kind.name) := by
  obtain ⟨kind, slot, generation, hslot, hgeneration⟩ := k
  cases kind with
  | table =>
      have hl := (Session.lookUp_of_expired hdecode hw.tables hk rfl h).1
      simp only [Session.attached, Session.table, hl, Except.map]
  | query =>
      have hl := (Session.lookUp_of_expired hdecode hw.queries hk rfl h).1
      simp only [Session.attached, Session.query, hl, Except.map]
  | view =>
      have hl := (Session.lookUp_of_expired hdecode hw.views hk rfl h).1
      simp only [Session.attached, Session.view, hl, Except.map]
  | row =>
      have hl := (Session.lookUp_of_expired hdecode hw.rows hk rfl h).1
      simp only [Session.attached, Session.row, hl, bind, Except.bind, Except.map]
  | linkList =>
      have hl := (Session.lookUp_of_expired hdecode hw.lists hk rfl h).1
      simp only [Session.attached, Session.linkList, hl, bind, Except.bind, Except.map]
  | envelope => exact absurd rfl hk

/-- A call on the handle stops at its plan. -/
theorem call_target (h : w.Expired k) (hdecode : Handle.decode? raw = some k) (hw : w.Stocked)
    (hk : k.kind ≠ .envelope) (hc : c.target? = some (k.kind, raw)) :
    call c w = .error (.detached k.kind.name) w := by
  simp only [call, Session.plan_eq_error hc (h.attached hdecode hw hk)]

/-- So does one that is to link another table to that of the handle, unless the other table is
refused before. -/
theorem call_addLinkColumn (h : w.Expired k) (hdecode : Handle.decode? raw = some k)
    (hw : w.Stocked) (hk : k.kind = .table) (other : UInt64) (type : ColumnType) (name : String) :
    ∃ e, call (.addLinkColumn other type name raw) w = .error e w ∧
      (e = .detached k.kind.name ∨ w.session.table other = .error e) := by
  have htarget := h.attached hdecode hw (by simp [hk])
  rw [hk] at htarget
  have htarget := map_eq_error.mp htarget
  cases hother : w.session.table other with
  | error e => exact ⟨e, by simp only [call, Session.plan, hother, bind, Except.bind], .inr rfl⟩
  | ok t =>
      refine ⟨_, ?_, .inl rfl⟩
      simp only [call, Session.plan, hother, htarget, bind, Except.bind, hk]

theorem call_asks (h : w.Expired k) (hdecode : Handle.decode? raw = some k) (hw : w.Stocked)
    (hc : c.asks? = some (k.kind, raw)) : call c w = .ok ⟨.flag false, none⟩ w := by
  obtain ⟨kind, slot, generation, hslot, hgeneration⟩ := k
  cases c <;> simp only [Call.asks?, Option.some.injEq, Prod.mk.injEq, reduceCtorEq] at hc <;>
    obtain ⟨rfl, rfl⟩ := hc
  case isTableAttached =>
    have ha := (Session.lookUp_of_expired hdecode hw.tables (by simp) rfl h).2
    simp only [call, Session.plan, ha]
    rfl
  case isRowAttached =>
    have ha := (Session.lookUp_of_expired hdecode hw.rows (by simp) rfl h).2
    simp only [call, Session.plan, ha]
    rfl
  case isViewAttached =>
    have ha := (Session.lookUp_of_expired hdecode hw.views (by simp) rfl h).2
    simp only [call, Session.plan, ha]
    rfl

end Expired
end Workspace
end SnapshotStore
