import SnapshotStore.Proofs.Session.Perform
import SnapshotStore.Proofs.Session.Plan

/-!
What a whole call does to its workspace, whether it fails at its plan, on the way or not at
all, and what the handle is for that it answers.
-/

namespace SnapshotStore
namespace Workspace

def deed (w : Workspace) (c : Call) : Deed :=
  match w.session.plan c with
  | .ok operation =>
    match operation.perform w with
    | .ok _ _ => operation.deed w true
    | .error _ _ => operation.deed w false
  | .error _ => .rest

def source? (w : Workspace) (c : Call) : Option (HandleKind × Nat) :=
  match w.session.plan c with
  | .ok operation => operation.source?
  | .error _ => none

variable {w w' : Workspace} {c : Call} {out : Outcome} {e : Error}

/-- Only a rollback that goes on reading retreats. -/
theorem deed_eq_retreat (h : w.deed c = .retreat) : c = .transact .rollbackAndRead := by
  unfold deed at h
  split at h
  next operation hplan =>
    split at h
    next => exact Session.plan_eq_transact (Operation.deed_eq_retreat h ▸ hplan)
    next => exact Session.plan_eq_transact (Operation.deed_eq_retreat h ▸ hplan)
  next => simp at h

theorem call_ok_iff : call c w = .ok out w' ↔
    ∃ operation, w.session.plan c = .ok operation ∧ operation.perform w = .ok out w' := by
  unfold call
  cases w.session.plan c <;> simp

theorem call_ok (hw : w.Stocked) (hn : ∀ g, w.session.context.group = .ok g → g.Numbered)
    (h : call c w = .ok out w') : w.Turns (w.deed c) (w.source? c) w' := by
  obtain ⟨operation, hplan, hp⟩ := call_ok_iff.mp h
  have hdeed : w.deed c = operation.deed w true := by simp only [deed, hplan, hp]
  have hsource : w.source? c = operation.source? := by simp only [source?, hplan]
  rw [hdeed, hsource]
  exact perform_ok hw (Session.plan_sends hn c operation hplan) hp

theorem call_error (hn : ∀ g, w.session.context.group = .ok g → g.Numbered)
    (h : call c w = .error e w') : w.Turns (w.deed c) (w.source? c) w' := by
  unfold call at h
  cases hplan : w.session.plan c with
  | error e' =>
      simp only [hplan, EStateM.Result.error.injEq] at h
      obtain ⟨-, rfl⟩ := h
      have hdeed : w.deed c = .rest := by simp only [deed, hplan]
      rw [hdeed]
      exact (Settles.refl w).turns
  | ok operation =>
      simp only [hplan] at h
      have hdeed : w.deed c = operation.deed w false := by simp only [deed, hplan, h]
      have hsource : w.source? c = operation.source? := by simp only [source?, hplan]
      rw [hdeed, hsource]
      exact perform_error (Session.plan_sends hn c operation hplan) h

/-! Calls for transitions -/

theorem call_transact_ok {t : Transition} {a : Transition.Answer} {c : Connection}
    (h : t.perform w.counted.connection = .ok a c) :
    call (.transact t) w = .ok (a.outcome t) (w.counted.withConnection c) := by
  change (Operation.transact t).perform w = _
  rw [Operation.perform, forward_bind, bind_of_ok (act_run_ok.mpr ⟨c, h, rfl⟩)]
  rfl

theorem call_transact_error {t : Transition} {c : Connection}
    (h : t.perform w.counted.connection = .error e c) :
    call (.transact t) w = .error e (w.counted.withConnection c) := by
  change (Operation.transact t).perform w = _
  rw [Operation.perform, forward_bind, bind_of_error (act_run_error.mpr ⟨c, h, rfl⟩)]

/-! Calls for handles -/

/-- What a call is about that asks for a handle: the table, the row or the columns that the
handle is going to stand for. -/
inductive Names (w : Workspace) : Call → HandleKind → Subject → Prop
  | newTable {name : String} {base : Version} {g g' : Group} {key : TableKey}
      (writing : w.session.context.state = .writing base g)
      (added : g.addTable name = .ok (key, g')) :
      Names w (.addTable name) .table (.table key)
  | table {name : String} {g : Group} {key : TableKey} (seen : w.session.context.group = .ok g)
      (found : g.tableKey? name = some key) : Names w (.getTable name) .table (.table key)
  | row {h : UInt64} {row : Int} {t : Table} {i : Nat} {id : RowId}
      (found : w.session.table h = .ok t) (checked : t.checkRow row false = .ok i)
      (there : t.rowId? i = some id) : Names w (.getRow h row) .row (.row t.key id)
  | linkList {h : UInt64} {column row : Int} {t : Table} {j i : Nat} {id : RowId}
      (found : w.session.table h = .ok t)
      (checked : t.checkCell column row (some (.linkList, false)) = .ok (j, i))
      (there : t.rowId? i = some id) :
      Names w (.getLinkList h column row) .linkList (.row t.key id)
  | takenRow {h : UInt64} {e : Envelope} {l : RowLocator}
      (found : w.database.envelopes.get h = .ok e) (payload : e.payload = .row l) :
      Names w (.importObject .row h) .row (.row l.table l.id)
  | query {h : UInt64} {t : Table} (found : w.session.table h = .ok t) :
      Names w (.whereTable h) .query (.columns t.key t.schemaEpoch)
  | view {h : UInt64} {start stop limit : Int} {q : Query} {t : Table}
      (found : w.session.query h = .ok (q, t)) :
      Names w (.queryFindAll h start stop limit) .view (.columns t.key t.schemaEpoch)

theorem source?_of_plan {operation : Operation} (h : w.session.plan c = .ok operation) :
    w.source? c = operation.source? := by simp only [source?, h]

theorem call_keeps (hw : w.Stocked) (hn : ∀ g, w.session.context.group = .ok g → g.Numbered)
    {found : Except Error Item} (hplan : w.session.plan c = .ok (.keep found))
    (h : call c w = .ok out w') : w.source? c = none ∧
      w'.session.context = w.session.context ∧ ∃ item raw, found = .ok item ∧
        out.reply = .handle raw ∧ w.Issues w' item.kind item.subject raw := by
  obtain ⟨operation, hplan', hp⟩ := call_ok_iff.mp h
  obtain rfl := Except.ok.inj (hplan.symm.trans hplan')
  exact ⟨source?_of_plan hplan, (keep_ok hw (Session.plan_sends hn c _ hplan) hp).2⟩

/-- A call that asks for a handle answers the handle of a new object that stands for what
the call names. -/
theorem call_names {kind : HandleKind} {x : Subject} (hw : w.Stocked)
    (hn : ∀ g, w.session.context.group = .ok g → g.Numbered) (hx : w.Names c kind x)
    (hc : call c w = .ok out w') :
    w.source? c = none ∧ ∃ raw, out.reply = .handle raw ∧ w.Issues w' kind x raw := by
  cases hx with
  | newTable writing added =>
      obtain ⟨operation, hplan, hp⟩ := call_ok_iff.mp hc
      have hsource := source?_of_plan hplan
      simp only [Session.plan, bind_eq_ok, pure_eq_ok] at hplan
      obtain ⟨-, -, rfl⟩ := hplan
      obtain ⟨-, base, g, key, g', raw, hstate, hadd, hreply, hissues⟩ := createTable_ok hw hp
      obtain ⟨-, rfl⟩ := TransactionState.writing.inj (writing.symm.trans hstate)
      obtain ⟨rfl, -⟩ := Prod.mk.inj (Except.ok.inj (added.symm.trans hadd))
      exact ⟨hsource, raw, hreply, hissues⟩
  | @table name g key seen found =>
      have hplan : w.session.plan (.getTable name) = .ok (.keep (.ok (.table ⟨key⟩))) :=
        bind_eq_ok.mpr ⟨g, seen, by simp only [found]; rfl⟩
      obtain ⟨hsource, -, item, raw, hitem, hissues⟩ := call_keeps hw hn hplan hc
      obtain rfl := Except.ok.inj hitem
      exact ⟨hsource, raw, hissues⟩
  | @row h row t i id found checked there =>
      have hplan : w.session.plan (.getRow h row) = .ok (.keep (.ok (.row (.ofRow t i)))) :=
        bind_eq_ok.mpr ⟨t, found, bind_eq_ok.mpr ⟨i, checked, rfl⟩⟩
      obtain ⟨hsource, -, item, raw, hitem, hissues⟩ := call_keeps hw hn hplan hc
      obtain rfl := Except.ok.inj hitem
      rw [← RowLocator.ofRow_subject there]
      exact ⟨hsource, raw, hissues⟩
  | @linkList h column row t j i id found checked there =>
      have hplan : w.session.plan (.getLinkList h column row) =
          .ok (.keep (.ok (.list ⟨.ofRow t i, j⟩))) :=
        bind_eq_ok.mpr ⟨t, found, bind_eq_ok.mpr ⟨(j, i), checked, rfl⟩⟩
      obtain ⟨hsource, -, item, raw, hitem, hissues⟩ := call_keeps hw hn hplan hc
      obtain rfl := Except.ok.inj hitem
      rw [← RowLocator.ofRow_subject there]
      exact ⟨hsource, raw, hissues⟩
  | takenRow found payload =>
      obtain ⟨operation, hplan, hp⟩ := call_ok_iff.mp hc
      have hsource := source?_of_plan hplan
      obtain rfl := pure_eq_ok.mp hplan
      obtain ⟨-, e, raw, hget, hreply, hissues⟩ := takeOver_ok hw hp
      obtain rfl := Except.ok.inj (found.symm.trans hget)
      rw [payload] at hissues
      exact ⟨hsource, raw, hreply, hissues⟩
  | @query h t found =>
      have hplan : w.session.plan (.whereTable h) = .ok (.keep (.ok (.query (.ofTable t)))) :=
        bind_eq_ok.mpr ⟨t, found, rfl⟩
      obtain ⟨hsource, -, item, raw, hitem, hissues⟩ := call_keeps hw hn hplan hc
      obtain rfl := Except.ok.inj hitem
      exact ⟨hsource, raw, hissues⟩
  | @view h start stop limit q t found =>
      obtain ⟨operation, hplan, -⟩ := call_ok_iff.mp hc
      have hmade := hplan
      simp only [Session.plan, found, bind_eq_ok, pure_eq_ok] at hmade
      obtain ⟨⟨q', t'⟩, hfound, window, -, rfl⟩ := hmade
      obtain ⟨rfl, rfl⟩ := Prod.mk.inj (Except.ok.inj hfound)
      obtain ⟨hsource, -, item, raw, hitem, hissues⟩ := call_keeps hw hn hplan hc
      obtain ⟨v, hv, rfl⟩ := map_eq_ok.mp hitem
      simp only [View.ofQuery, bind_eq_ok, pure_eq_ok] at hv
      obtain ⟨_, -, rfl⟩ := hv
      exact ⟨hsource, raw, hissues⟩

/-- An export answers the handle of an envelope that copies its object. -/
theorem call_export {kind : PayloadKind} {h : UInt64} {policy : HandoverPolicy} (hw : w.Stocked)
    (hn : ∀ g, w.session.context.group = .ok g → g.Numbered)
    (hc : call (.exportObject kind h policy) w = .ok out w') : ∃ k x raw,
      Handle.decode? h = some k ∧
      w.source? (.exportObject kind h policy) = some (handleKind kind, k.slot) ∧
      out.reply = .handle raw ∧ w.Issues w' .envelope x raw := by
  obtain ⟨operation, hplan, hp⟩ := call_ok_iff.mp hc
  have hfits := Session.plan_sends hn _ operation hplan
  have hsource := source?_of_plan hplan
  simp only [Session.plan, bind_eq_ok, pure_eq_ok] at hplan
  obtain ⟨p, -, rfl⟩ := hplan
  obtain ⟨-, raw, hreply, hissues⟩ := enclose_ok hw hfits hp
  obtain ⟨k, o, hdecode, -⟩ := hfits
  refine ⟨k, p.subject, raw, hdecode, hsource.trans ?_, hreply, hissues⟩
  simp only [Operation.source?, hdecode, Option.map_some]

/-- An import of a query or a view answers the handle of a copy of what its envelope has. -/
theorem call_import {kind : PayloadKind} {h : UInt64} (hw : w.Stocked) (hkind : kind ≠ .row)
    (hc : call (.importObject kind h) w = .ok out w') : ∃ k x raw, Handle.decode? h = some k ∧
      w.source? (.importObject kind h) = some (.envelope, k.slot) ∧ out.reply = .handle raw ∧
      w.Issues w' (handleKind kind) x raw := by
  obtain ⟨operation, hplan, hp⟩ := call_ok_iff.mp hc
  have hsource := source?_of_plan hplan
  obtain rfl := pure_eq_ok.mp hplan
  obtain ⟨-, env, raw, hget, hreply, hissues⟩ := takeOver_ok hw hp
  obtain ⟨k, hk, -⟩ := Arena.get_eq_ok.mp hget
  have hdecode := (Arena.decode_eq_ok hk).1
  refine ⟨k, env.payload.subject, raw, hdecode, hsource.trans ?_, hreply, hissues⟩
  cases kind with
  | row => exact absurd rfl hkind
  | query | view => simp only [Operation.source?, hdecode, Option.map_some]

end Workspace
end SnapshotStore
