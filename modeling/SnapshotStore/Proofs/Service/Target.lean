import SnapshotStore.Proofs.Service.Run

/-!
What a call on a handle acts on, and what the label of the handle says about it. A label that
is not lost tells exactly what the call finds; what is found under a lost one is newer than
the label.
-/

namespace SnapshotStore

/-- What a handle stands for in a session right now. -/
inductive Session.Targets (s : Session) : HandleKind → UInt64 → Subject → Prop
  | table {h : UInt64} {t : Table} (found : s.table h = .ok t) : Targets s .table h (.table t.key)
  | row {h : UInt64} {t : Table} {i : Nat} {id : RowId} (found : s.row h = .ok (t, i))
      (row : t.rowId? i = some id) : Targets s .row h (.row t.key id)
  | linkList {h : UInt64} {t : Table} {column i : Nat} {id : RowId}
      (found : s.linkList h = .ok (t, column, i)) (row : t.rowId? i = some id) :
      Targets s .linkList h (.row t.key id)
  | query {h : UInt64} {q : Query} {t : Table} (found : s.query h = .ok (q, t)) :
      Targets s .query h (.columns t.key t.schemaEpoch)
  | view {h : UInt64} {v : View} {t : Table} (found : s.view h = .ok (v, t)) :
      Targets s .view h (.columns t.key t.schemaEpoch)

/-- The handle of the object that a call acts on. -/
def Call.target? : Call → Option (HandleKind × UInt64)
  | .removeTable h | .tableName h | .addColumn h .. | .addLinkColumn h .. | .removeColumn h _
  | .columnCount h | .columnName h _ | .columnType h _ | .columnIndex h _ | .size h
  | .addEmptyRow h | .insertEmptyRow h _ | .removeRow h _ | .clear h | .getScalar h ..
  | .setScalar h .. | .getMixed h .. | .setMixed h .. | .getMixedType h .. | .isNull h ..
  | .setNull h .. | .getLink h .. | .setLink h .. | .nullifyLink h .. | .getRow h _
  | .getLinkList h .. | .whereTable h => some (.table, h)
  | .rowIndex h | .rowGet h _ | .rowSet h .. => some (.row, h)
  | .linkListSize h | .linkListTarget h _ | .linkListAdd h _ | .linkListRemove h _
  | .linkListClear h => some (.linkList, h)
  | .queryFilter h _ | .queryValidate h | .queryFind h _ | .queryFindAll h .. | .queryCount h ..
  | .queryAggregate h .. => some (.query, h)
  | .viewSize h | .viewRowIndex h _ | .viewGet h .. | .viewSort h _ _ | .viewDistinct h _
  | .viewSync h | .viewAggregate h .. => some (.view, h)
  | .exportObject kind h _ => some (Workspace.handleKind kind, h)
  | _ => none

theorem Call.target?_ne {c : Call} {kind : HandleKind} {h : UInt64}
    (hc : c.target? = some (kind, h)) : kind ≠ .envelope := by
  rintro rfl
  cases c <;> simp [Call.target?] at hc
  next k _ _ => cases k <;> simp [Workspace.handleKind] at hc

namespace Session
variable {s : Session} {kind : HandleKind} {h : UInt64} {x : Subject} {t : Table} {i : Nat}

/-- What every call on a handle needs first: that the object of the handle is attached. -/
def attached (s : Session) (kind : HandleKind) (h : UInt64) : Except Error Unit :=
  match kind with
  | .table => (s.table h).map fun _ => ()
  | .row => (s.row h).map fun _ => ()
  | .query => (s.query h).map fun _ => ()
  | .view => (s.view h).map fun _ => ()
  | .linkList => (s.linkList h).map fun _ => ()
  | .envelope => .ok ()

theorem row_of_lookUp {l : RowLocator} (hl : s.lookUp s.rows h = .ok (l, t)) :
    ∃ i, s.row h = .ok (t, i) := by
  obtain ⟨b, -, rfl, hr⟩ := lookUp_eq_ok hl
  obtain ⟨-, -, g, -, -, hs⟩ := Bound.resolve_eq_ok hr
  obtain ⟨i, hi⟩ := Option.isSome_iff_exists.mp hs
  exact ⟨i, row_eq_ok.mpr ⟨_, hl, hi⟩⟩

theorem portable_eq_error {k : PayloadKind} {e : Error}
    (ha : s.attached (Workspace.handleKind k) h = .error e) : s.portable k h = .error e := by
  cases k with
  | query =>
      have hq : s.lookUp s.queries h = .error e := map_eq_error.mp ha
      simp only [portable, hq]
      rfl
  | view =>
      have hv : s.lookUp s.views h = .error e := map_eq_error.mp ha
      simp only [portable, hv]
      rfl
  | row =>
      have hr : s.row h = .error e := map_eq_error.mp ha
      cases hl : s.lookUp s.rows h with
      | ok r =>
          obtain ⟨i, hi⟩ := row_of_lookUp hl
          simp [hi] at hr
      | error e' =>
          have he : e' = e := by simpa [Session.row, hl, bind, Except.bind] using hr
          simp only [portable, hl, he]
          rfl

theorem plan_eq_error {c : Call} {e : Error} (hc : c.target? = some (kind, h))
    (ha : s.attached kind h = .error e) : s.plan c = .error e := by
  cases c <;> simp only [Call.target?, Option.some.injEq, Prod.mk.injEq, reduceCtorEq] at hc <;>
    obtain ⟨rfl, rfl⟩ := hc
  case exportObject =>
    simp only [plan, portable_eq_error ha]
    rfl
  all_goals
    have he := map_eq_error.mp ha
    simp only [plan, planRead, planEdit, planSet, planRowSet, cell, he]
    rfl

theorem targets_of_attached (hkind : kind ≠ .envelope) (ha : s.attached kind h = .ok ()) :
    ∃ x, s.Targets kind h x := by
  cases kind with
  | table =>
      obtain ⟨t, ht, -⟩ := map_eq_ok.mp ha
      exact ⟨_, .table ht⟩
  | query =>
      obtain ⟨r, hq, -⟩ := map_eq_ok.mp ha
      exact ⟨_, .query hq⟩
  | view =>
      obtain ⟨r, hv, -⟩ := map_eq_ok.mp ha
      exact ⟨_, .view hv⟩
  | row =>
      obtain ⟨r, hr, -⟩ := map_eq_ok.mp ha
      obtain ⟨l, -, hi⟩ := row_eq_ok.mp hr
      exact ⟨_, .row hr (RowLocator.indexIn?_eq_some hi).2.2⟩
  | linkList =>
      obtain ⟨r, hr, -⟩ := map_eq_ok.mp ha
      obtain ⟨l, -, -, hi⟩ := linkList_eq_ok.mp hr
      exact ⟨_, .linkList hr (RowLocator.indexIn?_eq_some hi).2.2⟩
  | envelope => exact absurd rfl hkind

/-- A plan on a handle needs what the handle stands for. -/
theorem plan_targets {c : Call} {operation : Operation} (hc : c.target? = some (kind, h))
    (hp : s.plan c = .ok operation) : ∃ x, s.Targets kind h x := by
  cases ha : s.attached kind h with
  | ok u => exact targets_of_attached (Call.target?_ne hc) ha
  | error e => simp [plan_eq_error hc ha] at hp

end Session

namespace Workspace
variable {w : Workspace} {kind : HandleKind} {h : UInt64} {x : Subject} {k : Handle} {o : Held}
  {g : Group}

/-- The handle names an object that stands for the subject, and the context sees the subject. -/
structure Meets (w : Workspace) (kind : HandleKind) (h : UInt64) (x : Subject) (k : Handle)
    (o : Held) (g : Group) : Prop where
  decode : Handle.decode? h = some k
  ofKind : k.kind = kind
  held : (w.shelf kind).held k.slot = some o
  generation : o.generation = k.generation
  subject : o.subject = x
  bound : o.bound = w.session.context.epoch
  inTransaction : w.session.context.isInTransaction
  group : w.session.context.group = .ok g
  seen : (g.sight? x).isSome

theorem meets_of_lookUp {α : Type} [Anchored α] [Denoting α] [Seeable α] {a : Arena (Bound α)}
    {y : α} {t : Table} (hl : w.session.lookUp a h = .ok (y, t)) (stocks : a.Stocks kind)
    (shelf : w.shelf kind = a.shelf) : ∃ k o g, w.Meets kind h (Denoting.subject y) k o g := by
  obtain ⟨k, o, g, hdecode, hkind, ho, hgen, hsubject, hbound, hin, hg, hseen⟩ :=
    Session.lookUp_held hl
  exact ⟨k, o, g, hdecode, hkind.trans stocks.kind, shelf ▸ ho, hgen, hsubject, hbound, hin, hg,
    hseen⟩

theorem meets_of_targets (hw : w.Stocked)
    (hn : ∀ g, w.session.context.group = .ok g → g.Numbered) (hx : w.session.Targets kind h x) :
    ∃ k o g, w.Meets kind h x k o g := by
  cases hx with
  | table found =>
      obtain ⟨⟨y, t⟩, hl, rfl⟩ := map_eq_ok.mp found
      obtain ⟨hkey, -⟩ := Session.lookUp_seen hn hl
      rw [hkey]
      exact meets_of_lookUp hl hw.tables rfl
  | row found row =>
      obtain ⟨l, hl, hi⟩ := Session.row_eq_ok.mp found
      obtain ⟨hkey, -, hid⟩ := RowLocator.indexIn?_eq_some hi
      obtain rfl := Option.some.inj (hid.symm.trans row)
      rw [hkey]
      exact meets_of_lookUp hl hw.rows rfl
  | linkList found row =>
      obtain ⟨l, hl, -, hi⟩ := Session.linkList_eq_ok.mp found
      obtain ⟨hkey, -, hid⟩ := RowLocator.indexIn?_eq_some hi
      obtain rfl := Option.some.inj (hid.symm.trans row)
      rw [hkey]
      exact meets_of_lookUp hl hw.lists rfl
  | @query h q t found =>
      obtain ⟨hkey, -⟩ := Session.lookUp_seen hn found
      obtain ⟨b, -, hb, hr⟩ := Session.lookUp_eq_ok found
      obtain ⟨-, -, -, -, -, hsuits⟩ := Bound.resolve_eq_ok hr
      have hepoch : t.schemaEpoch = q.schemaEpoch := of_decide_eq_true (hb ▸ hsuits)
      rw [hkey, hepoch]
      exact meets_of_lookUp found hw.queries rfl
  | @view h v t found =>
      obtain ⟨hkey, -⟩ := Session.lookUp_seen hn found
      obtain ⟨b, -, hb, hr⟩ := Session.lookUp_eq_ok found
      obtain ⟨-, -, -, -, -, hsuits⟩ := Bound.resolve_eq_ok hr
      have hepoch : t.schemaEpoch = v.schemaEpoch := by
        rw [hb] at hsuits
        simp only [Anchored.suits, View.isAttached, Bool.and_eq_true, decide_eq_true_eq] at hsuits
        exact hsuits.2
      rw [hkey, hepoch]
      exact meets_of_lookUp found hw.views rfl

end Workspace

namespace Notebook

def edition (b : Notebook) (n : Nat) (session : Session) : Edition :=
  b.chronicle.visible n session.context

def label? (b : Notebook) (n : Nat) (h : UInt64) : Option Label :=
  (Handle.decode? h).map fun k => b.label n k.kind k.slot

end Notebook

namespace Service
variable {settings : Settings} {s : Service} {b : Notebook} {n : Nat} {session : Session}
  {kind : HandleKind} {h : UInt64} {x : Subject}

/-- What a handle stands for is what its label tells of. -/
theorem Kept.meets (hk : Kept settings s b) (hs : s.sessions.get? n = some session) {k : Handle}
    {o : Held} {g : Group} (hm : (s.workspace session).Meets kind h x k o g)
    (hkind : kind ≠ .envelope) {i : Sight} (hi : g.sight? x = some i) :
    (b.label n kind k.slot).subject = x ∧ (b.label n kind k.slot).Timely b.chronicle.now ∧
      (b.label n kind k.slot).Tells (b.edition n session) i := by
  have hc := world_context? hs
  obtain ⟨hsubject, hbacks⟩ := hk.held n session kind k.slot o hs hm.held
  rw [World.backs_of_ne hkind] at hbacks
  have hx : (b.label n kind k.slot).subject = x := hsubject.trans hm.subject
  have haccounts := hbacks.accounts _ hc hm.bound hm.inTransaction
  exact ⟨hx, hbacks.timely, haccounts.found hk.sound hc hm.group (hx.symm ▸ hi)⟩

/-- What was put in under the handle that a call answers is labelled as the call labels. -/
theorem call_labels (hs : s.sessions.get? n = some session) {c : Call} {w' : Workspace}
    {out : Outcome} (hw : Workspace.call c (s.workspace session) = .ok out w') {raw : UInt64}
    (hi : (s.workspace session).Issues w' kind x raw) : ∃ slot o,
      raw = (Handle.ofParts kind slot o.generation).encode ∧
      (w'.shelf kind).held slot = some o ∧
      (s.observe b (.call n c)).label n kind slot =
        (b.note n ((s.workspace session).deed c)).fresh n w'.session.context
          ((s.workspace session).source? c) x := by
  obtain ⟨slot, o, hraw, hnew, ho, rfl⟩ := hi
  refine ⟨slot, o, hraw, ho, ?_⟩
  simp only [observe, hs, Notebook.observe, Workspace.after_ok hw]
  rw [Notebook.renew_label, Notebook.pick_new hnew ho]

theorem Kept.issue (hk : Kept settings s b) (hs : s.sessions.get? n = some session) {c : Call}
    (hx : (s.workspace session).Names c kind x) {out : Outcome} {s' : Service}
    (hc : s.call n c = some (.ok out, s')) : ∃ raw slot o session',
      out.reply = .handle raw ∧ raw = (Handle.ofParts kind slot o.generation).encode ∧
      s'.sessions.get? n = some session' ∧
      ((s'.workspace session').shelf kind).held slot = some o ∧
      (s.observe b (.call n c)).label n kind slot =
        .of ((s.observe b (.call n c)).edition n session')
          (s.observe b (.call n c)).chronicle.now x := by
  obtain ⟨w', hw, rfl, -, hs'⟩ := call_eq_ok hs hc
  have hn := fun g => hk.numbered hs g
  obtain ⟨hsource, raw, hreply, hissues⟩ :=
    Workspace.call_names (hk.stocked n session hs) hn hx hw
  obtain ⟨slot, o, hraw, ho, hlabel⟩ := call_labels hs hw hissues
  refine ⟨raw, slot, o, w'.session, hreply, hraw, hs', ho, hlabel.trans ?_⟩
  simp only [observe, hs, Notebook.observe, Workspace.after_ok hw, hsource]
  rfl

end Service
end SnapshotStore
