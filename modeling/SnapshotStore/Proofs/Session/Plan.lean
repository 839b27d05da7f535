import SnapshotStore.Proofs.Session.Turn
import SnapshotStore.Proofs.View.Comparison
import SnapshotStore.Session.Plan

/-!
What plans can be relied on for: an object that is kept was seen in the group of the context,
and one that is replaced keeps its subject.
-/

namespace SnapshotStore

/-! Looking objects up -/

/-- What an object of a table needs so that something stands under its number. -/
class Seeable (α : Type) [Anchored α] [Denoting α] : Prop where
  seen : ∀ (x : α) (g : Group) (t : Table), g.table? (Anchored.table x) = some t →
    Anchored.suits x t → (g.sight? (Denoting.subject x)).isSome

instance : Seeable TableRef where
  seen _ _ _ ht _ := Option.isSome_iff_exists.mpr ⟨_, Group.sight?_table ht⟩

instance : Seeable RowLocator where
  seen _ _ _ ht hs := RowLocator.seen ht hs

instance : Seeable Query where
  seen q g t ht hs := by
    have hseen := Group.sight?_columns ht
    have he : t.schemaEpoch = q.schemaEpoch := of_decide_eq_true hs
    rw [he] at hseen
    exact Option.isSome_iff_exists.mpr ⟨_, hseen⟩

instance : Seeable View where
  seen v g t ht hs := by
    have hseen := Group.sight?_columns ht
    have he : t.schemaEpoch = v.schemaEpoch := by
      simp only [Anchored.suits, View.isAttached, Bool.and_eq_true, decide_eq_true_eq] at hs
      exact hs.2
    rw [he] at hseen
    exact Option.isSome_iff_exists.mpr ⟨_, hseen⟩

instance : Seeable ListLocator where
  seen _ _ _ ht hs := RowLocator.seen ht hs

theorem Bound.resolve_eq_ok {α : Type} [Anchored α] {b : Bound α} {c : Context} {t : Table}
    (h : b.resolve c = .ok t) : c.isInTransaction ∧ b.epoch = c.epoch ∧
      ∃ g, c.group = .ok g ∧ g.table? (Anchored.table b.object) = some t ∧
        Anchored.suits b.object t := by
  unfold resolve at h
  split at h
  · simp at h
  next hc =>
    simp only [Bool.or_eq_true, Bool.not_eq_true', decide_eq_true_eq, not_or, Bool.not_eq_false,
      Decidable.not_not] at hc
    simp only [bind_eq_ok] at h
    obtain ⟨g, hg, h⟩ := h
    refine ⟨hc.1, hc.2.symm, g, hg, ?_⟩
    split at h
    next u hu =>
      split at h
      next hs =>
        obtain rfl := pure_eq_ok.mp h
        exact ⟨hu, hs⟩
      next => simp at h
    next => simp at h

theorem Context.group_of_isInTransaction {c : Context} (h : c.isInTransaction) :
    ∃ g, c.group = .ok g := by
  cases hs : c.state with
  | idle => simp [isInTransaction, hs, TransactionState.version?] at h
  | reading v g | writing v g => exact ⟨g, by simp only [group, hs]⟩

theorem Bound.resolve_eq_error {α : Type} [Anchored α] {b : Bound α} {c : Context} {e : Error}
    (h : b.resolve c = .error e) : e = .detached (Anchored.kind α).name := by
  unfold resolve at h
  split at h
  · exact (Except.error.inj h).symm
  next hc =>
    simp only [Bool.or_eq_true, Bool.not_eq_true', decide_eq_true_eq, not_or, Bool.not_eq_false,
      Decidable.not_not] at hc
    obtain ⟨g, hg⟩ := Context.group_of_isInTransaction hc.1
    simp only [hg, bind, Except.bind] at h
    split at h
    · split at h
      · simp [pure, Except.pure] at h
      · exact (Except.error.inj h).symm
    · exact (Except.error.inj h).symm

theorem Session.lookUp_eq_ok {α : Type} [Anchored α] {s : Session} {a : Arena (Bound α)}
    {h : UInt64} {x : α} {t : Table} (hl : s.lookUp a h = .ok (x, t)) :
    ∃ b, a.get h = .ok b ∧ b.object = x ∧ b.resolve s.context = .ok t := by
  simp only [Session.lookUp, bind_eq_ok, pure_eq_ok] at hl
  obtain ⟨b, hb, t', ht, he⟩ := hl
  obtain ⟨rfl, rfl⟩ := Prod.mk.inj he
  exact ⟨b, hb, rfl, ht⟩

/-- A number passes its check just if it is one of those below the bound. -/
theorem ite_toNat_eq_ok {x : Int} {bound i : Nat} {e : Error} :
    (if 0 ≤ x ∧ x < bound then Except.ok x.toNat else .error e) = .ok i ↔ x = i ∧ i < bound := by
  split
  next hb =>
    rw [Except.ok.injEq]
    omega
  next hb =>
    apply iff_of_false
    · simp
    · omega

namespace Table
variable {t : Table} {column row : Int} {i j : Nat} {type? : Option (ColumnType × Bool)}

theorem checkRow_eq_ok : t.checkRow row false = .ok j ↔ row = j ∧ j < t.size := ite_toNat_eq_ok

theorem checkRow_lt (h : t.checkRow row false = .ok j) : j < t.rows.length :=
  (checkRow_eq_ok.mp h).2

/-- A cell is checked by its column, its row and then the type that is asked for. -/
theorem checkCell_eq (t : Table) (column row : Int) (type? : Option (ColumnType × Bool)) :
    t.checkCell column row type? = do
      let i ← t.checkColumn column
      let j ← t.checkRow row false
      type?.elim (.ok ()) fun type => t.checkType i (some j) type.1 type.2
      return (i, j) := by
  simp only [checkCell, Access.check, Access.checkColumn?, Access.checkRow?]
  cases t.checkColumn column with
  | error e => rfl
  | ok i =>
      cases t.checkRow row false with
      | error e => rfl
      | ok j =>
          cases type? with
          | none => rfl
          | some type =>
              simp only [Except.map, bind, Except.bind, Option.elim]
              cases t.checkType i (some j) type.1 type.2 <;> rfl

theorem checkCell_eq_ok (h : t.checkCell column row type? = .ok (i, j)) :
    t.checkColumn column = .ok i ∧ t.checkRow row false = .ok j ∧
      ∀ type ∈ type?, t.checkType i (some j) type.1 type.2 = .ok () := by
  simp only [checkCell_eq, bind_eq_ok, pure_eq_ok] at h
  obtain ⟨i', hi, j', hj, _, htype, he⟩ := h
  obtain ⟨rfl, rfl⟩ := Prod.mk.inj he
  refine ⟨hi, hj, fun type hmem => ?_⟩
  obtain rfl := Option.mem_def.mp hmem
  exact htype

theorem checkCell_lt (h : t.checkCell column row type? = .ok (i, j)) : j < t.rows.length :=
  checkRow_lt (checkCell_eq_ok h).2.1

end Table

/-- The locator of a row that is there denotes it. -/
theorem RowLocator.ofRow_subject {t : Table} {i : Nat} {id : RowId} (hid : t.rowId? i = some id) :
    Denoting.subject (RowLocator.ofRow t i) = .row t.key id := by
  change Subject.row t.key ((t.rowId? i).getD noRow) = _
  rw [hid, Option.getD_some]

theorem RowLocator.ofRow_seen {g : Group} {t : Table} {i : Nat} (hg : g.Numbered)
    (ht : g.table? t.key = some t) (hi : i < t.rows.length) :
    (g.sight? (Denoting.subject (RowLocator.ofRow t i))).isSome := by
  have hsize := (hg.tables t.key t ht).1.counted
  have hid : t.rowId? i = some _ := List.getElem?_eq_getElem (hsize.symm ▸ hi)
  rw [ofRow_subject hid, Group.sight?_row ht hid]
  rfl

/-! Views in their places -/

namespace View
variable {v v' : View} {t : Table}

theorem sort_subject (v : View) (t : Table) (keys : List SortKey) (d : Disorder) :
    Denoting.subject (v.sort t keys d).2 = Denoting.subject v := by
  obtain ⟨_, _, -, hv⟩ := v.sort_reorders t keys d
  rw [hv]
  rfl

theorem distinct_subject {column : Nat} (h : v.distinct t column = .ok v') :
    Denoting.subject v' = Denoting.subject v := by
  simp only [distinct, bind_eq_ok, pure_eq_ok] at h
  obtain ⟨_, -, _, -, _, -, rfl⟩ := h
  rfl

theorem sync_subject (v : View) (t : Table) :
    Denoting.subject (v.sync t).2 = Denoting.subject v := by
  unfold sync
  split
  · rfl
  next rows _ =>
    have hresort : Denoting.subject (View.resort { v with rows } t).2 = Denoting.subject v := by
      unfold resort
      split
      · exact sort_subject _ t _ _
      · rfl
    split
    next w hw =>
      rw [hw] at hresort
      exact hresort
    next w hw =>
      rw [hw] at hresort
      split
      · exact hresort
      next u hu =>
        refine Eq.trans ?_ hresort
        unfold thinAgain at hu
        split at hu
        · exact distinct_subject hu
        · exact Except.ok.inj hu ▸ rfl

end View

/-! Plans -/

/-- Whatever operation comes out has the property. -/
def Yields (P : Operation → Prop) (x : Except Error Operation) : Prop :=
  ∀ operation, x = .ok operation → P operation

namespace Yields
variable {α : Type} {P : Operation → Prop} {operation : Operation}

theorem pure (h : P operation) : Yields P (pure operation) := by
  intro o ho
  exact pure_eq_ok.mp ho ▸ h

theorem throw (e : Error) : Yields P (throw e) := fun _ ho => absurd ho throw_eq_ok

theorem bind {x : Except Error α} {f : α → Except Error Operation}
    (h : ∀ a, x = .ok a → Yields P (f a)) : Yields P (x >>= f) := by
  intro o ho
  obtain ⟨a, ha, hf⟩ := bind_eq_ok.mp ho
  exact h a ha o hf

theorem ite {c : Prop} [Decidable c] {x y : Except Error Operation} (hx : Yields P x)
    (hy : Yields P y) : Yields P (if c then x else y) := by
  split
  · exact hx
  · exact hy

end Yields

namespace Operation

/-- What an operation is, apart from what it is about. -/
inductive Form
  | answer
  | release
  | transact
  | read
  | edit
  | createTable
  | keep
  | replaceQuery
  | replaceView
  | enclose
  | takeOver
  | run
  | runBatch

def form : Operation → Form
  | answer _ => .answer
  | release .. => .release
  | transact _ => .transact
  | read _ => .read
  | edit _ => .edit
  | createTable _ => .createTable
  | keep _ => .keep
  | replaceQuery .. => .replaceQuery
  | replaceView .. => .replaceView
  | enclose .. => .enclose
  | takeOver .. => .takeOver
  | run .. => .run
  | runBatch _ => .runBatch

end Operation

/-- The form of the operations that a call comes to. It is the same whatever the session holds. -/
def Call.form : Call → Operation.Form
  | transact _ => .transact
  | addTable _ => .createTable
  | getTable _ | getRow .. | getLinkList .. | whereTable _ | queryFindAll .. => .keep
  | removeTable _ | addColumn .. | addLinkColumn .. | removeColumn .. | addEmptyRow _
  | insertEmptyRow .. | removeRow .. | clear _ | setScalar .. | setMixed .. | setNull ..
  | setLink .. | nullifyLink .. | rowSet .. | linkListAdd .. | linkListRemove ..
  | linkListClear _ => .edit
  | isTableAttached _ | isRowAttached _ | isViewAttached _ => .answer
  | close .. => .release
  | queryFilter .. => .replaceQuery
  | viewSort .. | viewDistinct .. | viewSync _ => .replaceView
  | exportObject .. => .enclose
  | importObject .. => .takeOver
  | run .. => .run
  | runBatch _ => .runBatch
  | hasTable _ | tableName _ | columnCount _ | columnName .. | columnType .. | columnIndex ..
  | size _ | getScalar .. | getMixed .. | getMixedType .. | isNull .. | getLink .. | rowIndex _
  | rowGet .. | linkListSize _ | linkListTarget .. | queryValidate _ | queryFind ..
  | queryCount .. | queryAggregate .. | viewSize _ | viewRowIndex .. | viewGet ..
  | viewAggregate .. => .read

namespace Session
variable {s : Session} {h : UInt64} {operation : Operation}

theorem planEdit_form {f : Table → Except Error Edit} :
    Yields (·.form = .edit) (s.planEdit h f) :=
  .bind fun _ _ => .bind fun _ _ => .bind fun _ _ => .pure rfl

theorem planSet_form {column row : Int} {expected : ColumnType} {v : Value} :
    Yields (·.form = .edit) (s.planSet h column row expected v) :=
  .bind fun _ _ => .bind fun _ _ => .bind fun _ _ => .pure rfl

theorem planRead_form {f : Table → Except Error Reply} :
    Yields (·.form = .read) (s.planRead h f) :=
  .bind fun _ _ => .bind fun _ _ => .pure rfl

theorem planRowSet_form {column : Int} {v : Value} :
    Yields (·.form = .edit) (s.planRowSet h column v) := by
  refine .bind fun _ _ => .bind fun _ _ => .bind fun _ _ => .ite (.throw _) (.bind fun _ _ => ?_)
  split
  · exact .bind fun _ _ => .bind fun _ _ => .bind fun _ _ => .pure rfl
  · exact .bind fun _ _ => .pure rfl

theorem plan_form (c : Call) : Yields (·.form = c.form) (s.plan c) := by
  cases c with
  | transact | close | importObject | run | runBatch => exact .pure rfl
  | getTable name =>
      refine .bind fun g _ => ?_
      split <;> exact .pure rfl
  | removeTable | removeColumn | addEmptyRow | insertEmptyRow | removeRow | clear | setNull
  | setLink => exact planEdit_form
  | tableName | columnCount | columnIndex | size | columnName | columnType => exact planRead_form
  | setScalar | setMixed | nullifyLink => exact planSet_form
  | rowSet => exact planRowSet_form
  | addColumn => exact .bind fun _ _ => .bind fun _ _ => .ite (.throw _) (.pure rfl)
  | addLinkColumn =>
      exact .bind fun _ _ => .bind fun _ _ => .bind fun _ _ => .ite (.throw _) (.pure rfl)
  | addTable | hasTable | getScalar | getMixed | getMixedType | getLink | isTableAttached
  | isRowAttached | isViewAttached | rowIndex | linkListSize | whereTable | queryValidate
  | viewSize | viewSync | exportObject => exact .bind fun _ _ => .pure rfl
  | isNull | getRow | rowGet | getLinkList | linkListClear | queryFilter | queryFind
  | queryFindAll | queryCount | queryAggregate | viewRowIndex | viewAggregate =>
      exact .bind fun _ _ => .bind fun _ _ => .pure rfl
  | linkListTarget | viewGet =>
      exact .bind fun _ _ => .bind fun _ _ => .bind fun _ _ => .pure rfl
  | linkListAdd | linkListRemove =>
      exact .bind fun _ _ => .bind fun _ _ => .bind fun _ _ => .bind fun _ _ => .pure rfl
  | viewSort => exact .bind fun _ _ => .bind fun _ _ => .pure rfl
  | viewDistinct =>
      refine .bind fun _ _ => .bind fun _ _ => .bind fun _ _ => ?_
      split <;> exact .pure rfl

/-- What is true of all operations of a form is true of what calls of that form come to. -/
theorem plan_yields_of_form {P : Operation → Prop} {c : Call}
    (h : ∀ operation : Operation, operation.form = c.form → P operation) : Yields P (s.plan c) :=
  fun operation hplan => h operation (plan_form c operation hplan)

/-- Only transitions transact. -/
theorem plan_eq_transact {c : Call} {t : Transition} (h : s.plan c = .ok (.transact t)) :
    c = .transact t := by
  have hform := plan_form c _ h
  cases c with
  | transact t' =>
      obtain rfl := Operation.transact.inj (pure_eq_ok.mp h)
      rfl
  | _ => cases hform

/-- Only filters change a query in its place. -/
theorem plan_eq_replaceQuery {c : Call} {q : Query} (hplan : s.plan c = .ok (.replaceQuery h q)) :
    ∃ p, c = .queryFilter h p := by
  have hform := plan_form c _ hplan
  cases c with
  | queryFilter h' p =>
      obtain ⟨_, -, hplan⟩ := bind_eq_ok.mp hplan
      obtain ⟨_, -, hplan⟩ := bind_eq_ok.mp hplan
      obtain ⟨rfl, -⟩ := Operation.replaceQuery.inj (pure_eq_ok.mp hplan)
      exact ⟨p, rfl⟩
  | _ => cases hform

end Session

/-- Operations that bring nothing in can be relied on. -/
theorem Operation.fits_of_form {w : Workspace} {operation : Operation} {form : Form}
    (h : operation.form = form) (hform : match form with
      | .keep | .replaceQuery | .replaceView | .enclose => False
      | _ => True) : operation.Fits w := by
  subst h
  cases operation <;> trivial

namespace Session
variable {w : Workspace} {h : UInt64}

/-- The table that an object is looked up in is in the group of the context under its own
key. -/
theorem lookUp_seen {α : Type} [Anchored α] {s : Session} {a : Arena (Bound α)} {x : α}
    {t : Table} (hn : ∀ g, s.context.group = .ok g → g.Numbered)
    (hl : s.lookUp a h = .ok (x, t)) : t.key = Anchored.table x ∧
      ∃ g, s.context.group = .ok g ∧ g.table? t.key = some t := by
  obtain ⟨b, -, rfl, hr⟩ := lookUp_eq_ok hl
  obtain ⟨-, -, g, hg, ht, -⟩ := Bound.resolve_eq_ok hr
  have hkey := ((hn g hg).tables _ t ht).1.key
  exact ⟨hkey, g, hg, hkey.symm ▸ ht⟩

/-- An attached query suits its table. -/
theorem query_suits {s : Session} {q : Query} {t : Table}
    (hn : ∀ g, s.context.group = .ok g → g.Numbered) (found : s.query h = .ok (q, t)) :
    t.key = q.table ∧ t.schemaEpoch = q.schemaEpoch := by
  refine ⟨(lookUp_seen hn found).1, ?_⟩
  obtain ⟨b, -, rfl, hr⟩ := lookUp_eq_ok found
  obtain ⟨-, -, -, -, -, hsuits⟩ := Bound.resolve_eq_ok hr
  exact of_decide_eq_true hsuits

theorem table_seen {s : Session} (hn : ∀ g, s.context.group = .ok g → g.Numbered) {t : Table}
    (ht : s.table h = .ok t) : ∃ g, s.context.group = .ok g ∧ g.table? t.key = some t := by
  obtain ⟨⟨x, t⟩, hl, rfl⟩ := map_eq_ok.mp ht
  exact (lookUp_seen hn hl).2

theorem row_eq_ok {s : Session} {t : Table} {i : Nat} : s.row h = .ok (t, i) ↔
    ∃ l, s.lookUp s.rows h = .ok (l, t) ∧ l.indexIn? t = some i := by
  simp only [row, bind_eq_ok, Prod.exists]
  constructor
  · intro h
    obtain ⟨l, u, hl, hfound⟩ := h
    cases hi : l.indexIn? u with
    | none => simp [hi] at hfound
    | some k =>
        simp only [hi] at hfound
        obtain ⟨rfl, rfl⟩ := Prod.mk.inj (pure_eq_ok.mp hfound)
        exact ⟨l, hl, hi⟩
  · intro h
    obtain ⟨l, hl, hi⟩ := h
    exact ⟨l, t, hl, by simp only [hi]; rfl⟩

theorem linkList_eq_ok {s : Session} {t : Table} {column i : Nat} :
    s.linkList h = .ok (t, column, i) ↔
      ∃ l, s.lookUp s.lists h = .ok (l, t) ∧ l.column = column ∧ l.row.indexIn? t = some i := by
  simp only [linkList, bind_eq_ok, Prod.exists]
  constructor
  · intro h
    obtain ⟨l, u, hl, hfound⟩ := h
    cases hi : l.row.indexIn? u with
    | none => simp [hi] at hfound
    | some k =>
        simp only [hi] at hfound
        obtain ⟨rfl, hrest⟩ := Prod.mk.inj (pure_eq_ok.mp hfound)
        obtain ⟨rfl, rfl⟩ := Prod.mk.inj hrest
        exact ⟨l, hl, rfl, hi⟩
  · intro h
    obtain ⟨l, hl, hcolumn, hi⟩ := h
    exact ⟨l, t, hl, by simp only [hi, hcolumn]; rfl⟩

theorem replaceView_fits {v v' : View} {t : Table} {outcome : Except Error Unit}
    (hv : w.session.view h = .ok (v, t)) (hs : Denoting.subject v' = Denoting.subject v) :
    (Operation.replaceView h outcome v').Fits w := by
  obtain ⟨b, hl, rfl, -⟩ := lookUp_eq_ok hv
  intro b' hl'
  obtain rfl := Except.ok.inj (hl.symm.trans hl')
  exact hs

/-- What is looked up is held under the generation on its handle, is bound to the epoch of the
context and stands for something there. -/
theorem lookUp_held {α : Type} [Anchored α] [Denoting α] [Seeable α] {s : Session}
    {a : Arena (Bound α)} {x : α} {t : Table} (hl : s.lookUp a h = .ok (x, t)) :
    ∃ k o g, Handle.decode? h = some k ∧ k.kind = a.kind ∧ a.shelf.held k.slot = some o ∧
      o.generation = k.generation ∧ o.subject = Denoting.subject x ∧
      o.bound = s.context.epoch ∧ s.context.isInTransaction ∧
      s.context.group = .ok g ∧ (g.sight? (Denoting.subject x)).isSome := by
  obtain ⟨b, hb, rfl, hr⟩ := lookUp_eq_ok hl
  obtain ⟨k, hk, hlive⟩ := Arena.get_eq_ok.mp hb
  obtain ⟨hin, hepoch, g, hg, ht, hsuits⟩ := Bound.resolve_eq_ok hr
  obtain ⟨hdecode, hkind⟩ := Arena.decode_eq_ok hk
  refine ⟨k, ⟨k.generation, Tracked.bound b, Tracked.subject b⟩, g, hdecode, hkind, ?_, rfl, rfl,
    hepoch, hin, hg, Seeable.seen b.object g t ht hsuits⟩
  simp only [Arena.shelf, hlive, Option.map_some]

theorem portable_fits {kind : PayloadKind} {p : Payload} {policy : HandoverPolicy}
    (hp : w.session.portable kind h = .ok p) : (Operation.enclose kind h p policy).Fits w := by
  cases kind with
  | query | row | view =>
      obtain ⟨⟨x, t⟩, hl, rfl⟩ := map_eq_ok.mp hp
      obtain ⟨k, o, g, hdecode, -, ho, -, hsubject, hbound, -⟩ := lookUp_held hl
      exact ⟨k, o, hdecode, ho, hsubject, hbound⟩

theorem plan_sends (hn : ∀ g, w.session.context.group = .ok g → g.Numbered) (c : Call) :
    Yields (Operation.Fits w) (w.session.plan c) := by
  cases c with
  | getTable name =>
      refine .bind fun g hg => ?_
      split
      next key hkey =>
        refine .pure fun item hitem => ⟨g, hg, ?_⟩
        obtain rfl := Except.ok.inj hitem
        obtain ⟨t, ht, -⟩ := (hn g hg).indexed name key hkey
        exact Option.isSome_iff_exists.mpr ⟨_, Group.sight?_table ht⟩
      next => exact .pure fun _ hitem => by simp at hitem
  | getRow h row =>
      refine .bind fun t ht => .bind fun i hi => .pure fun item hitem => ?_
      obtain rfl := Except.ok.inj hitem
      obtain ⟨g, hg, htable⟩ := table_seen hn ht
      exact ⟨g, hg, RowLocator.ofRow_seen (hn g hg) htable (Table.checkRow_lt hi)⟩
  | getLinkList h column row =>
      refine .bind fun t ht => .bind fun cell hi => .pure fun item hitem => ?_
      obtain rfl := Except.ok.inj hitem
      obtain ⟨g, hg, htable⟩ := table_seen hn ht
      exact ⟨g, hg, RowLocator.ofRow_seen (hn g hg) htable (Table.checkCell_lt hi)⟩
  | whereTable h =>
      refine .bind fun t ht => .pure fun item hitem => ?_
      obtain rfl := Except.ok.inj hitem
      obtain ⟨g, hg, htable⟩ := table_seen hn ht
      exact ⟨g, hg, Option.isSome_iff_exists.mpr ⟨_, Group.sight?_columns htable⟩⟩
  | queryFilter h p =>
      refine .bind fun found hq => .bind fun _ _ => .pure fun b hl => ?_
      obtain ⟨b', hl', hb', -⟩ := lookUp_eq_ok hq
      obtain rfl := Except.ok.inj (hl'.symm.trans hl)
      rw [hb']
      rfl
  | queryFindAll h start stop limit =>
      refine .bind fun found hq => .bind fun win _ => .pure fun item hitem => ?_
      obtain ⟨v, hv, rfl⟩ := map_eq_ok.mp hitem
      simp only [View.ofQuery, bind_eq_ok, pure_eq_ok] at hv
      obtain ⟨_, -, rfl⟩ := hv
      obtain ⟨g, hg, htable⟩ := (lookUp_seen hn hq).2
      exact ⟨g, hg, Option.isSome_iff_exists.mpr ⟨_, Group.sight?_columns htable⟩⟩
  | viewSort h keys d =>
      exact .bind fun _ hv => .bind fun _ _ =>
        .pure (replaceView_fits hv (View.sort_subject _ _ _ d))
  | viewDistinct h column =>
      refine .bind fun _ hv => .bind fun _ _ => .bind fun _ _ => ?_
      split
      next hthinned => exact .pure (replaceView_fits hv (View.distinct_subject hthinned))
      next => exact .pure (replaceView_fits hv rfl)
  | viewSync h => exact .bind fun _ hv => .pure (replaceView_fits hv (View.sync_subject _ _))
  | exportObject kind h policy => exact .bind fun _ hp => .pure (portable_fits hp)
  | _ => exact plan_yields_of_form fun _ ho => Operation.fits_of_form ho trivial

end Session
end SnapshotStore
