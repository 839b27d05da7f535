import SnapshotStore.Handover.Request
import SnapshotStore.Proofs.View.Comparison

/-!
What goes wrong with a question: columns, rows, windows, keys and operands that do not suit the
table, and objects and contexts that are not in a state for it. Every such failure is a complaint
about what was asked.
-/

namespace SnapshotStore

/-- If it fails, it fails in one of these ways. -/
def FailsBy {α : Type} (P : Error → Prop) (x : Except Error α) : Prop := ∀ e, x = .error e → P e

namespace FailsBy
variable {α β : Type} {P Q : Error → Prop} {x y : Except Error α} {e : Error}

theorem ok (a : α) : FailsBy P (.ok a) := fun _ h => by simp at h

theorem error (h : P e) : FailsBy P (.error e : Except Error α) :=
  fun _ he => Except.error.inj he ▸ h

theorem mono (hx : FailsBy P x) (h : ∀ e, P e → Q e) : FailsBy Q x := fun e he => h e (hx e he)

theorem bind {f : α → Except Error β} (hx : FailsBy P x) (hf : ∀ a, x = .ok a → FailsBy P (f a)) :
    FailsBy P (x >>= f) := by
  cases x with
  | ok a => exact hf a rfl
  | error e => exact error (hx e rfl)

theorem map (hx : FailsBy P x) (f : α → β) : FailsBy P (x.map f) := by
  cases x with
  | ok a => exact ok (f a)
  | error e => exact error (hx e rfl)

theorem ite {p : Prop} [Decidable p] (hx : FailsBy P x) (hy : FailsBy P y) :
    FailsBy P (if p then x else y) := by
  split
  · exact hx
  · exact hy

/-- A condition under which a check ends. -/
theorem stop {p : Prop} [Decidable p] {f : Unit → Except Error α} (he : P e)
    (hf : FailsBy P (f ())) : FailsBy P (if p then throw e >>= f else f ()) :=
  ite (error he) hf

theorem mapM {f : α → Except Error β} (hf : ∀ a, FailsBy P (f a)) (xs : List α) :
    FailsBy P (xs.mapM f) := by
  induction xs with
  | nil => exact ok []
  | cons a xs ih =>
      rw [List.mapM_cons]
      exact (hf a).bind fun b _ => ih.bind fun bs _ => ok (b :: bs)

theorem forM {f : α → Except Error PUnit} (hf : ∀ a, FailsBy P (f a)) (xs : List α) :
    FailsBy P (xs.forM f) := by
  induction xs with
  | nil => exact ok ()
  | cons a xs ih => exact (hf a).bind fun _ _ => ih

end FailsBy

/-- The fault is with what was asked, with the object it was asked of or with the state it was
asked in. -/
def Error.isComplaint : Error → Bool
  | detached .. | invalidState .. | schemaChanged .. | alreadyConsumed .. | columnOutOfRange ..
  | rowOutOfRange .. | invalidRange .. | typeMismatch .. | wrongHandleKind ..
  | illegalArgument .. | unsupported .. => true
  | _ => false

/-- It fails with complaints only. -/
abbrev Complains {α : Type} (x : Except Error α) : Prop := FailsBy (·.isComplaint = true) x

namespace Table
variable (t : Table)

theorem column_complains (index : Nat) : Complains (t.column index) := by
  unfold column
  split
  · exact .ok _
  · exact .error rfl

theorem row_complains (index : Nat) : Complains (t.row index) := by
  unfold row
  split
  · exact .ok _
  · exact .error rfl

theorem columnType_complains (index : Nat) : Complains (t.columnType index) :=
  (t.column_complains index).map _

theorem get_complains (column row : Nat) : Complains (t.get column row) :=
  (t.column_complains column).bind fun _ _ => (t.row_complains row).bind fun _ _ => .ok _

theorem linkList_complains (column row : Nat) : Complains (t.linkList column row) := by
  refine (t.get_complains column row).bind fun v _ => ?_
  split
  · exact .ok _
  · exact .error rfl

theorem checkColumn_complains (index : Int) : Complains (t.checkColumn index) :=
  .ite (.ok _) (.error rfl)

theorem checkRow_complains (index : Int) (allowEnd : Bool) :
    Complains (t.checkRow index allowEnd) :=
  .ite (.ok _) (.error rfl)

theorem checkType_complains (column : Nat) (row? : Option Nat) (expected : ColumnType)
    (allowMixed : Bool) : Complains (t.checkType column row? expected allowMixed) := by
  refine (t.columnType_complains column).bind fun declared _ => .ite (.ok _) ?_
  split
  · exact .ite (((t.get_complains column _).map _).bind fun _ _ => .ite (.ok _) (.error rfl))
      (.error rfl)
  · exact .error rfl

theorem checkNullable_complains (column : Nat) : Complains (t.checkNullable column) :=
  (t.column_complains column).bind fun _ _ => .ite (.ok _) <| .stop rfl <|
    .ite (.error rfl) (.ok _)

theorem checkValue_complains (column : Nat) (v : Value) : Complains (t.checkValue column v) :=
  .ite (t.checkNullable_complains column) <| (t.columnType_complains column).bind fun _ _ =>
    .ite (.error rfl) (.ok _)

theorem checkDistinct_complains (column : Nat) : Complains (t.checkDistinct column) :=
  (t.columnType_complains column).bind fun _ _ => .ite (.error rfl) (.ok _)

theorem aggregate_complains (rows : List Nat) (kind : Aggregate) (column : Nat) :
    Complains (t.aggregate rows kind column) :=
  (t.columnType_complains column).bind fun _ _ => .stop rfl <|
    (FailsBy.mapM (t.get_complains column) rows).bind fun _ _ => .ok _

end Table

theorem Window.ofBounds_complains (size : Nat) (start stop limit : Int) :
    Complains (Window.ofBounds size start stop limit) := by
  unfold ofBounds
  exact .stop rfl <| .stop rfl <| .stop rfl <| .stop rfl <| .stop rfl <| .stop rfl <| .ok _

namespace Predicate

theorem checkComparison_complains (t : Table) (column : Nat) (condition : Condition)
    (operand : Value) : Complains (checkComparison t column condition operand) :=
  (t.columnType_complains column).bind fun _ _ => .ite (.ok ()) <|
    .stop rfl <| .stop rfl <| .stop rfl <| .ite (.error rfl) (.ok ())

mutual

theorem check_complains (t : Table) : (p : Predicate) → Complains (check t p)
  | .all => .ok ()
  | .compare column condition operand _ => checkComparison_complains t column condition operand
  | .and parts | .or parts => checkAll_complains t parts
  | .not inner => check_complains t inner

theorem checkAll_complains (t : Table) : (ps : List Predicate) → Complains (checkAll t ps)
  | [] => .ok ()
  | p :: rest => by
      have hp := check_complains t p
      rw [checkAll]
      split
      · exact checkAll_complains t rest
      next e he => exact .error (hp e he)

end

end Predicate

namespace Query
variable (q : Query) (t : Table)

theorem check_complains : Complains (q.check t) :=
  .ite (.error rfl) <| .ite (.error rfl) <| q.predicate.check_complains t

theorem find_complains (start : Nat) : Complains (q.find t start) :=
  (q.check_complains t).bind fun _ _ => .ok _

theorem findAll_complains (w : Window) : Complains (q.findAll t w) :=
  (q.check_complains t).bind fun _ _ => .ok _

theorem count_complains (w : Window) : Complains (q.count t w) :=
  (q.check_complains t).bind fun _ _ => .ok _

theorem aggregate_complains (kind : Aggregate) (column : Nat) (w : Window) :
    Complains (q.aggregate t kind column w) :=
  (q.check_complains t).bind fun _ _ => t.aggregate_complains _ kind column

end Query

theorem SortKey.check_complains (t : Table) (keys : List SortKey) :
    Complains (SortKey.check t keys) := by
  have hone : ∀ key, Complains (checkOne t key) := fun key =>
    (t.columnType_complains key.column).bind fun _ _ => .ite (.error rfl) (.ok ())
  exact .ite (.error rfl) (.forM hone keys)

namespace View
variable (v : View) (t : Table)

theorem ofQuery_complains (q : Query) (w : Window) : Complains (View.ofQuery t q w) :=
  (q.findAll_complains t w).bind fun _ _ => .ok _

theorem checkAttached_complains : Complains (v.checkAttached t) := .ite (.ok ()) (.error rfl)

theorem rowIndex_complains (position : Nat) : Complains (v.rowIndex position) := by
  unfold rowIndex
  split
  · exact .ok _
  · exact .error rfl

theorem get_complains (column position : Nat) : Complains (v.get t column position) :=
  (v.checkAttached_complains t).bind fun _ _ => (v.rowIndex_complains position).bind fun _ _ =>
    t.get_complains column _

theorem sort_complains {keys : List SortKey} {d : Disorder}
    (h : SortKey.Orders t keys v.rows) : Complains (v.sort t keys d).1 := by
  intro e he
  rcases sort_eq_error he with ⟨hcheck, -⟩ | ⟨reason, -, hpanics, -⟩
  · exact v.checkAttached_complains t e hcheck
  · exact absurd h hpanics.disordered

theorem distinct_complains (column : Nat) : Complains (v.distinct t column) :=
  (v.checkAttached_complains t).bind fun _ _ => (t.checkDistinct_complains column).bind fun _ _ =>
    .bind (.mapM (fun _ => (t.get_complains column _).bind fun _ _ => .ok _) _) fun _ _ => .ok _

theorem resort_complains (hrows : v.Within t.size) : Complains (v.resort t).1 := by
  unfold resort
  split
  · exact v.sort_complains t (SortKey.orders_of_there hrows)
  · exact .ok ()

theorem thinAgain_complains : Complains (v.thinAgain t) := by
  unfold thinAgain
  split
  · exact v.distinct_complains t _
  · exact .ok v

theorem sync_complains : Complains (v.sync t).1 := by
  have hfound : Complains (v.checkAttached t >>= fun () => v.query.findAll t v.window) :=
    (v.checkAttached_complains t).bind fun _ _ => v.query.findAll_complains t v.window
  unfold sync
  split
  next e he => exact .error (hfound e he)
  next rows hrows =>
    obtain ⟨_, -, hrows⟩ := bind_eq_ok.mp hrows
    have hsorted := resort_complains { v with rows } t (Query.findAll_lt hrows)
    split
    next e w he => exact .error (hsorted e (congrArg Prod.fst he))
    next w _ =>
      split
      next e he => exact .error (w.thinAgain_complains t e he)
      · exact .ok ()

theorem aggregate_complains (kind : Aggregate) (column : Nat) :
    Complains (v.aggregate t kind column) :=
  (v.checkAttached_complains t).bind fun _ _ => t.aggregate_complains _ kind column

end View

namespace Request

theorem checkKeys_complains (t : Table) (keys : List (Int × Bool)) : Complains (checkKeys t keys) :=
  .bind (.mapM (fun _ => (t.checkColumn_complains _).bind fun _ _ => .ok _) keys) fun ks _ =>
    (SortKey.check_complains t ks).bind fun _ _ => .ok _

theorem evaluateOn_complains (r : Request) (q : Query) (t : Table) :
    Complains (r.evaluateOn q t) := by
  have hcheck := q.check_complains t
  cases r with
  | find start =>
      exact hcheck.bind fun _ _ => (t.checkRow_complains start true).bind fun start _ =>
        (q.find_complains t start).bind fun _ _ => .ok _
  | findAll start stop limit =>
      exact hcheck.bind fun _ _ => (Window.ofBounds_complains _ start stop limit).bind fun w _ =>
        (View.ofQuery_complains t q w).bind fun _ _ => .ok _
  | findAllSorted start stop limit keys =>
      refine hcheck.bind fun _ _ => (Window.ofBounds_complains _ start stop limit).bind fun w _ =>
        (checkKeys_complains t keys).bind fun ks _ =>
          (View.ofQuery_complains t q w).bind fun v hv => ?_
      have hsort : Complains (v.sort t ks .panic).1 :=
        v.sort_complains t (SortKey.orders_of_there (View.ofQuery_within hv))
      exact hsort.bind fun _ _ => .ok (Found.view (v.sort t ks .panic).2)
  | distinct column =>
      exact hcheck.bind fun _ _ => (t.checkColumn_complains column).bind fun i _ =>
        (t.checkDistinct_complains i).bind fun _ _ => (View.ofQuery_complains t q .all).bind
          fun v _ => (v.distinct_complains t i).bind fun _ _ => .ok _
  | count start stop limit =>
      exact hcheck.bind fun _ _ => (Window.ofBounds_complains _ start stop limit).bind fun w _ =>
        (q.count_complains t w).bind fun _ _ => .ok _
  | aggregate kind column =>
      exact hcheck.bind fun _ _ => (t.checkColumn_complains column).bind fun i _ =>
        (q.aggregate_complains t kind i .all).bind fun _ _ => .ok _

end Request

namespace Context

theorem group_complains (c : Context) : Complains c.group := by
  unfold group
  split
  · exact .ok _
  · exact .ok _
  · exact .error rfl

theorem requireWriting_complains (c : Context) : Complains c.requireWriting :=
  .ite (.ok _) (.error rfl)

end Context

theorem Payload.check_complains (p : Payload) (g : Group) : Complains (p.check g) :=
  .ite (.ok ()) (.error rfl)

theorem Connection.enclose_complains (c : Connection) (p : Payload) (policy : HandoverPolicy) :
    Complains (c.enclose p policy) := by
  unfold enclose
  split
  · exact (p.check_complains _).bind fun _ _ => .ok _
  · exact .error rfl

/-! What complaints are not -/

/-- The library itself is to blame. -/
def Error.isFault : Error → Bool
  | internal _ | panicked _ => true
  | _ => false

/-- No version is to blame for the failure. -/
abbrev Timeless {α : Type} (x : Except Error α) : Prop := FailsBy (·.isBadVersion = false) x

/-- The library is not to blame for the failure. -/
abbrev Faultless {α : Type} (x : Except Error α) : Prop := FailsBy (·.isFault = false) x

namespace Error
variable {e : Error}

theorem isBadVersion_of_isComplaint (h : e.isComplaint = true) : e.isBadVersion = false := by
  cases e <;> first | rfl | simp [isComplaint] at h

theorem isFault_of_isComplaint (h : e.isComplaint = true) : e.isFault = false := by
  cases e <;> first | rfl | simp [isComplaint] at h

end Error

namespace FailsBy
variable {α : Type} {x : Except Error α}

theorem timeless (h : Complains x) : Timeless x := h.mono fun _ => Error.isBadVersion_of_isComplaint

theorem faultless (h : Complains x) : Faultless x := h.mono fun _ => Error.isFault_of_isComplaint

end FailsBy

end SnapshotStore
