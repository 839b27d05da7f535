import SnapshotStore.Access
import SnapshotStore.Database
import SnapshotStore.Session.Accessor

/-!
Sessions: a transaction context and the objects that its caller holds handles to.
-/

namespace SnapshotStore

structure Session where
  context : Context
  tables : Arena (Bound TableRef)
  rows : Arena (Bound RowLocator)
  queries : Arena (Bound Query)
  views : Arena (Bound View)
  lists : Arena (Bound ListLocator)

inductive Item
  | table (t : TableRef)
  | row (l : RowLocator)
  | query (q : Query)
  | view (v : View)
  | list (l : ListLocator)

namespace Session

def new (c : Context) : Session :=
  ⟨c, .empty .table, .empty .row, .empty .query, .empty .view, .empty .linkList⟩

/-- Keep an object, bound to the open transaction; answers its handle. -/
def keep (s : Session) (item : Item) : UInt64 × Session :=
  match item with
  | .table t =>
    let (h, tables) := s.tables.insert ⟨t, s.context.epoch⟩
    (h, { s with tables })
  | .row l =>
    let (h, rows) := s.rows.insert ⟨l, s.context.epoch⟩
    (h, { s with rows })
  | .query q =>
    let (h, queries) := s.queries.insert ⟨q, s.context.epoch⟩
    (h, { s with queries })
  | .view v =>
    let (h, views) := s.views.insert ⟨v, s.context.epoch⟩
    (h, { s with views })
  | .list l =>
    let (h, lists) := s.lists.insert ⟨l, s.context.epoch⟩
    (h, { s with lists })

/-- Look up an attached object and its table. -/
def lookUp {α : Type} [Anchored α] (s : Session) (a : Arena (Bound α)) (h : UInt64) :
    Except Error (α × Table) := do
  let b ← a.get h
  return (b.object, ← b.resolve s.context)

def table (s : Session) (h : UInt64) : Except Error Table := (s.lookUp s.tables h).map (·.2)

def query (s : Session) (h : UInt64) : Except Error (Query × Table) := s.lookUp s.queries h

def view (s : Session) (h : UInt64) : Except Error (View × Table) := s.lookUp s.views h

def row (s : Session) (h : UInt64) : Except Error (Table × Nat) := do
  let (l, t) ← s.lookUp s.rows h
  match l.indexIn? t with
  | some index => return (t, index)
  | none => throw (.detached HandleKind.row.name)

/-- The table of a link-list handle, the column of the list and where its row stands now. -/
def linkList (s : Session) (h : UInt64) : Except Error (Table × Nat × Nat) := do
  let (l, t) ← s.lookUp s.lists h
  match l.row.indexIn? t with
  | some index => return (t, l.column, index)
  | none => throw (.detached HandleKind.linkList.name)

/-- Whether the object of a handle is attached. A handle whose object is gone is not. -/
def isAttached {α : Type} [Anchored α] (s : Session) (a : Arena (Bound α)) (h : UInt64) :
    Except Error Bool :=
  match a.get h with
  | .ok b => .ok (b.isAttached s.context)
  | .error e => if e.isDetached then .ok false else .error e

def portable (s : Session) (kind : PayloadKind) (h : UInt64) : Except Error Payload :=
  match kind with
  | .query => (s.lookUp s.queries h).map fun (q, _) => .query q
  | .row => (s.lookUp s.rows h).map fun (l, _) => .row l
  | .view => (s.lookUp s.views h).map fun (v, _) => .view v

end Session
end SnapshotStore
