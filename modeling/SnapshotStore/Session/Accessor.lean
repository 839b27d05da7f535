import SnapshotStore.Envelope

/-!
Objects that a session keeps under handles. Each is bound to the transaction in which its
handle was issued and detaches when that transaction ends, when its table is removed or
changes its columns, or when its row is removed.
-/

namespace SnapshotStore

structure TableRef where
  key : TableKey
  deriving DecidableEq, Repr

structure ListLocator where
  row : RowLocator
  column : Nat
  deriving DecidableEq, Repr

/-- Objects that live in a table and can detach from it. -/
class Anchored (α : Type) where
  kind : HandleKind
  table : α → TableKey
  /-- Whether the table, as it is now, still suits the object. -/
  suits : α → Table → Bool

instance : Anchored TableRef where
  kind := .table
  table := TableRef.key
  suits _ _ := true

instance : Anchored RowLocator where
  kind := .row
  table := RowLocator.table
  suits l t := (l.indexIn? t).isSome

instance : Anchored Query where
  kind := .query
  table := Query.table
  suits q t := t.schemaEpoch = q.schemaEpoch

instance : Anchored View where
  kind := .view
  table := View.table
  suits := View.isAttached

instance : Anchored ListLocator where
  kind := .linkList
  table l := l.row.table
  suits l t := (l.row.indexIn? t).isSome

/-- An object bound to the epoch of a context. -/
structure Bound (α : Type) where
  object : α
  epoch : Nat

namespace Bound
variable {α : Type} [Anchored α]

def resolve (b : Bound α) (c : Context) : Except Error Table :=
  if !c.isInTransaction || c.epoch ≠ b.epoch then
    .error (.detached (Anchored.kind α).name)
  else do
    let g ← c.group
    match g.table? (Anchored.table b.object) with
    | some t =>
      if Anchored.suits b.object t then return t
      else throw (.detached (Anchored.kind α).name)
    | none => throw (.detached (Anchored.kind α).name)

def isAttached (b : Bound α) (c : Context) : Bool := (b.resolve c).isOk

end Bound
end SnapshotStore
