import SnapshotStore.Group

/-!
Changesets: what one commit did to each table, and what a run of commits did to the
tables that something still refers to.
-/

namespace SnapshotStore

structure Changeset where
  /-- The version that the commit made. -/
  version : Version
  removed : List TableKey
  /-- Tables whose schema epoch differs. -/
  reshaped : List TableKey
  /-- Tables with the same schema epoch that the writer touched. -/
  modified : List TableKey
  added : List TableKey
  deriving DecidableEq, Repr

namespace Changeset

inductive Fate
  | removed
  | reshaped
  | modified
  | kept
  deriving DecidableEq

def fate (old new : Group) (key : TableKey) : Fate :=
  match old.tables.get? key, new.tables.get? key with
  | some before, some after =>
    if before.table.schemaEpoch ≠ after.table.schemaEpoch then .reshaped
    else if before.writtenIn ≠ after.writtenIn then .modified
    else .kept
  | _, _ => .removed

def between (version : Version) (old new : Group) : Changeset where
  version
  removed := old.tableKeys.filter fun key => fate old new key = .removed
  reshaped := old.tableKeys.filter fun key => fate old new key = .reshaped
  modified := old.tableKeys.filter fun key => fate old new key = .modified
  added := new.tableKeys.filter fun key => (old.table? key).isNone

def isEmpty (c : Changeset) : Bool :=
  c.removed.isEmpty && c.reshaped.isEmpty && c.modified.isEmpty && c.added.isEmpty

end Changeset

/-- Tables removed or reshaped somewhere in a run of commits, smallest key first. -/
structure ChangeSummary where
  removed : NatMap Unit
  reshaped : NatMap Unit
  deriving DecidableEq

namespace ChangeSummary

def empty : ChangeSummary := ⟨∅, ∅⟩

def mark (keys : List TableKey) (set : NatMap Unit) : NatMap Unit :=
  keys.foldl (fun set key => set.insert key ()) set

def add (s : ChangeSummary) (c : Changeset) : ChangeSummary :=
  ⟨mark c.removed s.removed, mark c.reshaped s.reshaped⟩

def collect (changes : List Changeset) : ChangeSummary := changes.foldl add empty

/-- Whether objects bound to the table are no longer good after the run. -/
def invalidates (s : ChangeSummary) (key : TableKey) : Bool :=
  s.removed.contains key || s.reshaped.contains key

end ChangeSummary
end SnapshotStore
