import SnapshotStore.Session.Plan

/-!
Services: a database and the sessions that are open on it, each under a number of its own.
-/

namespace SnapshotStore

/-- A database and its sessions. They interleave by whole calls only: each is over before another
session begins one. Calls that run at once may interleave in more ways, wherever one of them takes
a lock of the store or of the registry anew. -/
structure Service where
  database : Database
  sessions : NatMap Session

namespace Service

def openNew (id : String) (settings : Settings) : Except Error Service :=
  (Database.openNew id settings).map fun database => ⟨database, ∅⟩

/-- Close a session; whatever transaction it has open ends. -/
def closeSession (s : Service) (number : Nat) : Service :=
  match s.sessions.get? number with
  | none => s
  | some session =>
    { database := { s.database with
        store := (Workspace.connection ⟨s.database, session⟩).close }
      sessions := s.sessions.erase number }

/-- Open a session under a number, in place of the one that was there. -/
def openSession (s : Service) (number : Nat) : Service :=
  let c := Connection.new s.database.store
  let s := closeSession { s with database := { s.database with store := c.store } } number
  { s with sessions := s.sessions.insert number (.new c.context) }

/-- Make a call on a session. None if there is no such session. -/
def call (s : Service) (number : Nat) (c : Call) : Option (Except Error Outcome × Service) :=
  (s.sessions.get? number).map fun session =>
    match Workspace.call c ⟨s.database, session⟩ with
    | .ok outcome w => (.ok outcome, ⟨w.database, s.sessions.insert number w.session⟩)
    | .error e w => (.error e, ⟨w.database, s.sessions.insert number w.session⟩)

end Service
end SnapshotStore
