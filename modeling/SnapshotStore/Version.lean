/-!
Identities that a store hands out by counting: versions, tables, rows and contexts.
-/

namespace SnapshotStore

/-- A committed state of the store; each commit makes the next one. -/
abbrev Version := Nat

namespace Version

/-- The version of a store that has just been opened. -/
def initial : Version := 1

def text (v : Version) : String := s!"v{v}"

end Version

/-- A table, for as long as its store lives. -/
abbrev TableKey := Nat

namespace TableKey

def text (key : TableKey) : String := s!"table#{key}"

end TableKey

/-- A row within its table, wherever it moves. -/
abbrev RowId := Nat

/-- A transaction context within its store. -/
abbrev ContextId := Nat

namespace ContextId

def text (id : ContextId) : String := s!"ctx#{id}"

end ContextId
end SnapshotStore
