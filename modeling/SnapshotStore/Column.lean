import SnapshotStore.ColumnType
import SnapshotStore.Version

/-!
Descriptions of columns.
-/

namespace SnapshotStore

structure Column where
  name : String
  type : ColumnType
  nullable : Bool
  /-- The table that link and link-list cells point into. -/
  target? : Option TableKey
  deriving DecidableEq, Repr

namespace Column

def plain (name : String) (type : ColumnType) (nullable : Bool) : Column :=
  ⟨name, type, nullable, none⟩

/-- A column of links into a table. A single link may be absent, a list of links not. -/
def toTable (name : String) (type : ColumnType) (target : TableKey) : Column :=
  ⟨name, type, type = .link, some target⟩

end Column
end SnapshotStore
