import SnapshotStore.Handover.Request

/-!
Calls: everything that a caller can ask of a session, and what a session answers. Column,
row and window numbers are integers of any sign; handles are raw numbers.
-/

namespace SnapshotStore

inductive ScalarType
  | int
  | bool
  | float
  | double
  | string
  | binary
  | date
  deriving DecidableEq, Repr

namespace ScalarType

def columnType : ScalarType → ColumnType
  | int => .int
  | bool => .bool
  | float => .float
  | double => .double
  | string => .string
  | binary => .binary
  | date => .date

def word : ScalarType → String
  | int => "int"
  | bool => "bool"
  | float => "float"
  | double => "double"
  | string => "string"
  | binary => "binary"
  | date => "date"

end ScalarType

inductive Scalar
  | int (n : Int64)
  | bool (b : Bool)
  | float (bits : UInt32)
  | double (bits : UInt64)
  | string (s : String)
  | binary (bytes : List UInt8)
  | date (millis : Int64)
  deriving DecidableEq

namespace Scalar

def type : Scalar → ScalarType
  | int _ => .int
  | bool _ => .bool
  | float _ => .float
  | double _ => .double
  | string _ => .string
  | binary _ => .binary
  | date _ => .date

def value : Scalar → Value
  | int n => .int n
  | bool b => .bool b
  | float bits => .float bits
  | double bits => .double bits
  | string s => .string s
  | binary bytes => .binary bytes
  | date millis => .date millis

/-- The scalar of the given type that a cell holds, if it holds one. -/
def ofValue? : ScalarType → Value → Option Scalar
  | .int, .int n => some (int n)
  | .bool, .bool b => some (bool b)
  | .float, .float bits => some (float bits)
  | .double, .double bits => some (double bits)
  | .string, .string s => some (string s)
  | .binary, .binary bytes => some (binary bytes)
  | .date, .date millis => some (date millis)
  | _, _ => none

end Scalar

inductive Call
  | transact (t : Transition)
  | addTable (name : String)
  | getTable (name : String)
  | hasTable (name : String)
  | removeTable (h : UInt64)
  | tableName (h : UInt64)
  | addColumn (h : UInt64) (type : ColumnType) (name : String) (nullable : Bool)
  | addLinkColumn (h : UInt64) (type : ColumnType) (name : String) (target : UInt64)
  | removeColumn (h : UInt64) (column : Int)
  | columnCount (h : UInt64)
  | columnName (h : UInt64) (column : Int)
  | columnType (h : UInt64) (column : Int)
  | columnIndex (h : UInt64) (name : String)
  | size (h : UInt64)
  | addEmptyRow (h : UInt64)
  | insertEmptyRow (h : UInt64) (row : Int)
  | removeRow (h : UInt64) (row : Int)
  | clear (h : UInt64)
  | getScalar (h : UInt64) (type : ScalarType) (column row : Int)
  | setScalar (h : UInt64) (column row : Int) (x : Scalar)
  | getMixed (h : UInt64) (column row : Int)
  | setMixed (h : UInt64) (column row : Int) (v : Value)
  | getMixedType (h : UInt64) (column row : Int)
  | isNull (h : UInt64) (column row : Int)
  | setNull (h : UInt64) (column row : Int)
  | getLink (h : UInt64) (column row : Int)
  | setLink (h : UInt64) (column row target : Int)
  | nullifyLink (h : UInt64) (column row : Int)
  | isTableAttached (h : UInt64)
  | isRowAttached (h : UInt64)
  | isViewAttached (h : UInt64)
  | close (kind : HandleKind) (h : UInt64)
  | getRow (h : UInt64) (row : Int)
  | rowIndex (h : UInt64)
  | rowGet (h : UInt64) (column : Int)
  | rowSet (h : UInt64) (column : Int) (v : Value)
  | getLinkList (h : UInt64) (column row : Int)
  | linkListSize (h : UInt64)
  | linkListTarget (h : UInt64) (position : Int)
  | linkListAdd (h : UInt64) (target : Int)
  | linkListRemove (h : UInt64) (position : Int)
  | linkListClear (h : UInt64)
  | whereTable (h : UInt64)
  | queryFilter (h : UInt64) (p : Predicate)
  | queryValidate (h : UInt64)
  | queryFind (h : UInt64) (start : Int)
  | queryFindAll (h : UInt64) (start stop limit : Int)
  | queryCount (h : UInt64) (start stop limit : Int)
  | queryAggregate (h : UInt64) (kind : Aggregate) (column : Int)
  | viewSize (h : UInt64)
  | viewRowIndex (h : UInt64) (position : Int)
  | viewGet (h : UInt64) (column position : Int)
  /-- Should the keys put the rows in no order, this is what comes of it. -/
  | viewSort (h : UInt64) (keys : List (Int × Bool)) (d : Disorder)
  | viewDistinct (h : UInt64) (column : Int)
  | viewSync (h : UInt64)
  | viewAggregate (h : UInt64) (kind : Aggregate) (column : Int)
  | exportObject (kind : PayloadKind) (h : UInt64) (policy : HandoverPolicy)
  | importObject (kind : PayloadKind) (h : UInt64)
  /-- Run a query that was handed over. -/
  | run (h : UInt64) (request : Request)
  | runBatch (requests : List (UInt64 × Request))

namespace Call

def transitionName : Transition → String
  | .beginRead none => "begin_read"
  | .beginRead (some _) => "begin_read_at"
  | .endRead => "end_read"
  | .advance none => "advance_read"
  | .advance (some _) => "advance_read_to"
  | .beginWrite => "begin_write"
  | .promote => "promote_to_write"
  | .commit => "commit"
  | .commitAndRead => "commit_and_continue_as_read"
  | .rollback => "rollback"
  | .rollbackAndRead => "rollback_and_continue_as_read"

def closeName : HandleKind → String
  | .table => "close_table"
  | .row => "close_row"
  | .query => "close_query"
  | .view => "close_view"
  | .linkList => "close_link_list"
  | .envelope => "close_handover"

def payloadWord : PayloadKind → String
  | .query => "query"
  | .row => "row"
  | .view => "view"

def name : Call → String
  | transact t => transitionName t
  | addTable .. => "add_table"
  | getTable .. => "get_table"
  | hasTable .. => "has_table"
  | removeTable .. => "remove_table"
  | tableName .. => "table_name"
  | addColumn .. => "add_column"
  | addLinkColumn .. => "add_link_column"
  | removeColumn .. => "remove_column"
  | columnCount .. => "column_count"
  | columnName .. => "column_name"
  | columnType .. => "column_type"
  | columnIndex .. => "column_index"
  | size .. => "size"
  | addEmptyRow .. => "add_empty_row"
  | insertEmptyRow .. => "insert_empty_row"
  | removeRow .. => "remove_row"
  | clear .. => "clear"
  | getScalar _ type _ _ => "get_" ++ type.word
  | setScalar _ _ _ x => "set_" ++ x.type.word
  | getMixed .. => "get_mixed"
  | setMixed .. => "set_mixed"
  | getMixedType .. => "get_mixed_type"
  | isNull .. => "is_null"
  | setNull .. => "set_null"
  | getLink .. => "get_link"
  | setLink .. => "set_link"
  | nullifyLink .. => "nullify_link"
  | isTableAttached .. => "is_table_attached"
  | isRowAttached .. => "is_row_attached"
  | isViewAttached .. => "is_view_attached"
  | close kind _ => closeName kind
  | getRow .. => "get_row"
  | rowIndex .. => "row_index"
  | rowGet .. => "row_get"
  | rowSet .. => "row_set"
  | getLinkList .. => "get_link_list"
  | linkListSize .. => "link_list_size"
  | linkListTarget .. => "link_list_target"
  | linkListAdd .. => "link_list_add"
  | linkListRemove .. => "link_list_remove"
  | linkListClear .. => "link_list_clear"
  | whereTable .. => "where_table"
  | queryFilter .. => "query_filter"
  | queryValidate .. => "query_validate"
  | queryFind .. => "query_find"
  | queryFindAll .. => "query_find_all"
  | queryCount .. => "query_count"
  | queryAggregate .. => "query_aggregate"
  | viewSize .. => "view_size"
  | viewRowIndex .. => "view_row_index"
  | viewGet .. => "view_get"
  | viewSort .. => "view_sort"
  | viewDistinct .. => "view_distinct"
  | viewSync .. => "view_sync"
  | viewAggregate .. => "view_aggregate"
  | exportObject kind _ _ => "export_" ++ payloadWord kind
  | importObject kind _ => "import_" ++ payloadWord kind
  | run _ request => request.name ++ "_with_handover"
  | runBatch .. => "batch_update_queries"

end Call

/-- The result of a run, rows and views as handles of registered envelopes. -/
inductive HandedResult
  | row (envelope? : Option UInt64)
  | view (envelope : UInt64)
  | count (n : Nat)
  | value (v : Value)
  deriving DecidableEq

namespace HandedResult

def handle? : HandedResult → Option UInt64
  | row h? => h?
  | view h => some h
  | _ => none

def shape : HandedResult → Shape
  | row _ => .row
  | view _ => .view
  | count _ => .count
  | value _ => .value

end HandedResult

inductive Reply
  | nothing
  | version (v : Version)
  | flag (b : Bool)
  | text (s : String)
  | text? (s? : Option String)
  | number (n : Nat)
  | number? (n? : Option Nat)
  | type (t : ColumnType)
  | type? (t? : Option ColumnType)
  | value (v : Value)
  | scalar? (x? : Option Scalar)
  | handle (h : UInt64)
  | result (r : HandedResult)
  | results (version : Version) (rs : List HandedResult)
  deriving DecidableEq

end SnapshotStore
