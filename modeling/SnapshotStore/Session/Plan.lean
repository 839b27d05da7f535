import SnapshotStore.Session.Operation

/-!
Plans: from a call to the operation that it comes to. Handles are resolved first, then
come the column, the row and the type, then the value or link target, and last whether a
write transaction is open. A call that fails here has touched nothing.
-/

namespace SnapshotStore

/-- A position in something of the given size. -/
def checkPosition (position : Int) (size : Nat) : Except Error Nat :=
  if 0 ≤ position ∧ position < size then .ok position.toNat
  else .error (.rowOutOfRange position size false)

namespace Session

def cell (s : Session) (h : UInt64) (column row : Int) (expected : ColumnType) :
    Except Error (Except Error Value) := do
  let t ← s.table h
  let (column, row) ← t.checkCell column row (some (expected, true))
  return t.get column row

def planSet (s : Session) (h : UInt64) (column row : Int) (expected : ColumnType) (v : Value) :
    Except Error Operation := do
  let t ← s.table h
  let (column, row) ← t.checkCell column row (some (expected, false))
  s.context.requireWriting
  return .edit (.set t.key column row v)

/-- Change a table as a whole, once a write transaction is open. -/
def planEdit (s : Session) (h : UInt64) (f : Table → Except Error Edit) :
    Except Error Operation := do
  let t ← s.table h
  let e ← f t
  s.context.requireWriting
  return .edit e

def planRead (s : Session) (h : UInt64) (f : Table → Except Error Reply) :
    Except Error Operation := do
  let t ← s.table h
  return .read (.ok (← f t))

/-- Set any cell of a row but a link list. -/
def planRowSet (s : Session) (h : UInt64) (column : Int) (v : Value) :
    Except Error Operation := do
  let (t, row) ← s.row h
  let column ← t.checkColumn column
  let type ← t.columnType column
  if type = .linkList then
    throw (.illegalArgument "LinkList cells are modified through a link list handle")
  t.checkValue column v
  match v with
  | .link target =>
    let g ← s.context.group
    let _ ← g.checkLinkTarget t column (Error.signed target)
    s.context.requireWriting
    return .edit (.setLink t.key column row target)
  | v =>
    s.context.requireWriting
    return .edit (.set t.key column row v)

/-- The operation that a call comes to. -/
def plan (s : Session) : Call → Except Error Operation
  | .transact t => return .transact t
  | .addTable name => do
    s.context.requireWriting
    return .createTable name
  | .getTable name => do
    let g ← s.context.group
    match g.tableKey? name with
    | some key => return .keep (.ok (.table ⟨key⟩))
    | none => return .keep (.error (.illegalArgument s!"Table '{name}' does not exist."))
  | .hasTable name => do
    let g ← s.context.group
    return .read (.ok (.flag (g.hasTable name)))
  | .removeTable h => s.planEdit h fun t => return .removeTable t.key
  | .tableName h => s.planRead h fun t => return .text t.name
  | .addColumn h type name nullable => do
    let t ← s.table h
    s.context.requireWriting
    if type.isLinkLike then
      throw (.illegalArgument s!"{type.name} columns need a target table; use add_link_column")
    return .edit (.addColumn t.key (.plain name type nullable))
  | .addLinkColumn h type name target => do
    let t ← s.table h
    let target ← s.table target
    s.context.requireWriting
    if !type.isLinkLike then
      throw (.illegalArgument s!"{type.name} is not a link column type")
    return .edit (.addColumn t.key (.toTable name type target.key))
  | .removeColumn h column => s.planEdit h fun t =>
    return .removeColumn t.key (← t.checkColumn column)
  | .columnCount h => s.planRead h fun t => return .number t.columnCount
  | .columnName h column => s.planRead h fun t => do
    return .text (← t.column (← t.checkColumn column)).name
  | .columnType h column => s.planRead h fun t => do
    return .type (← t.columnType (← t.checkColumn column))
  | .columnIndex h name => s.planRead h fun t => return .number? (t.columnIndex? name)
  | .size h => s.planRead h fun t => return .number t.size
  | .addEmptyRow h => s.planEdit h fun t => return .addRow t.key
  | .insertEmptyRow h row => s.planEdit h fun t => do
    let checked ← Access.check ⟨none, some (.insertion row), none⟩ t
    return .insertRow t.key (← checked.row)
  | .removeRow h row => s.planEdit h fun t => return .removeRow t.key (← t.checkRow row false)
  | .clear h => s.planEdit h fun t => return .clear t.key
  | .getScalar h type column row => do
    let v ← s.cell h column row type.columnType
    return .read (v.map fun v => .scalar? (Scalar.ofValue? type v))
  | .setScalar h column row x => s.planSet h column row x.type.columnType x.value
  | .getMixed h column row => do
    let v ← s.cell h column row .mixed
    return .read (v.map .value)
  | .setMixed h column row v => s.planSet h column row .mixed v
  | .getMixedType h column row => do
    let v ← s.cell h column row .mixed
    return .read (v.map fun v => .type? v.type?)
  | .isNull h column row => do
    let t ← s.table h
    let (column, row) ← t.checkCell column row none
    return .read ((t.get column row).map fun v => .flag v.isNull)
  | .setNull h column row => s.planEdit h fun t => do
    let (column, row) ← t.checkCell column row none
    t.checkNullable column
    return .set t.key column row .null
  | .getLink h column row => do
    let v ← s.cell h column row .link
    return .read (v.map fun v => .number? v.link?)
  | .setLink h column row target => s.planEdit h fun t => do
    let (column, row) ← t.checkCell column row (some (.link, false))
    let g ← s.context.group
    return .setLink t.key column row (← g.checkLinkTarget t column target)
  | .nullifyLink h column row => s.planSet h column row .link .null
  | .isTableAttached h => return .answer (.flag (← s.isAttached s.tables h))
  | .isRowAttached h => return .answer (.flag (← s.isAttached s.rows h))
  | .isViewAttached h => return .answer (.flag (← s.isAttached s.views h))
  | .close kind h => return .release kind h
  | .getRow h row => do
    let t ← s.table h
    return .keep (.ok (.row (.ofRow t (← t.checkRow row false))))
  | .rowIndex h => do
    let (_, row) ← s.row h
    return .read (.ok (.number row))
  | .rowGet h column => do
    let (t, row) ← s.row h
    let column ← t.checkColumn column
    return .read ((t.get column row).map .value)
  | .rowSet h column v => s.planRowSet h column v
  | .getLinkList h column row => do
    let t ← s.table h
    let (column, row) ← t.checkCell column row (some (.linkList, false))
    return .keep (.ok (.list ⟨.ofRow t row, column⟩))
  | .linkListSize h => do
    let (t, column, row) ← s.linkList h
    return .read ((t.linkList column row).map fun targets => .number targets.length)
  | .linkListTarget h position => do
    let (t, column, row) ← s.linkList h
    let targets ← t.linkList column row
    let position ← checkPosition position targets.length
    return .read (.ok (.number (targets[position]?.getD 0)))
  | .linkListAdd h target => do
    let (t, column, row) ← s.linkList h
    let g ← s.context.group
    let target ← g.checkLinkTarget t column target
    s.context.requireWriting
    return .edit (.pushLink t.key column row target)
  | .linkListRemove h position => do
    let (t, column, row) ← s.linkList h
    let targets ← t.linkList column row
    let position ← checkPosition position targets.length
    s.context.requireWriting
    return .edit (.eraseLink t.key column row position)
  | .linkListClear h => do
    let (t, column, row) ← s.linkList h
    s.context.requireWriting
    return .edit (.clearLinks t.key column row)
  | .whereTable h => do
    let t ← s.table h
    return .keep (.ok (.query (.ofTable t)))
  | .queryFilter h p => do
    let (q, t) ← s.query h
    let narrowed := q.filter p
    narrowed.check t
    return .replaceQuery h narrowed
  | .queryValidate h => do
    let (q, t) ← s.query h
    return .read (.ok (.text? (match q.check t with
      | .ok () => none
      | .error e => some e.message)))
  | .queryFind h start => do
    let (q, t) ← s.query h
    let start ← t.checkRow start true
    return .read ((q.find t start).map .number?)
  | .queryFindAll h start stop limit => do
    let (q, t) ← s.query h
    let w ← Window.ofBounds t.size start stop limit
    return .keep ((View.ofQuery t q w).map .view)
  | .queryCount h start stop limit => do
    let (q, t) ← s.query h
    let w ← Window.ofBounds t.size start stop limit
    return .read ((q.count t w).map .number)
  | .queryAggregate h kind column => do
    let (q, t) ← s.query h
    let column ← t.checkColumn column
    return .read ((q.aggregate t kind column .all).map .value)
  | .viewSize h => do
    let (v, _) ← s.view h
    return .read (.ok (.number v.size))
  | .viewRowIndex h position => do
    let (v, _) ← s.view h
    let position ← checkPosition position v.size
    return .read ((v.rowIndex position).map .number)
  | .viewGet h column position => do
    let (v, t) ← s.view h
    let column ← t.checkColumn column
    let position ← checkPosition position v.size
    return .read ((v.get t column position).map .value)
  | .viewSort h keys d => do
    let (v, t) ← s.view h
    let keys ← Request.checkKeys t keys
    let (outcome, sorted) := v.sort t keys d
    return .replaceView h outcome sorted
  | .viewDistinct h column => do
    let (v, t) ← s.view h
    let column ← t.checkColumn column
    t.checkDistinct column
    match v.distinct t column with
    | .ok thinned => return .replaceView h (.ok ()) thinned
    | .error e => return .replaceView h (.error e) v
  | .viewSync h => do
    let (v, t) ← s.view h
    let (outcome, synced) := v.sync t
    return .replaceView h outcome synced
  | .viewAggregate h kind column => do
    let (v, t) ← s.view h
    let column ← t.checkColumn column
    return .read ((v.aggregate t kind column).map .value)
  | .exportObject kind h policy => return .enclose kind h (← s.portable kind h) policy
  | .importObject kind h => return .takeOver kind h
  | .run h request => return .run h request
  | .runBatch requests => return .runBatch requests

end Session

/-- Make a call. -/
def Workspace.call (c : Call) : Work Outcome := fun w =>
  match w.session.plan c with
  | .ok operation => operation.perform w
  | .error e => .error e w

end SnapshotStore
