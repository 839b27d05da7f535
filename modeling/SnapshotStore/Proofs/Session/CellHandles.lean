import SnapshotStore.Proofs.Group.CellWrites
import SnapshotStore.Proofs.Session.Bounds

/-!
Handles while a cell is written. No handle of the session leads anywhere else than before, and those
into the table lead to the table as it is now.
-/

namespace SnapshotStore

/-! What an object asks of its table is not about any cell -/

/-- Whether a table suits an object does not depend on what is in a cell. -/
def Anchored.Steady (α : Type) [Anchored α] : Prop :=
  ∀ (x : α) (t t' : Table) (column row : Nat), t.SameBut t' column row →
    Anchored.suits x t' = Anchored.suits x t

namespace Table.SameBut
variable {t t' : Table} {column row : Nat}

theorem findRow? (h : t.SameBut t' column row) (id : RowId) (hint : Nat) :
    t'.findRow? id hint = t.findRow? id hint := by
  rw [Table.findRow?, Table.findRow?, Table.rowId?, Table.rowId?, h.ids]

theorem indexIn? (h : t.SameBut t' column row) (l : RowLocator) : l.indexIn? t' = l.indexIn? t := by
  simp only [RowLocator.indexIn?, h.key, h.schemaEpoch, h.findRow?]

theorem columnType (h : t.SameBut t' column row) (i : Nat) : t'.columnType i = t.columnType i := by
  simp only [Table.columnType, Table.column, Table.columnCount, h.columns]

end Table.SameBut

theorem TableRef.steady : Anchored.Steady TableRef := fun _ _ _ _ _ _ => rfl

theorem RowLocator.steady : Anchored.Steady RowLocator :=
  fun l _ _ _ _ h => congrArg Option.isSome (h.indexIn? l)

theorem ListLocator.steady : Anchored.Steady ListLocator :=
  fun l _ _ _ _ h => congrArg Option.isSome (h.indexIn? l.row)

theorem Query.steady : Anchored.Steady Query :=
  fun q _ _ _ _ h => congrArg (fun epoch => decide (epoch = q.schemaEpoch)) h.schemaEpoch

theorem View.steady : Anchored.Steady View := by
  intro v t t' column row h
  simp only [Anchored.suits, View.isAttached, h.key, h.schemaEpoch]

/-! After the table was put back -/

section Put
variable {α : Type} [Anchored α] {c : Context} {base : Version} {g : Group} {t t' : Table}
  {column row : Nat}

theorem Bound.resolve_writing (hstate : c.state = .writing base g) (b : Bound α) :
    b.resolve c = if c.epoch = b.epoch then
        ((g.table? (Anchored.table b.object)).filter (Anchored.suits b.object)).elim
          (.error (.detached (Anchored.kind α).name)) .ok
      else .error (.detached (Anchored.kind α).name) := by
  have hopen : c.isInTransaction = true := by
    simp only [Context.isInTransaction, hstate, TransactionState.version?, Option.isSome_some]
  have hgroup : c.group = .ok g := Context.group_of_writing hstate
  have hthrow (e : Error) : (throw e : Except Error Table) = .error e := rfl
  by_cases hepoch : c.epoch = b.epoch
  case neg => simp [resolve, hepoch]
  case pos =>
    cases hu : g.table? (Anchored.table b.object) with
    | none => simp [resolve, hopen, hepoch, hgroup, bind, Except.bind, hu, hthrow]
    | some u =>
        by_cases hs : Anchored.suits b.object u <;>
          simp [resolve, hopen, hepoch, hgroup, bind, Except.bind, hu, hs, Option.filter, pure,
            Except.pure, hthrow]

theorem Bound.resolve_put (hα : Anchored.Steady α) (hstate : c.state = .writing base g)
    (ht : g.table? t.key = some t) (same : t.SameBut t' column row) (b : Bound α) :
    b.resolve { c with state := .writing base (g.put t.key t') } =
      (b.resolve c).map fun u => if Anchored.table b.object = t.key then t' else u := by
  rw [resolve_writing hstate, resolve_writing (g := g.put t.key t') rfl]
  by_cases hepoch : c.epoch = b.epoch
  case neg => simp only [hepoch, if_false]; rfl
  case pos =>
    by_cases hkey : Anchored.table b.object = t.key
    · have hsuits := hα b.object t t' column row same
      by_cases hs : Anchored.suits b.object t <;>
        simp [hepoch, hkey, Group.table?_put, ht, Option.filter, hsuits, hs, Except.map]
    · cases hu : g.table? (Anchored.table b.object) with
      | none => simp [hepoch, hkey, Group.table?_put, hu, Except.map]
      | some u =>
        by_cases hs : Anchored.suits b.object u <;>
          simp [hepoch, hkey, Group.table?_put, hu, Option.filter, hs, Except.map]

end Put

namespace Session

/-- The session with another group to work on. -/
def working (s : Session) (base : Version) (g : Group) : Session :=
  { s with context := { s.context with state := .writing base g } }

/-- The same objects are under the same handles, and the same of them are attached. -/
def SameArena {α : Type} [Anchored α] (s s' : Session) (a a' : Arena (Bound α)) : Prop :=
  a' = a ∧ ∀ h, s'.isAttached a' h = s.isAttached a h

structure SameHandles (s s' : Session) : Prop where
  tables : s.SameArena s' s.tables s'.tables
  rows : s.SameArena s' s.rows s'.rows
  queries : s.SameArena s' s.queries s'.queries
  views : s.SameArena s' s.views s'.views
  lists : s.SameArena s' s.lists s'.lists

section Put
variable {s : Session} {base : Version} {g : Group} {t t' : Table} {column row : Nat} {h : UInt64}
  (hstate : s.context.state = .writing base g) (ht : g.table? t.key = some t)
  (same : t.SameBut t' column row)
include hstate ht same

theorem isAttached_put {α : Type} [Anchored α] (hα : Anchored.Steady α) (a : Arena (Bound α))
    (h : UInt64) : (s.working base (g.put t.key t')).isAttached a h = s.isAttached a h := by
  simp only [isAttached, working]
  cases a.get h with
  | error e => rfl
  | ok b =>
      simp only [Bound.isAttached, Bound.resolve_put hα hstate ht same]
      cases b.resolve s.context <;> rfl

theorem sameHandles_put : s.SameHandles (s.working base (g.put t.key t')) where
  tables := ⟨rfl, isAttached_put hstate ht same TableRef.steady _⟩
  rows := ⟨rfl, isAttached_put hstate ht same RowLocator.steady _⟩
  queries := ⟨rfl, isAttached_put hstate ht same Query.steady _⟩
  views := ⟨rfl, isAttached_put hstate ht same View.steady _⟩
  lists := ⟨rfl, isAttached_put hstate ht same ListLocator.steady _⟩

variable (hn : ∀ g, s.context.group = .ok g → g.Numbered)
include hn

/-- An object of the table is found again, now with the table as it is. -/
theorem lookUp_put {α : Type} [Anchored α] (hα : Anchored.Steady α) {a : Arena (Bound α)} {x : α}
    (found : s.lookUp a h = .ok (x, t)) :
    (s.working base (g.put t.key t')).lookUp a h = .ok (x, t') := by
  obtain ⟨hkey, -⟩ := lookUp_seen hn found
  obtain ⟨b, hb, hrest⟩ := bind_eq_ok.mp found
  obtain ⟨u, hu, he⟩ := bind_eq_ok.mp hrest
  obtain ⟨rfl, rfl⟩ := Prod.mk.inj (pure_eq_ok.mp he)
  have hput := Bound.resolve_put hα hstate ht same b
  rw [hu, Except.map, if_pos hkey.symm] at hput
  exact bind_eq_ok.mpr ⟨b, hb, bind_eq_ok.mpr ⟨t', hput, rfl⟩⟩

theorem table_put (found : s.table h = .ok t) :
    (s.working base (g.put t.key t')).table h = .ok t' := by
  obtain ⟨⟨x, u⟩, hl, rfl⟩ := map_eq_ok.mp found
  exact map_eq_ok.mpr ⟨_, lookUp_put hstate ht same hn TableRef.steady hl, rfl⟩

theorem row_put {i : Nat} (found : s.row h = .ok (t, i)) :
    (s.working base (g.put t.key t')).row h = .ok (t', i) := by
  obtain ⟨l, hl, hi⟩ := row_eq_ok.mp found
  exact row_eq_ok.mpr ⟨l, lookUp_put hstate ht same hn RowLocator.steady hl, by
    rw [same.indexIn?, hi]⟩

theorem linkList_put {i j : Nat} (found : s.linkList h = .ok (t, j, i)) :
    (s.working base (g.put t.key t')).linkList h = .ok (t', j, i) := by
  obtain ⟨l, hl, hj, hi⟩ := linkList_eq_ok.mp found
  exact linkList_eq_ok.mpr ⟨l, lookUp_put hstate ht same hn ListLocator.steady hl, hj, by
    rw [same.indexIn?, hi]⟩

end Put
end Session
end SnapshotStore
