import SnapshotStore.Proofs.Group.Bounds

/-!
What the columns of a group are like. An edit brings no column but the one that it adds, so what
is true of all columns stays true for as long as it is true of the columns that are added.
-/

namespace SnapshotStore

/-- Null may stand in a column of single links, and may not in one of lists of links. -/
def Column.Conforms (c : Column) : Prop :=
  c.type.isLinkLike = true → c.nullable = decide (c.type = .link)

theorem Column.plain_conforms (name : String) {type : ColumnType} (nullable : Bool)
    (h : type.isLinkLike = false) : (plain name type nullable).Conforms :=
  fun hlink => absurd (h.symm.trans hlink) Bool.false_ne_true

theorem Column.toTable_conforms (name : String) (type : ColumnType) (target : TableKey) :
    (toTable name type target).Conforms := fun _ => rfl

def Table.AllColumns (P : Column → Prop) (t : Table) : Prop := ∀ c ∈ t.columns, P c

namespace Table.AllColumns
variable {P : Column → Prop} {t t' : Table} {i j : Nat}

theorem addColumn {c : Column} (h : t.AllColumns P) (hc : P c)
    (ha : t.addColumn c = .ok (i, t')) : t'.AllColumns P := by
  obtain ⟨-, rfl⟩ := Table.addColumn_eq_ok ha
  intro d hd
  rcases List.mem_append.mp hd with hd | hd
  · exact h d hd
  · exact List.mem_singleton.mp hd ▸ hc

theorem removeColumn (h : t.AllColumns P) (ha : t.removeColumn i = .ok t') : t'.AllColumns P := by
  simp only [Table.removeColumn, bind_eq_ok, pure_eq_ok] at ha
  obtain ⟨c, -, rfl⟩ := ha
  exact fun d hd => h d (List.mem_of_mem_eraseIdx hd)

theorem insertRow (h : t.AllColumns P) (ha : t.insertRow i = .ok t') : t'.AllColumns P := by
  obtain ⟨-, rfl⟩ := Table.insertRow_eq_ok ha
  exact h

theorem removeRow (h : t.AllColumns P) (ha : t.removeRow i = .ok t') : t'.AllColumns P := by
  simp only [Table.removeRow, bind_eq_ok, pure_eq_ok] at ha
  obtain ⟨r, -, rfl⟩ := ha
  exact h

theorem set {v : Value} (h : t.AllColumns P) (ha : t.set i j v = .ok t') : t'.AllColumns P := by
  obtain ⟨c, -, -, rfl⟩ := Table.set_eq_ok ha
  exact h

theorem pushLink {target : Nat} (h : t.AllColumns P) (ha : t.pushLink i j target = .ok t') :
    t'.AllColumns P := by
  simp only [Table.pushLink, bind_eq_ok, pure_eq_ok] at ha
  obtain ⟨rows, -, rfl⟩ := ha
  exact h

theorem eraseLink {position : Nat} (h : t.AllColumns P)
    (ha : t.eraseLink i j position = .ok t') : t'.AllColumns P := by
  simp only [Table.eraseLink, bind_eq_ok] at ha
  obtain ⟨rows, -, ha⟩ := ha
  split at ha
  · simp at ha
  · obtain rfl := pure_eq_ok.mp ha
    exact h

theorem clearLinks (h : t.AllColumns P) (ha : t.clearLinks i j = .ok t') : t'.AllColumns P := by
  simp only [Table.clearLinks, bind_eq_ok, pure_eq_ok] at ha
  obtain ⟨rows, -, rfl⟩ := ha
  exact h

end Table.AllColumns

/-- All columns of all tables are such. -/
def Group.AllColumns (P : Column → Prop) (g : Group) : Prop :=
  ∀ (k : Nat) t, g.table? k = some t → t.AllColumns P

namespace Group.AllColumns
variable {P : Column → Prop} {g g' : Group} {key : TableKey} {t : Table}

theorem empty : Group.empty.AllColumns P := fun k t ht => by simp [Group.empty, table?] at ht

theorem revise (h : g.AllColumns P) (revision : Version) :
    Group.AllColumns P { g with revision } := h

theorem put (h : g.AllColumns P) (key : TableKey) (ht : t.AllColumns P) :
    (g.put key t).AllColumns P := by
  intro k u hu
  rw [table?_put] at hu
  split at hu
  · exact Option.some.inj hu ▸ ht
  · exact h k u hu

theorem mapLinks (h : g.AllColumns P) (target : TableKey) (f : Value → Value) :
    (g.mapLinks target f).AllColumns P := by
  intro k u hu
  rw [table?_mapLinks] at hu
  obtain ⟨t, ht, rfl⟩ := Option.map_eq_some_iff.mp hu
  exact h k t ht

theorem write {α : Type} {f : Table → Except Error (α × Table)} (h : g.AllColumns P)
    (hf : ∀ t made t', t.AllColumns P → f t = .ok (made, t') → t'.AllColumns P) :
    (g.write key f).2.AllColumns P := by
  unfold Group.write
  cases ht : g.table? key with
  | none => exact h
  | some t =>
      have hold := h key t ht
      dsimp only
      cases hr : f t with
      | error e => exact h.put key hold
      | ok r => exact h.put key (hf t r.1 r.2 hold hr)

theorem overwrite {f : Table → Except Error Table} (h : g.AllColumns P)
    (hf : ∀ t t', t.AllColumns P → f t = .ok t' → t'.AllColumns P) :
    (g.overwrite key f).2.AllColumns P := by
  refine h.write fun t made t' ht hr => ?_
  obtain ⟨u, hu, he⟩ := map_eq_ok.mp hr
  obtain ⟨-, rfl⟩ := Prod.mk.inj he
  exact hf t u ht hu

theorem writeLink {column target : Nat} {expected : ColumnType} {f : Table → Except Error Table}
    (h : g.AllColumns P) (hf : ∀ t t', t.AllColumns P → f t = .ok t' → t'.AllColumns P) :
    (g.writeLink key column target expected f).2.AllColumns P := by
  unfold Group.writeLink
  split
  · exact h
  · exact h.overwrite hf

theorem removeRow (h : g.AllColumns P) (key : TableKey) (row : Nat) :
    (g.removeRow key row).2.AllColumns P := by
  have hdropped : (g.overwrite key (·.removeRow row)).2.AllColumns P :=
    h.overwrite fun _ _ ht => ht.removeRow
  unfold Group.removeRow
  split
  next he => exact he ▸ hdropped
  next he => exact (he ▸ hdropped).mapLinks key _

theorem clearTable (h : g.AllColumns P) (key : TableKey) : (g.clearTable key).2.AllColumns P := by
  have hcleared : (g.overwrite key fun t => .ok t.clear).2.AllColumns P :=
    h.overwrite fun _ _ ht hr => Except.ok.inj hr ▸ ht
  unfold Group.clearTable
  split
  next he => exact he ▸ hcleared
  next he => exact (he ▸ hcleared).mapLinks key _

theorem addTable {name : String} (h : g.AllColumns P) (ha : g.addTable name = .ok (key, g')) :
    g'.AllColumns P := by
  obtain ⟨-, -, -, -, hget⟩ := addTable_eq_ok ha
  intro k u hu
  rw [hget] at hu
  split at hu
  · exact Option.some.inj hu ▸ fun c hc => absurd hc List.not_mem_nil
  · exact h k u hu

theorem removeTable (h : g.AllColumns P) (ha : g.removeTable key = .ok g') : g'.AllColumns P := by
  simp only [Group.removeTable, bind_eq_ok] at ha
  obtain ⟨t, -, ha⟩ := ha
  split at ha
  · simp at ha
  · obtain rfl := pure_eq_ok.mp ha
    intro k u hu
    simp only [table?, NatMap.get?_erase] at hu
    split at hu
    · simp at hu
    · exact h k u hu

/-- An edit, refused or not, brings no column but the one that it adds. -/
theorem edit (h : g.AllColumns P) {e : Edit} (hnew : ∀ key c, e = .addColumn key c → P c) :
    (g.edit e).2.AllColumns P := by
  cases e with
  | addTable name =>
      simp only [Group.edit]
      split
      next ha => exact h.addTable ha
      next => exact h
  | removeTable key =>
      simp only [Group.edit]
      split
      next ha => exact h.removeTable ha
      next => exact h
  | addColumn key c => exact h.write fun _ _ _ ht => ht.addColumn (hnew key c rfl)
  | addRow key =>
      refine write (f := fun t => .ok t.addRow) h fun t _ t' ht ha => ?_
      obtain ⟨-, rfl⟩ := Prod.mk.inj (Except.ok.inj ha)
      exact ht
  | removeColumn key column => exact h.overwrite fun _ _ ht => ht.removeColumn
  | insertRow key row => exact h.overwrite fun _ _ ht => ht.insertRow
  | removeRow key row => exact h.removeRow key row
  | dropRow key row => exact h.overwrite fun _ _ ht => ht.removeRow
  | clear key => exact h.clearTable key
  | dropRows key => exact h.overwrite fun _ _ ht hr => Except.ok.inj hr ▸ ht
  | set key column row v => exact h.overwrite fun _ _ ht => ht.set
  | setLink key column row target => exact h.writeLink fun _ _ ht => ht.set
  | pushLink key column row target => exact h.writeLink fun _ _ ht => ht.pushLink
  | eraseLink key column row position => exact h.overwrite fun _ _ ht => ht.eraseLink
  | clearLinks key column row => exact h.overwrite fun _ _ ht => ht.clearLinks

end Group.AllColumns
end SnapshotStore
