import SnapshotStore.Proofs.Table.WellFormed

/-!
Changes of one table, from an empty one onwards. Rows come under identities that were not used
before, so however the table came about, no two rows of it have the same identity, and one that is
gone does not come back.
-/

namespace SnapshotStore

/-- What a table can be asked to do to its rows. -/
inductive RowChange
  | add
  | insert (index : Nat)
  | remove (index : Nat)
  | clear
  | set (column row : Nat) (value : Value)

/-- What a table can be asked to do, or has done to it when rows go that it links to. -/
inductive Change
  | rows (c : RowChange)
  | addColumn (c : Column)
  | removeColumn (index : Nat)
  | pushLink (column row target : Nat)
  | eraseLink (column row position : Nat)
  | clearLinks (column row : Nat)
  | mapLinks (target : TableKey) (f : Value → Value)

def RowChange.apply (t : Table) : RowChange → Except Error Table
  | add => .ok t.addRow.2
  | insert index => t.insertRow index
  | remove index => t.removeRow index
  | clear => .ok t.clear
  | set column row v => t.set column row v

namespace Change

def apply (t : Table) : Change → Except Error Table
  | rows c => c.apply t
  | addColumn c => (t.addColumn c).map (·.2)
  | removeColumn index => t.removeColumn index
  | pushLink column row target => t.pushLink column row target
  | eraseLink column row position => t.eraseLink column row position
  | clearLinks column row => t.clearLinks column row
  | mapLinks target f => .ok (t.mapLinks target f)

/-- Whether the change is one of the columns. -/
def Reshapes : Change → Prop
  | addColumn _ | removeColumn _ => True
  | _ => False

end Change

namespace Table
variable {t t' : Table} {c : Change}

/-- The table after a change. One that is refused leaves it as it was. -/
def change (t : Table) (c : Change) : Table := (c.apply t).toOption.getD t

def changeAll (t : Table) (cs : List Change) : Table := cs.foldl change t

/-- The table came about by changes of an empty one. -/
def Made (t : Table) : Prop := ∃ key name cs, t = (empty key name).changeAll cs

theorem change_of_ok (h : c.apply t = .ok t') : t.change c = t' := by rw [change, h]; rfl

theorem change_of_error {e : Error} (h : c.apply t = .error e) : t.change c = t := by
  rw [change, h]; rfl

theorem apply_leads (h : c.apply t = .ok t') : t.Leads t' := by
  cases c with
  | rows c =>
      cases c with
      | add => exact Except.ok.inj h ▸ t.addRow_leads
      | insert index => exact insertRow_leads h
      | remove index => exact removeRow_leads h
      | clear => exact Except.ok.inj h ▸ t.clear_leads
      | set column row v => exact set_leads h
  | addColumn c =>
      obtain ⟨⟨index, t'⟩, hadd, rfl⟩ := map_eq_ok.mp h
      exact addColumn_leads hadd
  | removeColumn index => exact removeColumn_leads h
  | pushLink column row target => exact pushLink_leads h
  | eraseLink column row position => exact eraseLink_leads h
  | clearLinks column row => exact clearLinks_leads h
  | mapLinks target f => exact Except.ok.inj h ▸ t.mapLinks_leads target f

/-! Identities -/

namespace Identified

/-- Rows come to hold other cells. -/
theorem of_cells (h : t.Identified) (size : t'.rows.length = t.rows.length)
    (ids : t'.rowIds = t.rowIds) (next : t'.nextRowId = t.nextRowId) : t'.Identified :=
  ⟨by rw [ids, size, h.counted], ids ▸ h.ids, by rw [ids, next]; exact h.next⟩

theorem putCell (h : t.Identified) (column row : Nat) (v : Value) :
    (t.putCell column row v).Identified :=
  h.of_cells (List.length_modify ..) rfl rfl

theorem applyRows (h : t.Identified) {c : RowChange} (hc : c.apply t = .ok t') :
    t'.Identified := by
  cases c with
  | add =>
      obtain rfl := Except.ok.inj hc
      exact h.fresh (List.perm_append_singleton _ _) (List.perm_append_singleton _ _)
  | insert index =>
      obtain ⟨hindex, rfl⟩ := insertRow_eq_ok hc
      exact h.fresh (List.perm_insertIdx _ _ hindex) (List.perm_insertIdx _ _ (h.counted ▸ hindex))
  | remove index =>
      obtain ⟨hindex, rfl⟩ := removeRow_eq_ok hc
      have hsub := List.eraseIdx_sublist t.rowIds index
      refine ⟨?_, h.ids.sublist hsub, fun id hid => h.next id (hsub.mem hid)⟩
      rw [List.length_eraseIdx_of_lt hindex, List.length_eraseIdx_of_lt (h.counted ▸ hindex),
        h.counted]
  | clear =>
      obtain rfl := Except.ok.inj hc
      exact ⟨rfl, .nil, fun _ hid => nomatch hid⟩
  | set column row v =>
      obtain ⟨_, -, -, rfl⟩ := set_eq_ok hc
      exact h.putCell column row v

theorem apply (h : t.Identified) (hc : c.apply t = .ok t') : t'.Identified := by
  cases c with
  | rows c => exact h.applyRows hc
  | addColumn c =>
      obtain ⟨_, hadd, rfl⟩ := map_eq_ok.mp hc
      rw [(addColumn_eq_ok hadd).2]
      exact h.of_cells (List.length_map _) rfl rfl
  | removeColumn index =>
      obtain ⟨_, -, hc⟩ := bind_eq_ok.mp hc
      rw [← pure_eq_ok.mp hc]
      exact h.of_cells (List.length_map _) rfl rfl
  | pushLink column row target | clearLinks column row =>
      obtain ⟨_, -, hc⟩ := bind_eq_ok.mp hc
      exact pure_eq_ok.mp hc ▸ h.putCell ..
  | eraseLink column row position =>
      obtain ⟨_, -, hc⟩ := bind_eq_ok.mp hc
      split at hc
      · exact nomatch hc
      · exact pure_eq_ok.mp hc ▸ h.putCell ..
  | mapLinks target f => exact Except.ok.inj hc ▸ h.of_cells (List.length_map _) rfl rfl

end Identified

/-! Runs -/

theorem change_leads (t : Table) (c : Change) : t.Leads (t.change c) := by
  cases h : c.apply t with
  | ok t' => exact change_of_ok h ▸ apply_leads h
  | error e => exact (change_of_error h).symm ▸ .refl t

theorem Identified.change (h : t.Identified) (c : Change) : (t.change c).Identified := by
  cases hc : c.apply t with
  | ok t' => exact change_of_ok hc ▸ h.apply hc
  | error e => exact (change_of_error hc).symm ▸ h

theorem changeAll_leads (t : Table) (cs : List Change) : t.Leads (t.changeAll cs) := by
  induction cs generalizing t with
  | nil => exact .refl t
  | cons c cs ih => exact (t.change_leads c).trans (ih (t.change c))

theorem Identified.changeAll (h : t.Identified) (cs : List Change) :
    (t.changeAll cs).Identified := by
  induction cs generalizing t with
  | nil => exact h
  | cons c cs ih => exact ih (h.change c)

theorem Made.identified (h : t.Made) : t.Identified := by
  obtain ⟨key, name, cs, rfl⟩ := h
  have hempty : (empty key name).Identified := ⟨rfl, .nil, fun _ hid => nomatch hid⟩
  exact hempty.changeAll cs

/-- A change of the columns raises the schema epoch. -/
theorem epoch_of_reshapes (hc : c.Reshapes) (h : c.apply t = .ok t') :
    t'.schemaEpoch = t.schemaEpoch + 1 := by
  cases c with
  | addColumn c =>
      obtain ⟨_, hadd, rfl⟩ := map_eq_ok.mp h
      rw [(addColumn_eq_ok hadd).2]
  | removeColumn index =>
      obtain ⟨_, -, h⟩ := bind_eq_ok.mp h
      rw [← pure_eq_ok.mp h]
  | rows | pushLink | eraseLink | clearLinks | mapLinks => exact hc.elim

end Table
end SnapshotStore
