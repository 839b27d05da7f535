import SnapshotStore.Proofs.Group.Columns
import SnapshotStore.Proofs.Session.Calls

/-!
The edits that calls come to. What a call checks before it edits makes the edit safe for the
group that its context is writing.
-/

namespace SnapshotStore

/-! What the checks of arguments establish -/

namespace Table
variable {t : Table} {column row : Int} {i j : Nat} {expected : ColumnType}

theorem checkType_strict {row? : Option Nat} (h : t.checkType i row? expected false = .ok ()) :
    t.columnType i = .ok expected := by
  simp only [checkType, bind_eq_ok] at h
  obtain ⟨declared, hdeclared, h⟩ := h
  split at h
  next he => exact he ▸ hdeclared
  next => split at h <;> simp at h

/-- A cell that passes a strict check is in a column of the expected type. -/
theorem checkCell_strict (h : t.checkCell column row (some (expected, false)) = .ok (i, j)) :
    t.columnType i = .ok expected :=
  checkType_strict ((checkCell_eq_ok h).2.2 _ rfl)

theorem checkValue_fits {v : Value} {type : ColumnType} (h : t.checkValue i v = .ok ())
    (htype : t.columnType i = .ok type) : v.fits type := by
  unfold checkValue at h
  split at h
  next hnull => cases v <;> first | rfl | simp [Value.isNull] at hnull
  next =>
    simp only [bind_eq_ok] at h
    obtain ⟨declared, hdeclared, h⟩ := h
    obtain rfl := Except.ok.inj (htype.symm.trans hdeclared)
    split at h
    · simp at h
    next hfits => simpa using hfits

end Table

namespace Edit
variable {g : Group} {t : Table} {i j : Nat} {v : Value}

theorem set_safe_of_scalar (key : TableKey) (i j : Nat) (h : v.targets = []) :
    (Edit.set key i j v).Safe g := .inl h

/-- Any value may be put into a column that is not for links. -/
theorem set_safe_of_column {type : ColumnType} (ht : g.table? t.key = some t)
    (htype : t.columnType i = .ok type) (hplain : type.isLinkLike = false) :
    (Edit.set t.key i j v).Safe g := by
  refine .inr fun u c hu hc => ?_
  obtain rfl := Option.some.inj (ht.symm.trans hu)
  obtain ⟨d, hd, rfl⟩ := Table.columnType_eq_ok.mp htype
  exact Option.some.inj (hd.symm.trans hc) ▸ hplain

end Edit

/-! Calls and the edits they come to -/

namespace Session
variable {s : Session} {h : UInt64} {g : Group} {e : Edit} {operation : Operation}

theorem planEdit_eq_ok {f : Table → Except Error Edit} (hp : s.planEdit h f = .ok (.edit e)) :
    ∃ t, s.table h = .ok t ∧ f t = .ok e := by
  simp only [planEdit, bind_eq_ok, pure_eq_ok] at hp
  obtain ⟨t, ht, e', he, _, -, hedit⟩ := hp
  exact ⟨t, ht, Operation.edit.inj hedit ▸ he⟩

theorem planSet_eq_ok {column row : Int} {expected : ColumnType} {v : Value}
    (hp : s.planSet h column row expected v = .ok (.edit e)) : ∃ t i j,
      s.table h = .ok t ∧ t.checkCell column row (some (expected, false)) = .ok (i, j) ∧
      e = .set t.key i j v := by
  simp only [planSet, bind_eq_ok, pure_eq_ok] at hp
  obtain ⟨t, ht, ⟨i, j⟩, hc, _, -, hedit⟩ := hp
  exact ⟨t, i, j, ht, hc, (Operation.edit.inj hedit).symm⟩

/-- A row takes no list of links, and a single link only where its target is checked. -/
theorem planRowSet_safe {column : Int} {v : Value}
    (hp : s.planRowSet h column v = .ok (.edit e)) : e.Safe g := by
  simp only [planRowSet, bind_eq_ok] at hp
  obtain ⟨⟨t, row⟩, -, i, -, type, htype, hp⟩ := hp
  split at hp
  · simp at hp
  next hlist =>
    simp only [bind_eq_ok] at hp
    obtain ⟨_, hvalue, hp⟩ := hp
    have hfits := Table.checkValue_fits hvalue htype
    split at hp
    next =>
      simp only [bind_eq_ok, pure_eq_ok] at hp
      obtain ⟨_, -, _, -, _, -, hedit⟩ := hp
      exact Operation.edit.inj hedit ▸ trivial
    next _ hlink =>
      simp only [bind_eq_ok, pure_eq_ok] at hp
      obtain ⟨_, -, hedit⟩ := hp
      refine Operation.edit.inj hedit ▸ Edit.set_safe_of_scalar _ _ _ ?_
      cases v with
      | link target => exact absurd rfl (hlink target)
      | linkList rows => exact absurd (Value.linkList_fits.mp hfits) hlist
      | null | bool b | int n | float b | double b | string x | binary b | date d => rfl

/-- Whatever edit a call comes to, it is safe for the group that the context sees. -/
theorem plan_edit_safe {c : Call} (hg : s.context.group = .ok g) (hn : g.Numbered)
    (hp : s.plan c = .ok (.edit e)) : e.Safe g := by
  have hseen : ∀ (h : UInt64) (t : Table), s.table h = .ok t → g.table? t.key = some t := by
    intro h t ht
    have hnumbered : ∀ g', s.context.group = .ok g' → g'.Numbered := fun g' hg' =>
      Except.ok.inj (hg.symm.trans hg') ▸ hn
    obtain ⟨g', hg', hseen⟩ := table_seen hnumbered ht
    exact Except.ok.inj (hg'.symm.trans hg) ▸ hseen
  have hform := plan_form c _ hp
  cases c with
  | removeTable h | addEmptyRow h | clear h =>
      obtain ⟨t, -, he⟩ := planEdit_eq_ok hp
      exact pure_eq_ok.mp he ▸ trivial
  | removeColumn h column | removeRow h row =>
      obtain ⟨t, -, he⟩ := planEdit_eq_ok hp
      simp only [bind_eq_ok, pure_eq_ok] at he
      obtain ⟨_, -, rfl⟩ := he
      trivial
  | insertEmptyRow h row =>
      obtain ⟨t, -, he⟩ := planEdit_eq_ok hp
      simp only [bind_eq_ok, pure_eq_ok] at he
      obtain ⟨_, -, _, -, rfl⟩ := he
      trivial
  | setLink h column row target =>
      obtain ⟨t, -, he⟩ := planEdit_eq_ok hp
      simp only [bind_eq_ok, pure_eq_ok] at he
      obtain ⟨_, -, _, -, _, -, rfl⟩ := he
      trivial
  | setNull h column row =>
      obtain ⟨t, -, he⟩ := planEdit_eq_ok hp
      simp only [bind_eq_ok, pure_eq_ok] at he
      obtain ⟨_, -, _, -, rfl⟩ := he
      exact Edit.set_safe_of_scalar _ _ _ rfl
  | addColumn h type name nullable =>
      simp only [plan, bind_eq_ok] at hp
      obtain ⟨t, -, _, -, hp⟩ := hp
      split at hp
      · simp at hp
      next hplain =>
        obtain rfl := Operation.edit.inj (pure_eq_ok.mp hp)
        have htype : type.isLinkLike = false := by simpa using hplain
        exact ⟨htype.symm, fun _ hinto => absurd hinto.symm (Option.some_ne_none _)⟩
  | addLinkColumn h type name target =>
      simp only [plan, bind_eq_ok] at hp
      obtain ⟨t, -, into, hinto, _, -, hp⟩ := hp
      split at hp
      · simp at hp
      next hlink =>
        obtain rfl := Operation.edit.inj (pure_eq_ok.mp hp)
        have htype : type.isLinkLike = true := by simpa using hlink
        refine ⟨htype.symm, fun key hkey => ⟨into, ?_⟩⟩
        exact Option.some.inj hkey ▸ hseen target into hinto
  | setScalar h column row x =>
      obtain ⟨t, i, j, -, -, rfl⟩ := planSet_eq_ok hp
      exact Edit.set_safe_of_scalar _ _ _ (by cases x <;> rfl)
  | setMixed h column row v =>
      obtain ⟨t, i, j, ht, hcell, rfl⟩ := planSet_eq_ok hp
      exact Edit.set_safe_of_column (hseen h t ht) (Table.checkCell_strict hcell) rfl
  | nullifyLink h column row =>
      obtain ⟨t, i, j, -, -, rfl⟩ := planSet_eq_ok hp
      exact Edit.set_safe_of_scalar _ _ _ rfl
  | rowSet h column v => exact planRowSet_safe hp
  | linkListAdd h target =>
      simp only [plan, bind_eq_ok, pure_eq_ok] at hp
      obtain ⟨_, -, _, -, _, -, _, -, hedit⟩ := hp
      exact Operation.edit.inj hedit ▸ trivial
  | linkListRemove h position =>
      simp only [plan, bind_eq_ok, pure_eq_ok] at hp
      obtain ⟨_, -, _, -, _, -, _, -, hedit⟩ := hp
      exact Operation.edit.inj hedit ▸ trivial
  | linkListClear h =>
      simp only [plan, bind_eq_ok, pure_eq_ok] at hp
      obtain ⟨_, -, _, -, hedit⟩ := hp
      exact Operation.edit.inj hedit ▸ trivial
  | _ => cases hform

/-- A column that a call comes to add is one for links if it is one of a link type only. -/
theorem plan_addColumn_conforms {c : Call} {key : TableKey} {column : Column}
    (hp : s.plan c = .ok (.edit (.addColumn key column))) : column.Conforms := by
  have hform := plan_form c _ hp
  cases c with
  | addColumn h type name nullable =>
      simp only [plan, bind_eq_ok] at hp
      obtain ⟨t, -, _, -, hp⟩ := hp
      split at hp
      · simp at hp
      next hplain =>
        obtain ⟨-, rfl⟩ := Edit.addColumn.inj (Operation.edit.inj (pure_eq_ok.mp hp))
        exact Column.plain_conforms name nullable (by simpa using hplain)
  | addLinkColumn h type name target =>
      simp only [plan, bind_eq_ok] at hp
      obtain ⟨t, -, into, -, _, -, hp⟩ := hp
      split at hp
      · simp at hp
      · obtain ⟨-, rfl⟩ := Edit.addColumn.inj (Operation.edit.inj (pure_eq_ok.mp hp))
        exact Column.toTable_conforms name type into.key
  | setScalar h column row x | setMixed h column row v | nullifyLink h column row =>
      obtain ⟨t, i, j, -, -, he⟩ := planSet_eq_ok hp
      simp at he
  | rowSet h column v =>
      simp only [plan, planRowSet, bind_eq_ok] at hp
      obtain ⟨found, -, i, -, type, -, hp⟩ := hp
      split at hp
      · simp at hp
      · simp only [bind_eq_ok] at hp
        obtain ⟨_, -, hp⟩ := hp
        split at hp <;> simp at hp
  | removeTable | removeColumn | addEmptyRow | insertEmptyRow | removeRow | clear | setNull
  | setLink | linkListAdd | linkListRemove | linkListClear => simp [plan, planEdit] at hp
  | _ => cases hform

end Session

/-- Only a call that comes to an edit edits, and only the group that the session is writing. To
create a table is an edit as well. -/
theorem Workspace.deed_eq_edit {w : Workspace} {c : Call} {e : Edit} (h : w.deed c = .edit e) :
    ∃ base g, w.session.context.state = .writing base g ∧
      (w.session.plan c = .ok (.edit e) ∨ ∃ name, e = .addTable name) := by
  obtain ⟨operation, succeeds, hplan, hdeed⟩ : ∃ operation succeeds,
      w.session.plan c = .ok operation ∧ operation.deed w succeeds = .edit e := by
    unfold deed at h
    split at h
    next operation hplan => split at h <;> exact ⟨operation, _, hplan, h⟩
    next => simp at h
  unfold Operation.deed at hdeed
  split at hdeed
  next t =>
    split at hdeed
    · cases t <;> simp [Transition.deed] at hdeed
    · simp at hdeed
  next e' =>
    split at hdeed
    next hw =>
      obtain rfl := Deed.edit.inj hdeed
      obtain ⟨base, g, hstate⟩ := (Connection.isWriting_iff _).mp hw
      exact ⟨base, g, hstate, .inl hplan⟩
    next => simp at hdeed
  next name =>
    split at hdeed
    next hw =>
      obtain ⟨base, g, hstate⟩ := (Connection.isWriting_iff _).mp hw
      exact ⟨base, g, hstate, .inr ⟨name, (Deed.edit.inj hdeed).symm⟩⟩
    next => simp at hdeed
  next => simp at hdeed

end SnapshotStore
