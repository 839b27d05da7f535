import SnapshotStore.Envelope
import SnapshotStore.Proofs.Table.Change

/-!
Row locators. A locator goes by the identity of its row. Beside that, the position of the row is
followed through the changes of the table by what each of them does to positions, with no look at
identities. Both come to the same row as long as the table keeps its columns: rows and identities
are two lists, and each change of the rows does the same to both.
-/

namespace SnapshotStore

namespace RowChange
variable {c : RowChange} {cs : List RowChange} {p q p' q' : Nat}

/-- Where the row at a position comes to stand, if it is not removed. -/
def moves : RowChange → Nat → Option Nat
  | add, p | set .., p => some p
  | insert index, p => some (if index ≤ p then p + 1 else p)
  | remove index, p => if p = index then none else some (if index < p then p - 1 else p)
  | clear, _ => none

/-- What becomes of the cells of the row at a position. -/
def writes (columns : List Column) : RowChange → Nat → List Value → List Value
  | set column row v, p, cells =>
    if row = p ∧ columns[column]?.any (·.takes v) then cells.set column v else cells
  | _, _, cells => cells

/-- What the change does to a list with an element for each row, given the one for a new row. -/
def shift {α : Type} (x : α) : RowChange → List α → List α
  | add, xs => xs ++ [x]
  | insert index, xs => xs.insertIdx index x
  | remove index, xs => xs.eraseIdx index
  | clear, _ => []
  | set .., xs => xs

/-- Where the row at a position stands after all changes, unless one of them removes it. -/
def follow : List RowChange → Nat → Option Nat
  | [], p => some p
  | c :: cs, p => (c.moves p).bind (follow cs)

/-- The cells of the row at a position after all changes: those that set one of them are applied,
each to the position where the row stands then. -/
def written (columns : List Column) : List RowChange → Nat → List Value → List Value
  | [], _, cells => cells
  | c :: cs, p, cells =>
    match c.moves p with
    | some q => written columns cs q (c.writes columns p cells)
    | none => cells

theorem moves_eq_none : c.moves p = none ↔ c = .remove p ∨ c = .clear := by
  cases c <;> simp [moves, eq_comm]

/-- What stands at a position is moved from there as the change moves it. -/
theorem shift_moves {α : Type} {xs : List α} {y : α} (x : α) (hy : xs[p]? = some y)
    (hq : c.moves p = some q) : (c.shift x xs)[q]? = some y := by
  cases c with
  | add =>
      obtain rfl := Option.some.inj hq
      exact (List.getElem?_append_left (List.getElem?_eq_some_iff.mp hy).1).trans hy
  | insert index =>
      obtain rfl := Option.some.inj hq
      rw [shift, List.getElem?_insertIdx]
      split
      next hle => rw [if_neg (by omega), if_neg (by omega), Nat.add_sub_cancel]; exact hy
      next hlt => rw [if_pos (by omega)]; exact hy
  | remove index =>
      simp only [moves, Option.ite_none_left_eq_some, Option.some.injEq] at hq
      obtain ⟨hne, rfl⟩ := hq
      rw [shift, List.getElem?_eraseIdx]
      split
      next hlt => rw [if_neg (by omega), Nat.sub_add_cancel (by omega)]; exact hy
      next hge => rw [if_pos (by omega)]; exact hy
  | clear => exact nomatch hq
  | set column row v =>
      obtain rfl := Option.some.inj hq
      exact hy

/-- Rows that stay are not reordered. -/
theorem moves_lt (h : p < p') (hq : c.moves p = some q) (hq' : c.moves p' = some q') : q < q' := by
  cases c with
  | add | set =>
      obtain rfl := Option.some.inj hq
      obtain rfl := Option.some.inj hq'
      exact h
  | insert index =>
      obtain rfl := Option.some.inj hq
      obtain rfl := Option.some.inj hq'
      split <;> split <;> omega
  | remove index =>
      simp only [moves, Option.ite_none_left_eq_some, Option.some.injEq] at hq hq'
      obtain ⟨hne, rfl⟩ := hq
      obtain ⟨hne', rfl⟩ := hq'
      split <;> split <;> omega
  | clear => exact nomatch hq

theorem follow_lt (h : p < p') (hq : follow cs p = some q) (hq' : follow cs p' = some q') :
    q < q' := by
  induction cs generalizing p p' with
  | nil =>
      obtain rfl := Option.some.inj hq
      obtain rfl := Option.some.inj hq'
      exact h
  | cons c cs ih =>
      obtain ⟨m, hm, hq⟩ := Option.bind_eq_some_iff.mp hq
      obtain ⟨m', hm', hq'⟩ := Option.bind_eq_some_iff.mp hq'
      exact ih (moves_lt h hm hm') hq hq'

/-- A row is lost track of where it is removed, by itself or with all others. -/
theorem follow_eq_none : follow cs p = none ↔ ∃ before c after q, cs = before ++ c :: after ∧
    follow before p = some q ∧ (c = .remove q ∨ c = .clear) := by
  induction cs generalizing p with
  | nil => simp [follow]
  | cons c cs ih =>
      constructor
      · intro h
        cases hm : c.moves p with
        | none => exact ⟨[], c, cs, p, rfl, rfl, moves_eq_none.mp hm⟩
        | some m =>
            rw [follow, hm, Option.bind_some] at h
            obtain ⟨before, d, after, q, rfl, hq, hd⟩ := ih.mp h
            exact ⟨c :: before, d, after, q, rfl, by rw [follow, hm, Option.bind_some, hq], hd⟩
      · rintro ⟨before, d, after, q, hcs, hq, hd⟩
        cases before with
        | nil =>
            obtain ⟨rfl, rfl⟩ := List.cons.inj hcs
            obtain rfl := Option.some.inj hq
            rw [follow, moves_eq_none.mpr hd, Option.bind_none]
        | cons e before =>
            obtain ⟨rfl, rfl⟩ := List.cons.inj hcs
            obtain ⟨m, hm, hq⟩ := Option.bind_eq_some_iff.mp hq
            rw [follow, hm, Option.bind_some]
            exact ih.mpr ⟨before, d, after, q, rfl, hq, hd⟩

end RowChange

namespace Table
variable {t t' : Table} {c : RowChange} {cs : List RowChange} {cells : List Value}
  {p q column row : Nat} {v : Value} {id : RowId}

def changeRows (t : Table) (cs : List RowChange) : Table := t.changeAll (cs.map .rows)

/-! What one change does to the row at a position -/

theorem change_set (hr : t.rows[p]? = some cells) :
    (t.change (.rows (.set column row v))).rows[p]? =
      some ((RowChange.set column row v).writes t.columns p cells) := by
  cases h : Change.apply t (.rows (.set column row v)) with
  | ok t' =>
      rw [change_of_ok h]
      obtain ⟨c, _, hc, -, hv, rfl⟩ := set_eq_ok_iff.mp h
      have hany : t.columns[column]?.any (·.takes v) = true :=
        (Option.any_eq_true _ _).mpr ⟨c, hc, hv⟩
      simp only [putCell, List.getElem?_modify, hr, RowChange.writes, hany]
      by_cases hrow : row = p <;> simp [hrow]
  | error e =>
      rw [change_of_error h, hr, RowChange.writes, if_neg]
      rintro ⟨rfl, hany⟩
      obtain ⟨c, hc, hv⟩ := (Option.any_eq_true _ _).mp hany
      have hok := set_eq_ok_iff.mpr ⟨c, cells, hc, hr, hv, rfl⟩
      cases hok.symm.trans h

theorem insert_refused {e : Error} {index : Nat} (h : t.insertRow index = .error e) :
    t.rows.length < index := by
  by_contra hle
  have hin : index ≤ t.size := Nat.le_of_not_lt hle
  simp [insertRow, hin] at h

theorem remove_refused {e : Error} {index : Nat} (h : t.removeRow index = .error e) :
    t.rows.length ≤ index := by
  by_contra hle
  have hin := List.getElem?_eq_getElem (Nat.lt_of_not_le hle)
  have hok : t.removeRow index = .ok _ := bind_eq_ok.mpr ⟨_, row_eq_ok.mpr hin, rfl⟩
  exact nomatch hok.symm.trans h

/-- The identities are shifted, also by a change that is refused: it names a position that is in
neither list. -/
theorem Identified.change_rowIds (h : t.Identified) (c : RowChange) :
    (t.change (.rows c)).rowIds = c.shift t.nextRowId t.rowIds := by
  cases hc : Change.apply t (.rows c) with
  | ok t' =>
      rw [change_of_ok hc]
      cases c with
      | add | clear =>
          obtain rfl := Except.ok.inj hc
          rfl
      | insert index => rw [(insertRow_eq_ok hc).2, RowChange.shift]
      | remove index => rw [(removeRow_eq_ok hc).2, RowChange.shift]
      | set column row v =>
          obtain ⟨_, -, -, rfl⟩ := set_eq_ok hc
          rfl
  | error e =>
      rw [change_of_error hc]
      cases c with
      | add | clear => exact nomatch hc
      | insert index =>
          exact (List.insertIdx_of_length_lt (h.counted ▸ insert_refused hc)).symm
      | remove index => exact (List.eraseIdx_of_length_le (h.counted ▸ remove_refused hc)).symm
      | set column row v => rfl

theorem change_rows (hc : ∀ column row v, c ≠ .set column row v) :
    (t.change (.rows c)).rows = c.shift t.freshRow t.rows := by
  cases h : Change.apply t (.rows c) with
  | ok t' =>
      rw [change_of_ok h]
      cases c with
      | add | clear =>
          obtain rfl := Except.ok.inj h
          rfl
      | insert index => rw [(insertRow_eq_ok h).2, RowChange.shift]
      | remove index => rw [(removeRow_eq_ok h).2, RowChange.shift]
      | set column row v => exact absurd rfl (hc column row v)
  | error e =>
      rw [change_of_error h]
      cases c with
      | add | clear => exact nomatch h
      | insert index => exact (List.insertIdx_of_length_lt (insert_refused h)).symm
      | remove index => exact (List.eraseIdx_of_length_le (remove_refused h)).symm
      | set column row v => exact absurd rfl (hc column row v)

/-- A change puts a row where it moves it, with the cells that it writes. -/
theorem change_moves (hr : t.rows[p]? = some cells) (hq : c.moves p = some q) :
    (t.change (.rows c)).rows[q]? = some (c.writes t.columns p cells) := by
  cases c with
  | set column row v =>
      obtain rfl := Option.some.inj hq
      exact change_set hr
  | add | insert index | remove index | clear =>
      rw [change_rows (by simp)]
      exact RowChange.shift_moves _ hr hq

/-- It puts the identity of the row there, too. -/
theorem Identified.change_moves (h : t.Identified) (hid : t.rowId? p = some id)
    (hq : c.moves p = some q) : (t.change (.rows c)).rowId? q = some id := by
  rw [rowId?, h.change_rowIds]
  exact RowChange.shift_moves _ hid hq

/-- No row is in two places. -/
theorem Identified.position_eq (h : t.Identified) (hp : t.rowId? p = some id)
    (hq : t.rowId? q = some id) : p = q :=
  (List.getElem?_inj (List.getElem?_eq_some_iff.mp hp).1 h.ids).mp (hp.trans hq.symm)

/-- The identity was handed out, and the row that had it is gone. -/
def Gone (t : Table) (id : RowId) : Prop := id < t.nextRowId ∧ id ∉ t.rowIds

/-- A change that does not move a row anywhere removes it. -/
theorem Identified.gone (h : t.Identified) (hid : t.rowId? p = some id) (hq : c.moves p = none) :
    (t.change (.rows c)).Gone id := by
  have hold := h.next id (List.mem_of_getElem? hid)
  refine ⟨Nat.lt_of_lt_of_le hold (t.change_leads (.rows c)).next, ?_⟩
  rw [h.change_rowIds]
  rcases RowChange.moves_eq_none.mp hq with rfl | rfl
  · intro hmem
    obtain ⟨j, hne, hj⟩ := List.mem_eraseIdx_iff_getElem?.mp hmem
    exact hne (h.position_eq hj hid)
  · exact List.not_mem_nil

/-- No row comes back: a row that is new has an identity that was not handed out before. -/
theorem Gone.leads (h : t.Gone id) (hl : t.Leads t') : t'.Gone id := by
  refine ⟨Nat.lt_of_lt_of_le h.1 hl.next, fun hid => ?_⟩
  rcases hl.ids id hid with hold | ⟨hnew, -⟩
  · exact h.2 hold
  · exact Nat.lt_irrefl _ (Nat.lt_of_lt_of_le h.1 hnew)

theorem Gone.findRow? (h : t.Gone id) (hint : Nat) : t.findRow? id hint = none := by
  have hmiss : ¬t.rowId? hint = some id := fun hhint => h.2 (List.mem_of_getElem? hhint)
  rw [Table.findRow?, if_neg hmiss]
  refine List.findIdx?_eq_none_iff.mpr fun other hother => decide_eq_false ?_
  rintro rfl
  exact h.2 hother

/-- A row is found where it stands, whatever position is tried first. -/
theorem Identified.findRow? (h : t.Identified) (hid : t.rowId? p = some id) (hint : Nat) :
    t.findRow? id hint = some p := by
  rw [Table.findRow?]
  split
  next hhint => exact congrArg some (h.position_eq hhint hid)
  next =>
    obtain ⟨hp, hat⟩ := List.getElem?_eq_some_iff.mp hid
    refine List.findIdx?_eq_some_iff_getElem.mpr ⟨hp, decide_eq_true hat, fun j hj hsame => ?_⟩
    have hother := List.getElem?_eq_some_iff.mpr ⟨Nat.lt_trans hj hp, of_decide_eq_true hsame⟩
    exact Nat.ne_of_lt hj (h.position_eq hother hid)

/-! What all changes do to it -/

theorem epoch_of_rows (h : c.apply t = .ok t') : t'.schemaEpoch = t.schemaEpoch := by
  cases c with
  | add | clear =>
      obtain rfl := Except.ok.inj h
      rfl
  | insert index =>
      obtain ⟨-, rfl⟩ := insertRow_eq_ok h
      rfl
  | remove index =>
      obtain ⟨-, rfl⟩ := removeRow_eq_ok h
      rfl
  | set column row v =>
      obtain ⟨_, -, -, rfl⟩ := set_eq_ok h
      rfl

theorem changeRows_epoch (t : Table) (cs : List RowChange) :
    (t.changeRows cs).schemaEpoch = t.schemaEpoch := by
  induction cs generalizing t with
  | nil => rfl
  | cons c cs ih =>
      refine (ih (t.change (.rows c))).trans ?_
      cases h : Change.apply t (.rows c) with
      | ok t' => exact change_of_ok h ▸ epoch_of_rows h
      | error e => exact congrArg Table.schemaEpoch (change_of_error h)

theorem change_columns (t : Table) (c : RowChange) : (t.change (.rows c)).columns = t.columns :=
  (t.change_leads (.rows c)).columns (t.changeRows_epoch [c])

/-- A row that is followed stands where it is followed to, with the cells that were written. -/
theorem changeRows_follow (hr : t.rows[p]? = some cells) (hq : RowChange.follow cs p = some q) :
    (t.changeRows cs).rows[q]? = some (RowChange.written t.columns cs p cells) := by
  induction cs generalizing t p cells with
  | nil =>
      obtain rfl := Option.some.inj hq
      exact hr
  | cons c cs ih =>
      obtain ⟨m, hm, hq⟩ := Option.bind_eq_some_iff.mp hq
      have hstep := ih (change_moves hr hm) hq
      rw [t.change_columns c] at hstep
      simp only [RowChange.written, hm]
      exact hstep

theorem Identified.changeRows_follow (h : t.Identified) (hid : t.rowId? p = some id)
    (hq : RowChange.follow cs p = some q) : (t.changeRows cs).rowId? q = some id := by
  induction cs generalizing t p with
  | nil =>
      obtain rfl := Option.some.inj hq
      exact hid
  | cons c cs ih =>
      obtain ⟨m, hm, hq⟩ := Option.bind_eq_some_iff.mp hq
      exact ih (h.change (.rows c)) (h.change_moves hid hm) hq

/-- A row that is lost track of is gone. -/
theorem Identified.changeRows_gone (h : t.Identified) (hid : t.rowId? p = some id)
    (hq : RowChange.follow cs p = none) : (t.changeRows cs).Gone id := by
  induction cs generalizing t p with
  | nil => exact nomatch hq
  | cons c cs ih =>
      cases hm : c.moves p with
      | none => exact (h.gone hid hm).leads (changeAll_leads _ _)
      | some m =>
          rw [RowChange.follow, hm, Option.bind_some] at hq
          exact ih (h.change (.rows c)) (h.change_moves hid hm) hq

theorem Identified.rowId?_of_lt (h : t.Identified) (hp : p < t.size) :
    ∃ id, t.rowId? p = some id :=
  ⟨_, List.getElem?_eq_getElem (h.counted ▸ hp)⟩

end Table

namespace RowLocator
variable {t : Table} {l : RowLocator} {cells : List Value} {p : Nat}

/-- The locator is of the row at the position, whatever position it tries first. -/
def Locates (l : RowLocator) (t : Table) (p : Nat) : Prop := { l with hint := p } = ofRow t p

theorem Locates.id (hl : l.Locates t p) (h : t.Identified) (hp : p < t.size) :
    t.rowId? p = some l.id := by
  obtain ⟨-, -, hid, -⟩ := RowLocator.mk.inj hl
  obtain ⟨id, hat⟩ := h.rowId?_of_lt hp
  rw [hid, hat, Option.getD_some]

/-- A locator finds its row where that is followed to. -/
theorem Locates.indexIn? (hl : l.Locates t p) (h : t.Identified) (hp : p < t.size)
    (cs : List RowChange) : l.indexIn? (t.changeRows cs) = RowChange.follow cs p := by
  obtain ⟨hkey, hepoch, -⟩ := RowLocator.mk.inj hl
  have hid := hl.id h hp
  have hsame : (t.changeRows cs).key = l.table := (t.changeAll_leads _).key.trans hkey.symm
  have hsame' : (t.changeRows cs).schemaEpoch = l.schemaEpoch :=
    (t.changeRows_epoch cs).trans hepoch.symm
  have hfind : l.indexIn? (t.changeRows cs) = (t.changeRows cs).findRow? l.id l.hint := by
    simp [RowLocator.indexIn?, hsame, hsame']
  rw [hfind]
  cases hq : RowChange.follow cs p with
  | some q => exact (h.changeAll _).findRow? (h.changeRows_follow hid hq) l.hint
  | none => exact (h.changeRows_gone hid hq).findRow? l.hint

/-- After a change of the columns a locator finds nothing, whatever else was changed before and
is changed after. -/
theorem Locates.none_of_reshapes (hl : l.Locates t p) {c : Change} {t₁ : Table}
    (before after : List Change) (hc : c.Reshapes) (h : c.apply (t.changeAll before) = .ok t₁) :
    l.indexIn? (t₁.changeAll after) = none := by
  obtain ⟨-, hepoch, -⟩ := RowLocator.mk.inj hl
  have hbefore := (t.changeAll_leads before).epoch
  have hchange := Table.epoch_of_reshapes hc h
  have hafter := (t₁.changeAll_leads after).epoch
  have hof : l.schemaEpoch = t.schemaEpoch := hepoch
  have hne : (t₁.changeAll after).schemaEpoch ≠ l.schemaEpoch := by omega
  simp [RowLocator.indexIn?, hne]

/-- A locator follows its row. However its table came about and whatever is done to rows then, the
locator finds nothing if and only if its row was removed, by itself or with all others, and else it
finds that row where it stands now, whatever position it tries first. The row has the identity and
the cells that it had, but for what was set in it, and rows that are still there are in the order
that they had. Once a column came or went, no locator from before finds anything. -/
theorem follows_row (ht : t.Made) (hr : t.rows[p]? = some cells) (hl : l.Locates t p) :
    (∀ cs : List RowChange,
      l.indexIn? (t.changeRows cs) = RowChange.follow cs p ∧
      (RowChange.follow cs p = none ↔ ∃ before c after q, cs = before ++ c :: after ∧
        RowChange.follow before p = some q ∧ (c = .remove q ∨ c = .clear)) ∧
      (∀ q, RowChange.follow cs p = some q → (t.changeRows cs).rowId? q = some l.id ∧
        (t.changeRows cs).rows[q]? = some (RowChange.written t.columns cs p cells)) ∧
      ∀ p' < t.size, ∀ l' : RowLocator, l'.Locates t p' → ∀ q q',
        l.indexIn? (t.changeRows cs) = some q → l'.indexIn? (t.changeRows cs) = some q' →
          (p < p' ↔ q < q')) ∧
    ∀ before c after t₁, Change.Reshapes c → c.apply (t.changeAll before) = .ok t₁ →
      l.indexIn? (t₁.changeAll after) = none := by
  have h := ht.identified
  have hp : p < t.size := (List.getElem?_eq_some_iff.mp hr).1
  refine ⟨fun cs => ⟨hl.indexIn? h hp cs, RowChange.follow_eq_none, fun q hq => ⟨?_, ?_⟩, ?order⟩,
    fun before c after t₁ => hl.none_of_reshapes before after⟩
  · exact h.changeRows_follow (hl.id h hp) hq
  · exact Table.changeRows_follow hr hq
  case order =>
    intro p' hp' l' hl' q q' hq hq'
    rw [hl.indexIn? h hp] at hq
    rw [hl'.indexIn? h hp'] at hq'
    refine ⟨fun hlt => RowChange.follow_lt hlt hq hq', fun hlt => ?_⟩
    rcases Nat.lt_trichotomy p p' with hbefore | rfl | hafter
    · exact hbefore
    · exact absurd (Option.some.inj (hq.symm.trans hq')) (Nat.ne_of_lt hlt)
    · exact absurd (RowChange.follow_lt hafter hq' hq) (Nat.lt_asymm hlt)

/-- The second of three rows is found behind a row that came in before it, with what was set in it,
and not where the locator tries first. After all rows went, it is not one of those that came. -/
theorem follows_row_moved : ∃ (t t' : Table) (l : RowLocator), t.Made ∧ l.Locates t 1 ∧
    l.hint = 0 ∧ t.rowId? 1 = some 1 ∧ t.rows[1]? = some [.null] ∧
    t' = t.changeRows [.insert 0, .remove 3, .set 0 2 (.int 5), .set 0 0 (.int 9)] ∧
    l.indexIn? t' = some 2 ∧ t'.rowId? 2 = some 1 ∧ t'.rows[2]? = some [.int 5] ∧
    l.indexIn? (t.changeRows [.clear, .add, .add, .add]) = none := by
  let made : List Change := [.addColumn (.plain "points" .int true), .rows .add, .rows .add,
    .rows .add]
  let t := (Table.empty 1 "scores").changeAll made
  have ht : t.Made := ⟨1, "scores", made, rfl⟩
  have hl : Locates ⟨1, 1, 1, 0⟩ t 1 := rfl
  have hr : t.rows[1]? = some [.null] := rfl
  obtain ⟨hrows, -⟩ := follows_row ht hr hl
  obtain ⟨hfound, -, hcells, -⟩ :=
    hrows [.insert 0, .remove 3, .set 0 2 (.int 5), .set 0 0 (.int 9)]
  obtain ⟨hlost, -⟩ := hrows [.clear, .add, .add, .add]
  obtain ⟨hid, hwritten⟩ := hcells 2 rfl
  exact ⟨t, _, _, ht, hl, rfl, rfl, rfl, rfl, hfound, hid, hwritten, hlost⟩

end RowLocator
end SnapshotStore
