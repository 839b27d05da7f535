import SnapshotStore.Proofs.Connection.Answer
import SnapshotStore.Proofs.Group.Acceptance

/-!
Views brought up to date. To find the rows again and to sort them can only fail before anything was
done; to thin them out can fail after that, if the column that the view is distinct in has become
one of a type that has no distinct values.
-/

namespace SnapshotStore

namespace View
variable {v : View} {t : Table} {e : Error}

/-- The rows in the order that the view was sorted in last. -/
def arrange (v : View) (t : Table) (rows : List Nat) : List Nat :=
  match v.sortKeys? with
  | some keys => SortKey.sort t keys rows
  | none => rows

theorem arrange_perm (v : View) (t : Table) (rows : List Nat) : (v.arrange t rows).Perm rows := by
  unfold arrange
  split
  · exact SortKey.sort_perm t _ rows
  · exact .refl rows

theorem resort_of_within (ha : v.isAttached t = true) (hrows : v.Within t.size) :
    v.resort t = (.ok (), { v with rows := v.arrange t v.rows }) := by
  obtain ⟨table, epoch, rows, query, window, sortKeys?, distinctColumn?⟩ := v
  cases sortKeys? with
  | none => rfl
  | some keys => exact sort_of_within ha hrows keys .panic

/-- In a column that may be distinct, all rows that are there can be compared. -/
theorem distinct_of_check {column : Nat} (ha : v.isAttached t = true)
    (hcheck : t.checkDistinct column = .ok ()) (hrows : v.Within t.size) :
    ∃ v', v.distinct t column = .ok v' := by
  have hcolumn : column < t.columnCount := by
    simp only [Table.checkDistinct, bind_eq_ok, Table.columnType_eq_ok] at hcheck
    obtain ⟨type, ⟨c, hc, -⟩, -⟩ := hcheck
    exact (List.getElem?_eq_some_iff.mp hc).1
  have hcell : ∀ row ∈ v.rows, ∃ cell : Nat × Value,
      (do return (row, ← t.get column row) : Except Error (Nat × Value)) = .ok cell := by
    intro row hrow
    obtain ⟨value, hvalue⟩ := Table.get_of_lt hcolumn (hrows row hrow)
    exact ⟨(row, value), bind_eq_ok.mpr ⟨value, hvalue, rfl⟩⟩
  obtain ⟨cells, hcells⟩ := mapM_total hcell
  exact ⟨_, bind_eq_ok.mpr ⟨(), checkAttached_of_attached ha, bind_eq_ok.mpr ⟨(), hcheck,
    bind_eq_ok.mpr ⟨cells, hcells, rfl⟩⟩⟩⟩

theorem distinct_of_check_error {column : Nat} (ha : v.isAttached t = true)
    (hcheck : t.checkDistinct column = .error e) : v.distinct t column = .error e := by
  simp only [distinct, checkAttached_of_attached ha, hcheck]
  rfl

/-- The view with its rows found anew and sorted, but not thinned out, since the column that it is
distinct in fails the check for that. -/
def Torn (v : View) (t : Table) (v' : View) : Prop :=
  ∃ column rows e, v.distinctColumn? = some column ∧ t.checkDistinct column = .error e ∧
    v.query.findAll t v.window = .ok rows ∧ v' = { v with rows := v.arrange t rows }

theorem sync_of_found {rows : List Nat} (ha : v.isAttached t = true)
    (hfound : v.query.findAll t v.window = .ok rows) :
    v.sync t = match View.thinAgain { v with rows := v.arrange t rows } t with
      | .error e => (.error e, { v with rows := v.arrange t rows })
      | .ok v' => (.ok (), v') := by
  have hfind : (v.checkAttached t >>= fun () => v.query.findAll t v.window) = .ok rows :=
    bind_eq_ok.mpr ⟨(), checkAttached_of_attached ha, hfound⟩
  have hresort : View.resort { v with rows } t = (.ok (), { v with rows := v.arrange t rows }) :=
    resort_of_within (v := { v with rows }) ha (Query.findAll_lt hfound)
  cases hthin : View.thinAgain { v with rows := v.arrange t rows } t with
  | error e => simp only [sync, hfind, hresort, hthin]
  | ok v' => simp only [sync, hfind, hresort, hthin]

theorem sync_of_not_found (ha : v.isAttached t = true)
    (hfound : v.query.findAll t v.window = .error e) : v.sync t = (.error e, v) := by
  have hfind : (v.checkAttached t >>= fun () => v.query.findAll t v.window) = .error e := by
    rw [checkAttached_of_attached ha]
    exact hfound
  rw [sync, hfind]

theorem Torn.unique {v₁ v₂ : View} (h : v.Torn t v₁) (h' : v.Torn t v₂) : v₁ = v₂ := by
  obtain ⟨_, rows, _, -, -, hrows, rfl⟩ := h
  obtain ⟨_, rows', _, -, -, hrows', rfl⟩ := h'
  obtain rfl := Except.ok.inj (hrows.symm.trans hrows')
  rfl

/-- A sync that fails has done nothing, or it has torn the view. -/
theorem sync_error (ha : v.isAttached t = true) (h : (v.sync t).1 = .error e) :
    ((v.sync t).2 = v ∧ ∀ v', ¬v.Torn t v') ∨ v.Torn t (v.sync t).2 := by
  cases hfound : v.query.findAll t v.window with
  | error e' =>
      rw [sync_of_not_found ha hfound]
      refine .inl ⟨rfl, fun v' htorn => ?_⟩
      obtain ⟨column, rows, _, -, -, hrows, -⟩ := htorn
      exact nomatch hfound.symm.trans hrows
  | ok rows =>
      rw [sync_of_found ha hfound] at h ⊢
      have hthere : ∀ row ∈ v.arrange t rows, row < t.size := by
        intro row hrow
        have hmem := (v.arrange_perm t rows).mem_iff.mp hrow
        exact Query.findAll_lt hfound row hmem
      rcases Option.eq_none_or_eq_some v.distinctColumn? with hdistinct | ⟨column, hdistinct⟩
      · simp [thinAgain, hdistinct] at h
      · have hthin : View.thinAgain { v with rows := v.arrange t rows } t =
            View.distinct { v with rows := v.arrange t rows } t column := by
          simp only [thinAgain, hdistinct]
        rw [hthin] at h ⊢
        -- The rows are in the table, so that nothing but this check can fail.
        cases hcheck : t.checkDistinct column with
        | ok u =>
            obtain ⟨v', hv'⟩ := distinct_of_check (v := { v with rows := v.arrange t rows }) ha
              hcheck hthere
            simp [hv'] at h
        | error e' =>
            rw [distinct_of_check_error (v := { v with rows := v.arrange t rows }) ha hcheck]
            exact .inr ⟨column, rows, e', hdistinct, hcheck, hfound, rfl⟩

end View
end SnapshotStore
