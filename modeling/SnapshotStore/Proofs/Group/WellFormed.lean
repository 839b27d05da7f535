import SnapshotStore.Proofs.Table.WellFormed

/-!
Well-formed groups: tables under their own keys and names, and links that lead to rows that
are there. An edit keeps a group well-formed if it puts links only where their target rows
are checked and takes rows away only together with the links to them.
-/

namespace SnapshotStore

namespace Group

structure WellFormed (g : Group) : Prop where
  /-- Every table stands under its own key, and no key is ahead of the last one given. -/
  keys : ∀ (k : Nat) t, g.table? k = some t → t.key = k ∧ k ≤ g.lastKey
  /-- Names are looked up as the tables bear them. -/
  names : ∀ name (k : Nat), g.tableKey? name = some k ↔ ∃ t, g.table? k = some t ∧ t.name = name
  tables : ∀ (k : Nat) t, g.table? k = some t → t.WellFormed
  /-- The table that a column says its links go to is there. -/
  targets : ∀ (k : Nat) t, g.table? k = some t → ∀ c ∈ t.columns, ∀ into : Nat,
    c.target? = some into → ∃ u, g.table? into = some u
  /-- The rows that cells point to are there. -/
  links : ∀ (k : Nat) t c v, g.table? k = some t → t.Holds c v → ∀ row ∈ v.targets,
    ∃ (into : Nat) (u : Table), c.target? = some into ∧ g.table? into = some u ∧ row < u.size

/-- The table can take the place of the old one. -/
structure Takes (g : Group) (t t' : Table) : Prop where
  leads : t.Leads t'
  wellFormed : t'.WellFormed
  size : t.size ≤ t'.size
  targets : ∀ c ∈ t'.columns, ∀ into : Nat, c.target? = some into → ∃ u, g.table? into = some u
  links : ∀ c v, t'.Holds c v → ∀ row ∈ v.targets,
    ∃ (into : Nat) (u : Table), c.target? = some into ∧ g.table? into = some u ∧ row < u.size

variable {g g' : Group} {key : TableKey} {t t' : Table} {c : Column} {i : Nat}

/-! Looking tables up -/

/-- The index stays the inverse of the names where tables come and go under no key and keep
their names. -/
theorem WellFormed.names_of (h : g.WellFormed) (hnames : g'.names = g.names)
    (hstill : ∀ (k : Nat) t, g.table? k = some t → ∃ t', g'.table? k = some t' ∧ t'.name = t.name)
    (hwas : ∀ (k : Nat) t', g'.table? k = some t' → ∃ t, g.table? k = some t ∧ t.name = t'.name)
    (name : String) (k : Nat) :
    g'.tableKey? name = some k ↔ ∃ t, g'.table? k = some t ∧ t.name = name := by
  rw [tableKey?, hnames]
  refine (h.names name k).trans ⟨?_, ?_⟩
  · rintro ⟨t, ht, rfl⟩
    exact hstill k t ht
  · rintro ⟨t', ht', rfl⟩
    exact hwas k t' ht'

theorem WellFormed.name_injective (h : g.WellFormed) {k k' : Nat} (ht : g.table? k = some t)
    (ht' : g.table? k' = some t') (hname : t.name = t'.name) : k = k' :=
  Option.some.inj (((h.names t.name k).mpr ⟨t, ht, rfl⟩).symm.trans
    ((h.names t.name k').mpr ⟨t', ht', hname.symm⟩))

theorem table?_mapLinks (g : Group) (target : TableKey) (f : Value → Value) (k : Nat) :
    (g.mapLinks target f).table? k = (g.table? k).map (·.mapLinks target f) := by
  simp only [table?, mapLinks, NatMap.get?_mapValues, Option.map_map]
  refine congrArg (fun h => (g.tables.get? k).map h) (funext fun e => ?_)
  simp only [Function.comp]
  cases hl : e.table.linksTo target with
  | true => rfl
  | false => exact (Table.mapLinks_of_not_linksTo f hl).symm

theorem allTables_mem (h : g.table? i = some t) : t ∈ g.allTables := by
  obtain ⟨e, he, rfl⟩ := Option.map_eq_some_iff.mp h
  have hmem := (g.tables.get?_eq_some_iff i e).mp he
  exact List.mem_map_of_mem (List.mem_map_of_mem (f := (·.2)) hmem)

/-! Groups as wholes -/

theorem empty_wellFormed : empty.WellFormed where
  keys k t h := by simp [empty, table?] at h
  names name k := by simp [empty, table?, tableKey?]
  tables k t h := by simp [empty, table?] at h
  targets k t h := by simp [empty, table?] at h
  links k t c v h := by simp [empty, table?] at h

theorem WellFormed.revise (h : g.WellFormed) (revision : Version) :
    WellFormed { g with revision } :=
  ⟨h.keys, h.names, h.tables, h.targets, h.links⟩

/-! One table in the place of another -/

theorem WellFormed.takes_self (h : g.WellFormed) (ht : g.table? key = some t) : g.Takes t t :=
  ⟨.refl t, h.tables key t ht, Nat.le_refl _, h.targets key t ht, fun c v => h.links key t c v ht⟩

/-- No table gets smaller, so what was linked to is still there. -/
theorem WellFormed.put (h : g.WellFormed) (ht : g.table? key = some t) (hg : g.Takes t t') :
    (g.put key t').WellFormed := by
  have hstill : ∀ (k : Nat) u, g.table? k = some u →
      ∃ u', (g.put key t').table? k = some u' ∧ u'.name = u.name ∧ u.size ≤ u'.size := by
    intro k u hu
    rw [table?_put]
    by_cases hk : k = key
    · subst hk
      obtain rfl := Option.some.inj (ht.symm.trans hu)
      exact ⟨t', if_pos rfl, hg.leads.name, hg.size⟩
    · exact ⟨u, (if_neg hk).trans hu, rfl, Nat.le_refl _⟩
  have hold : ∀ (k : Nat) u', (g.put key t').table? k = some u' →
      k = key ∧ u' = t' ∨ g.table? k = some u' := by
    intro k u' hu'
    rw [table?_put] at hu'
    split at hu'
    next hk => exact .inl ⟨hk, (Option.some.inj hu').symm⟩
    next => exact .inr hu'
  refine ⟨?_, h.names_of rfl ?_ ?_, ?_, ?_, ?_⟩
  · intro k u' hu'
    rcases hold k u' hu' with ⟨rfl, rfl⟩ | hu
    · exact ⟨hg.leads.key.trans (h.keys k t ht).1, (h.keys k t ht).2⟩
    · exact h.keys k u' hu
  · intro k u hu
    obtain ⟨u', hu', hname, -⟩ := hstill k u hu
    exact ⟨u', hu', hname⟩
  · intro k u' hu'
    rcases hold k u' hu' with ⟨rfl, rfl⟩ | hu
    · exact ⟨t, ht, hg.leads.name.symm⟩
    · exact ⟨u', hu, rfl⟩
  · intro k u' hu'
    rcases hold k u' hu' with ⟨rfl, rfl⟩ | hu
    · exact hg.wellFormed
    · exact h.tables k u' hu
  · intro k u' hu' c hc into hinto
    obtain ⟨u, hu⟩ : ∃ u, g.table? into = some u := by
      rcases hold k u' hu' with ⟨rfl, rfl⟩ | hu
      · exact hg.targets c hc into hinto
      · exact h.targets k u' hu c hc into hinto
    obtain ⟨v, hv, -⟩ := hstill into u hu
    exact ⟨v, hv⟩
  · intro k u' c v hu' hv row hrow
    obtain ⟨into, u, hinto, hu, hlt⟩ : ∃ (into : Nat) (u : Table), c.target? = some into ∧
        g.table? into = some u ∧ row < u.size := by
      rcases hold k u' hu' with ⟨rfl, rfl⟩ | hu
      · exact hg.links c v hv row hrow
      · exact h.links k u' c v hu hv row hrow
    obtain ⟨w, hw, -, hsize⟩ := hstill into u hu
    exact ⟨into, w, hinto, hw, Nat.lt_of_lt_of_le hlt hsize⟩

theorem WellFormed.write {α : Type} {f : Table → Except Error (α × Table)} (h : g.WellFormed)
    (hf : ∀ t made t', g.table? key = some t → f t = .ok (made, t') → g.Takes t t') :
    (g.write key f).2.WellFormed := by
  unfold Group.write
  cases ht : g.table? key with
  | none => exact h
  | some t =>
      dsimp only
      cases hr : f t with
      | error e => exact h.put ht (h.takes_self ht)
      | ok r => exact h.put ht (hf t r.1 r.2 ht hr)

theorem WellFormed.overwrite {f : Table → Except Error Table} (h : g.WellFormed)
    (hf : ∀ t t', g.table? key = some t → f t = .ok t' → g.Takes t t') :
    (g.overwrite key f).2.WellFormed := by
  refine h.write fun t made t' ht hr => ?_
  obtain ⟨u, hu, he⟩ := map_eq_ok.mp hr
  obtain ⟨-, rfl⟩ := Prod.mk.inj he
  exact hf t u ht hu

namespace WellFormed

theorem takes_addColumn (h : g.WellFormed) (ht : g.table? key = some t)
    (hc : c.target?.isSome = c.type.isLinkLike)
    (hinto : ∀ into : Nat, c.target? = some into → ∃ u, g.table? into = some u)
    (ha : t.addColumn c = .ok (i, t')) : g.Takes t t' := by
  have hw := h.tables key t ht
  refine ⟨Table.addColumn_leads ha, hw.addColumn hc ha, ?_, ?_, ?_⟩
  · obtain ⟨-, rfl⟩ := Table.addColumn_eq_ok ha
    simp [Table.size]
  · intro d hd into hd'
    obtain ⟨-, rfl⟩ := Table.addColumn_eq_ok ha
    rcases List.mem_append.mp hd with hd | hd
    · exact h.targets key t ht d hd into hd'
    · exact hinto into (List.mem_singleton.mp hd ▸ hd')
  · intro d v hv row hrow
    rcases Table.addColumn_holds hw ha hv with hv | ⟨rfl, rfl⟩
    · exact h.links key t d v ht hv row hrow
    · simp [Value.initial_targets] at hrow

theorem takes_removeColumn (h : g.WellFormed) (ht : g.table? key = some t)
    (ha : t.removeColumn i = .ok t') : g.Takes t t' := by
  refine ⟨Table.removeColumn_leads ha, (h.tables key t ht).removeColumn ha, ?_, ?_,
    fun d v hv => h.links key t d v ht (Table.removeColumn_holds ha hv)⟩
  · simp only [Table.removeColumn, bind_eq_ok, pure_eq_ok] at ha
    obtain ⟨c, -, rfl⟩ := ha
    simp [Table.size]
  · simp only [Table.removeColumn, bind_eq_ok, pure_eq_ok] at ha
    obtain ⟨c, -, rfl⟩ := ha
    exact fun d hd => h.targets key t ht d (List.mem_of_mem_eraseIdx hd)

/-- A fresh row makes room and points nowhere. -/
theorem takes_fresh (h : g.WellFormed) (ht : g.table? key = some t) {rows : List (List Value)}
    {rowIds : List RowId} (hrows : rows.Perm (t.freshRow :: t.rows))
    (hids : rowIds.Perm (t.nextRowId :: t.rowIds)) :
    g.Takes t { t with rows, rowIds, nextRowId := t.nextRowId + 1 } := by
  have hmem : ∀ r ∈ rows, r = t.freshRow ∨ r ∈ t.rows := fun r hr =>
    List.mem_cons.mp (hrows.mem_iff.mp hr)
  have hw := (h.tables key t ht).fresh hrows hids
  refine ⟨Table.leads_of_fresh (fun id hid => List.mem_cons.mp (hids.mem_iff.mp hid))
    fun _ => hw.identified, hw, ?_, h.targets key t ht, ?_⟩
  · simp [Table.size, hrows.length_eq]
  · intro d v hv row hrow
    rcases Table.fresh_holds hmem hv with hv | rfl
    · exact h.links key t d v ht hv row hrow
    · simp [Value.initial_targets] at hrow

/-- A cell is overwritten by one that its column takes and whose links are good. -/
theorem takes_putCell (h : g.WellFormed) (ht : g.table? key = some t) {column row : Nat}
    {v : Value} (hc : t.columns[column]? = some c) (hv : v.Suits c)
    (hlinks : ∀ row ∈ v.targets, ∃ (into : Nat) (u : Table),
      c.target? = some into ∧ g.table? into = some u ∧ row < u.size) :
    g.Takes t (t.putCell column row v) := by
  refine ⟨t.putCell_leads column row v, (h.tables key t ht).putCell hc hv, ?_,
    h.targets key t ht, ?_⟩
  · simp [Table.size, Table.putCell]
  · intro d w hw
    rcases Table.putCell_holds hw with hw | ⟨hcolumn, rfl⟩
    · exact h.links key t d w ht hw
    · exact Option.some.inj (hc.symm.trans hcolumn) ▸ hlinks

theorem takes_set (h : g.WellFormed) (ht : g.table? key = some t) {column row : Nat} {v : Value}
    (hlinks : ∀ c, t.columns[column]? = some c → c.type.isLinkLike → ∀ row ∈ v.targets,
      ∃ (into : Nat) (u : Table), c.target? = some into ∧ g.table? into = some u ∧ row < u.size)
    (ha : t.set column row v = .ok t') : g.Takes t t' := by
  obtain ⟨c, hc, hv, rfl⟩ := Table.set_eq_ok ha
  refine h.takes_putCell ht hc hv fun target htarget => ?_
  exact hlinks c hc (hv.linkLike (List.ne_nil_of_mem htarget)) target htarget

/-- A list of links is replaced by one whose new links are good. -/
theorem takes_links (h : g.WellFormed) (ht : g.table? key = some t) {column row : Nat}
    {old new : List Nat} (hold : t.linkList column row = .ok old)
    (hnew : ∀ c, t.columns[column]? = some c → ∀ row ∈ new, row ∈ old ∨
      ∃ (into : Nat) (u : Table), c.target? = some into ∧ g.table? into = some u ∧ row < u.size) :
    g.Takes t (t.putCell column row (.linkList new)) := by
  obtain ⟨c, hc, htype, hholds⟩ := Table.linkList_eq_ok (h.tables key t ht) hold
  refine h.takes_putCell ht hc (Value.linkList_suits htype new) fun target htarget => ?_
  rcases hnew c hc target htarget with hmem | hgood
  · exact h.links key t c _ ht hholds target hmem
  · exact hgood

end WellFormed

/-! Links that are checked first -/

/-- The column has the link type expected, and the row is in the table that it links to. -/
theorem linkTarget_eq_ok {column row : Nat} {expected : ColumnType}
    (h : (g.linkTarget key column expected >>= fun into => g.checkTargetRow into row) = .ok ())
    (ht : g.table? key = some t) : ∃ (c : Column) (into : Nat) (u : Table),
      t.columns[column]? = some c ∧ c.target? = some into ∧ g.table? into = some u ∧
      row < u.size := by
  simp only [linkTarget, bind_eq_ok, requireTable_eq_ok, ht, Option.some.injEq, exists_eq_left',
    Table.column_eq_ok] at h
  obtain ⟨into, ⟨c, hc, hinto⟩, hcheck⟩ := h
  split at hinto
  · simp at hinto
  · split at hinto
    next into' htarget =>
      obtain rfl := pure_eq_ok.mp hinto
      simp only [checkTargetRow, bind_eq_ok, requireTable_eq_ok] at hcheck
      obtain ⟨u, hu, hcheck⟩ := hcheck
      split at hcheck
      · simp at hcheck
      next hlt => exact ⟨c, into', u, hc, htarget, hu, Nat.lt_of_not_le hlt⟩
    next => simp at hinto

theorem WellFormed.writeLink (h : g.WellFormed) {column target : Nat} {expected : ColumnType}
    {f : Table → Except Error Table}
    (hf : ∀ t t' c (into : Nat) u, g.table? key = some t → t.columns[column]? = some c →
      c.target? = some into → g.table? into = some u → target < u.size → f t = .ok t' →
      g.Takes t t') :
    (g.writeLink key column target expected f).2.WellFormed := by
  unfold Group.writeLink
  split
  · exact h
  next hcheck =>
    refine h.overwrite fun t t' ht hr => ?_
    obtain ⟨c, into, u, hc, hinto, hu, hlt⟩ := linkTarget_eq_ok hcheck ht
    exact hf t t' c into u ht hc hinto hu hlt hr

theorem WellFormed.setLink (h : g.WellFormed) (key : TableKey) (column row target : Nat) :
    (g.setLink key column row target).2.WellFormed := by
  refine h.writeLink fun t t' c into u ht hc hinto hu hlt ha => h.takes_set ht ?_ ha
  intro d hd _ row hrow
  obtain rfl := Option.some.inj (hc.symm.trans hd)
  exact ⟨into, u, hinto, hu, List.mem_singleton.mp hrow ▸ hlt⟩

theorem WellFormed.pushLink (h : g.WellFormed) (key : TableKey) (column row target : Nat) :
    (g.pushLink key column row target).2.WellFormed := by
  refine h.writeLink fun t t' c into u ht hc hinto hu hlt ha => ?_
  simp only [Table.pushLink, Table.linksToWrite_eq, bind_eq_ok, pure_eq_ok] at ha
  obtain ⟨rows, hrows, rfl⟩ := ha
  refine h.takes_links ht hrows fun d hd row hrow => ?_
  obtain rfl := Option.some.inj (hc.symm.trans hd)
  rcases List.mem_append.mp hrow with hrow | hrow
  · exact .inl hrow
  · exact .inr ⟨into, u, hinto, hu, List.mem_singleton.mp hrow ▸ hlt⟩

/-! Rows that go, and the links to them -/

/-- Some rows of one table go and the cells that linked into it follow. -/
theorem WellFormed.dropLinked (h : g.WellFormed) (ht : g.table? key = some t)
    {rows : List (List Value)} {rowIds : List RowId} (hsub : rows ⊆ t.rows)
    (hw : Table.WellFormed { t with rows, rowIds }) {f : Value → Value}
    (hsuits : ∀ c v, c.type.isLinkLike → v.Suits c → (f v).Suits c)
    (htargets : ∀ v, (∀ row ∈ v.targets, row < t.size) → ∀ row ∈ (f v).targets,
      row < rows.length) :
    ((g.put key { t with rows, rowIds }).mapLinks key f).WellFormed := by
  -- A table of the new group, before its links were changed and before rows went.
  have hwas : ∀ (k : Nat) u',
      ((g.put key { t with rows, rowIds }).mapLinks key f).table? k = some u' →
      ∃ u₁ u : Table, g.table? k = some u ∧ u' = u₁.mapLinks key f ∧ u₁.WellFormed ∧
        u₁.key = u.key ∧ u₁.name = u.name ∧ u₁.columns = u.columns ∧
        ∀ c v, u₁.Holds c v → u.Holds c v := by
    intro k u' hu'
    rw [table?_mapLinks, table?_put] at hu'
    split at hu'
    next hk =>
      simp only [Option.map_some, Option.some.injEq] at hu'
      exact ⟨_, t, hk ▸ ht, hu'.symm, hw, rfl, rfl, rfl, fun c v hv => hv.of_rows hsub⟩
    next =>
      obtain ⟨u, hu, rfl⟩ := Option.map_eq_some_iff.mp hu'
      exact ⟨u, u, hu, rfl, h.tables k u hu, rfl, rfl, rfl, fun _ _ hv => hv⟩
  have hstill : ∀ (k : Nat) u, g.table? k = some u →
      ∃ u', ((g.put key { t with rows, rowIds }).mapLinks key f).table? k = some u' ∧
        u'.name = u.name ∧ u'.size = if k = key then rows.length else u.size := by
    intro k u hu
    rw [table?_mapLinks, table?_put]
    by_cases hk : k = key
    · subst hk
      obtain rfl := Option.some.inj (ht.symm.trans hu)
      simp [Table.size, Table.mapLinks]
    · simp [hk, hu, Table.size, Table.mapLinks]
  refine ⟨?_, h.names_of rfl ?_ ?_, ?_, ?_, ?_⟩
  · intro k u' hu'
    obtain ⟨u₁, u, hu, rfl, -, hkey, -⟩ := hwas k u' hu'
    exact ⟨hkey.trans (h.keys k u hu).1, (h.keys k u hu).2⟩
  · intro k u hu
    obtain ⟨u', hu', hname, -⟩ := hstill k u hu
    exact ⟨u', hu', hname⟩
  · intro k u' hu'
    obtain ⟨u₁, u, hu, rfl, -, -, hname, -⟩ := hwas k u' hu'
    exact ⟨u, hu, hname.symm⟩
  · intro k u' hu'
    obtain ⟨u₁, u, hu, rfl, hw, -⟩ := hwas k u' hu'
    exact hw.mapLinks key hsuits
  · intro k u' hu' c hc into hinto
    obtain ⟨u₁, u, hu, rfl, -, -, -, hcolumns, -⟩ := hwas k u' hu'
    obtain ⟨v, hv⟩ := h.targets k u hu c (hcolumns ▸ hc) into hinto
    obtain ⟨w, hw, -⟩ := hstill into v hv
    exact ⟨w, hw⟩
  · intro k u' c v hu' hv row hrow
    obtain ⟨u₁, u, hu, rfl, -, -, -, -, hholds⟩ := hwas k u' hu'
    obtain ⟨w, hw, rfl⟩ := Table.mapLinks_holds hv
    have hgood := h.links k u c w hu (hholds c w hw)
    split at hrow
    next hkey =>
      -- The column links into the table: its cells were changed as rows went.
      obtain ⟨t'', ht'', -, hsize⟩ := hstill key t ht
      refine ⟨key, t'', hkey, ht'', ?_⟩
      rw [hsize, if_pos rfl]
      refine htargets w (fun row hrow => ?_) row hrow
      obtain ⟨into, v, hinto, hv, hlt⟩ := hgood row hrow
      obtain rfl := Option.some.inj (hkey.symm.trans hinto)
      exact Option.some.inj (ht.symm.trans hv) ▸ hlt
    next hkey =>
      obtain ⟨into, v, hinto, hv, hlt⟩ := hgood row hrow
      obtain ⟨v', hv', -, hsize⟩ := hstill into v hv
      have hne : into ≠ key := fun he => hkey (he ▸ hinto)
      rw [if_neg hne] at hsize
      exact ⟨into, v', hinto, hv', hsize ▸ hlt⟩

theorem overwrite_of_ok {f : Table → Except Error Table} (ht : g.table? key = some t)
    (hf : f t = .ok t') : g.overwrite key f = (.ok (), g.put key t') := by
  simp only [overwrite, write, ht, hf, Except.map]

theorem overwrite_of_error {f : Table → Except Error Table} {e : Error}
    (ht : g.table? key = some t) (hf : f t = .error e) :
    g.overwrite key f = (.error e, g.put key t) := by
  simp only [overwrite, write, ht, hf, Except.map]

theorem overwrite_of_none (f : Table → Except Error Table) (ht : g.table? key = none) :
    g.overwrite key f = (.error (.detached "Table"), g) := by
  simp only [overwrite, write, ht]

theorem WellFormed.removeRow (h : g.WellFormed) (key : TableKey) (row : Nat) :
    (g.removeRow key row).2.WellFormed := by
  unfold Group.removeRow
  cases ht : g.table? key with
  | none =>
      rw [overwrite_of_none _ ht]
      exact h
  | some t =>
      cases hr : t.removeRow row with
      | error e =>
          rw [overwrite_of_error ht hr]
          exact h.put ht (h.takes_self ht)
      | ok t' =>
          rw [overwrite_of_ok ht hr]
          have hw := (h.tables key t ht).removeRow hr
          obtain ⟨hlt, rfl⟩ := Table.removeRow_eq_ok hr
          refine h.dropLinked ht List.eraseIdx_subset hw
            (fun c v hc hv => hv.afterRowRemoved hc row) fun v hv target htarget => ?_
          obtain ⟨old, hold, hne, rfl⟩ := Value.mem_targets_afterRowRemoved htarget
          have hbound := hv old hold
          rw [Table.size] at hbound
          rw [List.length_eraseIdx_of_lt hlt]
          split <;> omega

theorem WellFormed.clearTable (h : g.WellFormed) (key : TableKey) :
    (g.clearTable key).2.WellFormed := by
  unfold Group.clearTable
  cases ht : g.table? key with
  | none =>
      rw [overwrite_of_none _ ht]
      exact h
  | some t =>
      rw [overwrite_of_ok (f := fun t => .ok t.clear) ht rfl]
      refine h.dropLinked ht (List.nil_subset _) (h.tables key t ht).clear
        (fun c v hc hv => hv.afterRowsCleared hc) fun v _ target htarget => ?_
      simp [Value.targets_afterRowsCleared] at htarget

/-! Tables that come and go -/

/-- A new table comes under a new key and a name that is free. -/
theorem addTable_eq_ok {name : String} (ha : g.addTable name = .ok (key, g')) :
    g.tableKey? name = none ∧ key = g.lastKey + 1 ∧ g'.lastKey = key ∧
      (∀ name', g'.tableKey? name' = if name' = name then some key else g.tableKey? name') ∧
      ∀ k : Nat, g'.table? k = if k = key then some (.empty key name) else g.table? k := by
  unfold addTable at ha
  split at ha
  · simp at ha
  · split at ha
    · simp at ha
    next hfree =>
      simp only [Except.ok.injEq, Prod.mk.injEq] at ha
      obtain ⟨rfl, rfl⟩ := ha
      refine ⟨by simpa [hasTable] using hfree, rfl, rfl, g.names.find?_insert name _,
        fun k => ?_⟩
      rw [table?_put]
      rfl

theorem WellFormed.addTable (h : g.WellFormed) {name : String}
    (ha : g.addTable name = .ok (key, g')) : g'.WellFormed := by
  obtain ⟨hfree, rfl, hlast, hindex, hget⟩ := addTable_eq_ok ha
  have hnew : ∀ (k : Nat) u, g.table? k = some u → u.name ≠ name := by
    intro k u hu hname
    simp [(h.names name k).mpr ⟨u, hu, hname⟩] at hfree
  have hold : ∀ (k : Nat) u, g.table? k = some u → g'.table? k = some u := by
    intro k u hu
    have hle := (h.keys k u hu).2
    have hne : k ≠ g.lastKey + 1 := Nat.ne_of_lt (Nat.lt_succ_of_le hle)
    rw [hget, if_neg hne, hu]
  have hwas : ∀ (k : Nat) u, g'.table? k = some u →
      k = g.lastKey + 1 ∧ u = .empty k name ∨ g.table? k = some u := by
    intro k u hu
    rw [hget] at hu
    split at hu
    next hk => exact .inl ⟨hk, hk ▸ (Option.some.inj hu).symm⟩
    next => exact .inr hu
  refine ⟨?_, ?_, ?_, ?_, ?_⟩
  · intro k u hu
    rw [hlast]
    rcases hwas k u hu with ⟨rfl, rfl⟩ | hu
    · exact ⟨rfl, Nat.le_refl _⟩
    · exact ⟨(h.keys k u hu).1, Nat.le_succ_of_le (h.keys k u hu).2⟩
  · intro name' k
    rw [hindex]
    split
    next hname =>
      subst hname
      refine ⟨fun hk => ⟨_, (hget k).trans (if_pos (Option.some.inj hk).symm), rfl⟩, ?_⟩
      rintro ⟨u, hu, hname⟩
      rcases hwas k u hu with ⟨rfl, -⟩ | hu
      · rfl
      · exact absurd hname (hnew k u hu)
    next hname =>
      refine (h.names name' k).trans ⟨?_, ?_⟩
      · rintro ⟨u, hu, hu'⟩
        exact ⟨u, hold k u hu, hu'⟩
      · rintro ⟨u, hu, rfl⟩
        rcases hwas k u hu with ⟨-, rfl⟩ | hu
        · exact absurd rfl hname
        · exact ⟨u, hu, rfl⟩
  · intro k u hu
    rcases hwas k u hu with ⟨rfl, rfl⟩ | hu
    · exact Table.empty_wellFormed _ _
    · exact h.tables k u hu
  · intro k u hu c hc into hinto
    rcases hwas k u hu with ⟨rfl, rfl⟩ | hu
    · simp [Table.empty] at hc
    · obtain ⟨v, hv⟩ := h.targets k u hu c hc into hinto
      exact ⟨v, hold into v hv⟩
  · intro k u c v hu hv row hrow
    rcases hwas k u hu with ⟨rfl, rfl⟩ | hu
    · simpa [Table.empty] using hv.column
    · obtain ⟨into, w, hinto, hw, hlt⟩ := h.links k u c v hu hv row hrow
      exact ⟨into, w, hinto, hold into w hw, hlt⟩

/-- No table that stays links to the one that goes. -/
theorem WellFormed.removeTable (h : g.WellFormed) (ha : g.removeTable key = .ok g') :
    g'.WellFormed := by
  simp only [Group.removeTable, bind_eq_ok, requireTable_eq_ok] at ha
  obtain ⟨t, ht, ha⟩ := ha
  split at ha
  · simp at ha
  next horigin =>
    obtain rfl := pure_eq_ok.mp ha
    have hget : ∀ k : Nat, Group.table?
        { g with tables := g.tables.erase key, names := g.names.erase t.name } k =
        if k = key then none else g.table? k := by
      intro k
      simp only [table?, NatMap.get?_erase]
      split <;> rfl
    have hwas : ∀ (k : Nat) u, Group.table?
        { g with tables := g.tables.erase key, names := g.names.erase t.name } k = some u →
        k ≠ key ∧ g.table? k = some u := by
      intro k u hu
      rw [hget] at hu
      split at hu
      · simp at hu
      next hk => exact ⟨hk, hu⟩
    have hinto : ∀ (k : Nat) u, k ≠ key → g.table? k = some u → ∀ c ∈ u.columns,
        ∀ into : Nat, c.target? = some into → into ≠ key := by
      rintro k u hk hu c hc into hinto rfl
      have hnot := List.find?_eq_none.mp horigin u (allTables_mem hu)
      have hlinks : u.linksTo into = true :=
        List.any_eq_true.mpr ⟨c, hc, decide_eq_true hinto⟩
      simp [hlinks, (h.keys k u hu).1, hk] at hnot
    refine ⟨fun k u hu => h.keys k u (hwas k u hu).2, ?_,
      fun k u hu => h.tables k u (hwas k u hu).2, ?_, ?_⟩
    · intro name k
      simp only [tableKey?, NameIndex.find?_erase, hget]
      split
      next hname =>
        -- The only table of the name is the one that goes.
        subst hname
        refine ⟨fun hk => by simp at hk, ?_⟩
        rintro ⟨u, hu, hname⟩
        split at hu
        · simp at hu
        next hk => exact absurd (h.name_injective hu ht hname) hk
      next hname =>
        refine (h.names name k).trans ⟨?_, ?_⟩
        · rintro ⟨u, hu, rfl⟩
          refine ⟨u, (if_neg fun hk => hname ?_).trans hu, rfl⟩
          exact congrArg Table.name (Option.some.inj (hu.symm.trans (hk ▸ ht)))
        · rintro ⟨u, hu, rfl⟩
          split at hu
          · simp at hu
          · exact ⟨u, hu, rfl⟩
    · intro k u hu c hc into hc'
      obtain ⟨hk, hu⟩ := hwas k u hu
      rw [hget, if_neg (hinto k u hk hu c hc into hc')]
      exact h.targets k u hu c hc into hc'
    · intro k u c v hu hv row hrow
      obtain ⟨hk, hu⟩ := hwas k u hu
      obtain ⟨into, w, hc', hw, hlt⟩ := h.links k u c v hu hv row hrow
      refine ⟨into, w, hc', ?_, hlt⟩
      rw [hget, if_neg (hinto k u hk hu c hv.column into hc')]
      exact hw

end Group

/-! Edits -/

/-- The edit puts links only where their targets are checked, makes columns of links only to
tables that are there, and takes rows away only together with the links to them. -/
def Edit.Safe (g : Group) : Edit → Prop
  | addColumn _ c => c.target?.isSome = c.type.isLinkLike ∧
      ∀ into : Nat, c.target? = some into → ∃ u, g.table? into = some u
  | set key column _ v => v.targets = [] ∨
      ∀ t c, g.table? key = some t → t.columns[column]? = some c → c.type.isLinkLike = false
  | dropRow _ _ | dropRows _ => False
  | _ => True

/-- An edit that is safe, refused or not, keeps a group well-formed. -/
theorem Group.WellFormed.edit {g : Group} (h : g.WellFormed) {e : Edit} (he : e.Safe g) :
    (g.edit e).2.WellFormed := by
  cases e with
  | addTable name =>
      simp only [Group.edit]
      split
      next ha => exact h.addTable ha
      next => exact h
  | removeTable key =>
      simp only [Group.edit]
      split
      next ha => exact h.removeTable ha
      next => exact h
  | addColumn key c => exact h.write fun t _ t' ht ha => h.takes_addColumn ht he.1 he.2 ha
  | removeColumn key column => exact h.overwrite fun t t' ht ha => h.takes_removeColumn ht ha
  | addRow key =>
      refine WellFormed.write (f := fun t => .ok t.addRow) h fun t _ t' ht ha => ?_
      obtain ⟨-, rfl⟩ := Prod.mk.inj (Except.ok.inj ha)
      exact h.takes_fresh ht (List.perm_append_singleton _ _) (List.perm_append_singleton _ _)
  | insertRow key row =>
      refine WellFormed.overwrite (f := (·.insertRow row)) h fun t t' ht ha => ?_
      obtain ⟨hrow, rfl⟩ := Table.insertRow_eq_ok ha
      have hids := (h.tables key t ht).identified
      exact h.takes_fresh ht (List.perm_insertIdx _ _ hrow) (List.perm_insertIdx _ _ (hids ▸ hrow))
  | removeRow key row => exact h.removeRow key row
  | dropRow key row | dropRows key => exact absurd he id
  | clear key => exact h.clearTable key
  | set key column row v =>
      refine WellFormed.overwrite (f := (·.set column row v)) h fun t t' ht ha =>
        h.takes_set ht ?_ ha
      intro c hc hlink row hrow
      rcases he with hnone | hplain
      · simp [hnone] at hrow
      · simp [hplain t c ht hc] at hlink
  | setLink key column row target => exact h.setLink key column row target
  | pushLink key column row target => exact h.pushLink key column row target
  | eraseLink key column row position =>
      refine WellFormed.overwrite (f := (·.eraseLink column row position)) h
        fun t t' ht ha => ?_
      simp only [Table.eraseLink, Table.linksToWrite_eq, bind_eq_ok] at ha
      obtain ⟨rows, hrows, ha⟩ := ha
      split at ha
      · simp at ha
      · obtain rfl := pure_eq_ok.mp ha
        exact h.takes_links ht hrows fun _ _ _ hrow => .inl (List.mem_of_mem_eraseIdx hrow)
  | clearLinks key column row =>
      refine WellFormed.overwrite (f := (·.clearLinks column row)) h fun t t' ht ha => ?_
      simp only [Table.clearLinks, Table.linksToWrite_eq, bind_eq_ok, pure_eq_ok] at ha
      obtain ⟨rows, hrows, rfl⟩ := ha
      exact h.takes_links ht hrows fun _ _ _ hrow => absurd hrow (List.not_mem_nil)

end SnapshotStore
