import SnapshotStore.Proofs.Service.Envelopes
import SnapshotStore.Proofs.Service.HandleIdentity
import SnapshotStore.Proofs.Service.SchemaGuard
import SnapshotStore.Proofs.Session.Reshaping

/-!
Views of windows up to the end of a table, and what becomes of them. However long such a view is
held and whatever becomes of the table, its window ends where the table ended when the view was
made: a sync finds the matches from the start of the window onwards, but none that stands at or
after that end.
-/

namespace SnapshotStore

/-- A view that was built on a table, as it is under its label later on. Unless the label is lost,
the column that the view is distinct in passed the check for that. -/
structure View.Since (v₀ : View) (t₀ : Table) (unshaped : Prop) (l : Label) (v : View) :
    Prop where
  becomes : v₀.Becomes v
  sight : l.sight? = some (.columns t₀.columns)
  thin : l.lost = false → ∀ c, v.distinctColumn? = some c → t₀.checkDistinct c = .ok ()
  unshaped : unshaped → v.sortKeys? = none ∧ v.distinctColumn? = none

namespace View.Since
variable {v₀ v v' : View} {t₀ : Table} {unshaped : Prop} {l l' : Label}

theorem of_ofQuery {q : Query} {window : Window} (h : View.ofQuery t₀ q window = .ok v₀)
    (hl : l.sight? = some (.columns t₀.columns)) : v₀.Since t₀ unshaped l v₀ := by
  obtain ⟨-, -, hsort, hdistinct⟩ := found_of_ofQuery h
  refine ⟨⟨_, _, _, rfl⟩, hl, fun _ c hc => ?_, fun _ => ⟨hsort, hdistinct⟩⟩
  exact nomatch hdistinct.symm.trans hc

theorem relabel (h : v₀.Since t₀ unshaped l v) (hsight : l'.sight? = l.sight?)
    (hlost : l.lost = true → l'.lost = true) : v₀.Since t₀ unshaped l' v where
  becomes := h.becomes
  sight := hsight.trans h.sight
  thin hkept := h.thin (by
    by_contra hl
    exact Bool.noConfusion (hkept.symm.trans (hlost (Bool.eq_true_of_not_eq_false hl))))
  unshaped := h.unshaped

theorem reshape (h : v₀.Since t₀ unshaped l v) {s : Session} {raw : UInt64} {c : Call}
    (hr : s.Reshapes raw c v v')
    (hcolumns : l.lost = false → ∀ t, s.view raw = .ok (v, t) → t.columns = t₀.columns)
    (hc : unshaped → ¬c.Shapes raw) : v₀.Since t₀ unshaped l v' where
  becomes := hr.becomes h.becomes
  sight := h.sight
  thin hkept i hi := by
    rcases hr.distinct with hsame | ⟨t, j, hv, hcheck, hj⟩
    · exact h.thin hkept i (hsame ▸ hi)
    · obtain rfl := Option.some.inj (hj.symm.trans hi)
      rwa [Table.checkDistinct_of_columns (hcolumns hkept t hv)] at hcheck
  unshaped hun := by
    obtain ⟨hsort, hdistinct⟩ := hr.plain (hc hun)
    rw [hsort, hdistinct]
    exact h.unshaped hun

/-- The rows in a window up to the end, when a sync has found them, are in the shape of the view. -/
theorem sync_rows (h : v₀.Since t₀ unshaped l v) {q : Query} {window : Window} {start limit : Int}
    (hwindow : Window.ofBounds t₀.size start (-1) limit = .ok window)
    (hv₀ : View.ofQuery t₀ q window = .ok v₀) {t : Table} (ha : v.isAttached t = true)
    (hok : (v.sync t).1 = .ok ()) {rows : List Nat}
    (hrows : rows = (q.onward t start limit).filter fun row => decide (row < t₀.size)) :
    View.thinAgain { v with rows := v.arrange t rows } t = .ok (v.sync t).2 ∧
      (unshaped → (v.sync t).2.rows = rows) := by
  have hthin := sync_eq_ok ha hok
  have hfound : v.query.matching t v.window = rows := by
    obtain ⟨_, _, _, rfl⟩ := h.becomes
    obtain ⟨_, -, hv₀⟩ := bind_eq_ok.mp hv₀
    obtain rfl := pure_eq_ok.mp hv₀
    exact hrows ▸ Query.matching_to_end hwindow
  rw [hfound] at hthin
  refine ⟨hthin, fun hun => ?_⟩
  obtain ⟨hsort, hdistinct⟩ := h.unshaped hun
  rw [thinAgain_plain hsort hdistinct] at hthin
  rw [← Except.ok.inj hthin]

/-- A sync against a table with the columns from when the view was built succeeds. -/
theorem sync_ok (h : v₀.Since t₀ unshaped l v) {q : Query} {window : Window}
    (hv₀ : View.ofQuery t₀ q window = .ok v₀) {t : Table} (ha : v.isAttached t = true)
    (hcolumns : t.columns = t₀.columns) (hkept : l.lost = false) : (v.sync t).1 = .ok () := by
  have hthin := h.thin hkept
  obtain ⟨_, _, _, rfl⟩ := h.becomes
  obtain ⟨_, hfound, hv₀⟩ := bind_eq_ok.mp hv₀
  obtain rfl := pure_eq_ok.mp hv₀
  obtain ⟨_, hcheck, -⟩ := bind_eq_ok.mp hfound
  obtain ⟨hkey, hepoch⟩ := Query.check_eq_ok hcheck
  have hattached : t.key = t₀.key ∧ t.schemaEpoch = t₀.schemaEpoch := by
    simpa [isAttached] using ha
  refine View.sync_ok ha (Query.check_of_columns (hattached.1.trans hkey)
    (hattached.2.trans hepoch) hcolumns hcheck) fun c hc => ?_
  rw [Table.checkDistinct_of_columns hcolumns]
  exact hthin c hc

end View.Since

/-- The object of a handle is in the slot that the handle was made from. -/
theorem Session.lookUp_live {α : Type} [Anchored α] {s : Session} {a : Arena (Bound α)}
    {kind : HandleKind} {slot g : Nat} (hslot : slot < 0x100000000) (hg : g < 0x1000000) {y : α}
    {t : Table} (hl : s.lookUp a (Handle.ofParts kind slot g).encode = .ok (y, t)) :
    ∃ x, a.live? slot = some (g, x) ∧ x.object = y := by
  obtain ⟨x, hlocate, hx, -⟩ := lookUp_eq_ok hl
  obtain ⟨k, hk, hlive⟩ := Arena.get_eq_ok.mp hlocate
  obtain rfl := Option.some.inj ((Handle.decode?_encode _).symm.trans (Arena.decode_eq_ok hk).1)
  obtain ⟨-, hslot', hg'⟩ := Handle.ofParts_fields kind hslot hg
  rw [hslot', hg'] at hlive
  exact ⟨x, hlive, hx⟩

namespace Service

/-- The move is one in which the session gives the view of the handle its shape. -/
def Move.Shapes (n : Nat) (raw : UInt64) : Move → Prop
  | .call m c => m = n ∧ c.Shapes raw
  | _ => False

variable {settings : Settings} {s s₁ s₂ : Service} {b b₂ : Notebook} {n slot g : Nat}
  {session session' session₁ session₂ : Session} {m : Move} {v₀ : View} {t₀ : Table}
  {unshaped : Prop} {x : Bound View}

theorem label?_ofParts (b : Notebook) (n : Nat) (kind : HandleKind) (hslot : slot < 0x100000000)
    (hg : g < 0x1000000) :
    b.label? n (Handle.ofParts kind slot g).encode = some (b.label n kind slot) := by
  obtain ⟨hkind, hslot', -⟩ := Handle.ofParts_fields kind hslot hg
  rw [Notebook.label?, Handle.decode?_encode, Option.map_some, hkind, hslot']

/-- Only its own calls change what a session holds. -/
theorem session_of_make (hs : s.sessions.get? n = some session) (hm : ¬m.Ends n)
    (hs' : (s.make m).sessions.get? n = some session') : session' = session ∨ ∃ c, m = .call n c ∧
      session' = (Workspace.after (Workspace.call c) (s.workspace session)).session := by
  cases m with
  | openSession m =>
      have hsame := (s.openSession_get?_ne fun h => hm h.symm).trans hs
      exact .inl (Option.some.inj (hs'.symm.trans hsame))
  | closeSession m =>
      have hsame := (s.closeSession_get?_ne fun h => hm h.symm).trans hs
      exact .inl (Option.some.inj (hs'.symm.trans hsame))
  | call m c =>
      cases hother : s.sessions.get? m with
      | none =>
          rw [make_call_none hother] at hs'
          exact .inl (Option.some.inj (hs'.symm.trans hs))
      | some other =>
          rw [make_call hother] at hs'
          by_cases hne : n = m
          · subst hne
            obtain rfl := Option.some.inj (hs.symm.trans hother)
            exact .inr ⟨c, rfl,
              Option.some.inj (hs'.symm.trans (NatMap.get?_insert_self ..))⟩
          · exact .inl (Option.some.inj
              (hs'.symm.trans ((NatMap.get?_insert_ne _ _ hne).trans hs)))

namespace Kept

/-- What one move makes of a view that a session holds. -/
theorem view_stays (hk : Kept settings s b) (hs : s.sessions.get? n = some session)
    (hm : ¬m.Ends n) (hs' : (s.make m).sessions.get? n = some session')
    (hslot : slot < 0x100000000) (hg : g < 0x1000000)
    (hx : session.views.live? slot = some (g, x))
    (h : v₀.Since t₀ unshaped (b.label n .view slot) x.object)
    (hun : unshaped → ¬m.Shapes n (Handle.ofParts .view slot g).encode) :
    session'.views.generation slot ≠ g ∨ ∃ x', session'.views.live? slot = some (g, x') ∧
      v₀.Since t₀ unshaped ((s.observe b m).label n .view slot) x'.object := by
  have ho : ((s.workspace session).shelf .view).held slot =
      some ⟨g, x.epoch, Denoting.subject x.object⟩ := Option.map_eq_some_iff.mpr ⟨_, hx, rfl⟩
  have hkind : HandleKind.view ≠ .envelope := nofun
  rcases hk.stays hs hm hs' hkind ho with ⟨ho', hages⟩ | hne
  case inr => exact .inl (Arena.live?_generation hx ▸ hne)
  obtain ⟨⟨g', x'⟩, hx', he⟩ := Option.map_eq_some_iff.mp ho'
  obtain ⟨rfl, -, -⟩ := Held.mk.inj he
  refine .inr ⟨x', hx', ?_⟩
  have hkeeps : ((s.workspace session).shelf .view).keeps
      (((s.make m).workspace session').shelf .view) slot = true := Arena.keeps_iff.mpr
    ⟨Option.isSome_iff_exists.mpr ⟨_, hx⟩,
      (Arena.live?_generation hx').trans (Arena.live?_generation hx).symm⟩
  have hlost := hk.stays_lost hs hs' hkind hkeeps
  rcases session_of_make hs hm hs' with rfl | ⟨c, rfl, rfl⟩
  · obtain ⟨-, rfl⟩ := Prod.mk.inj (Option.some.inj (hx.symm.trans hx'))
    exact h.relabel hages.sight hlost
  · rcases Workspace.call_reshapes (hk.stocked n session hs) (fun g => hk.numbered hs g) c hx hx'
      with hsame | hr
    · exact (hsame ▸ h).relabel hages.sight hlost
    · refine (h.reshape hr (fun hkept t hv => ?_) fun hu hc => hun hu ⟨rfl, hc⟩).relabel
        hages.sight hlost
      obtain ⟨l, hl, hsight, -⟩ := hk.against hs (.view hv)
      obtain rfl := Option.some.inj (hl.symm.trans (label?_ofParts b n .view hslot hg))
      exact (Sight.columns.inj (Option.some.inj ((hsight hkept).symm.trans h.sight)))

/-- What a whole run makes of it, by what each move does. -/
theorem view_lasts {moves : List Move} (hk : Kept settings s b)
    (hs : s.sessions.get? n = some session) (hl : Lasts n s moves) (hslot : slot < 0x100000000)
    (hg : g < 0x1000000)
    (hun : unshaped → ∀ m ∈ moves, ¬m.Shapes n (Handle.ofParts .view slot g).encode)
    (h : g < session.views.generation slot ∨ ∃ x, session.views.live? slot = some (g, x) ∧
      v₀.Since t₀ unshaped (b.label n .view slot) x.object) : ∃ session',
      (s.run b moves).1.sessions.get? n = some session' ∧
      (g < session'.views.generation slot ∨ ∃ x, session'.views.live? slot = some (g, x) ∧
        v₀.Since t₀ unshaped ((s.run b moves).2.label n .view slot) x.object) := by
  induction moves generalizing s b session with
  | nil => exact ⟨session, hs, h⟩
  | cons m moves ih =>
      obtain ⟨hends, hgen, hrest⟩ := hl
      obtain ⟨session', hs'⟩ := hk.remains hs hends
      have hle : session.views.generation slot ≤ session'.views.generation slot :=
        hgen session session' hs hs' .view slot
      refine ih (hk.make m) hs' hrest (fun hu m' hm' => hun hu m' (List.mem_cons_of_mem m hm')) ?_
      -- Generations never fall, so a slot that is past the mark stays past it.
      rcases h with hlt | ⟨x, hx, hsince⟩
      · exact .inl (Nat.lt_of_lt_of_le hlt hle)
      · rcases hk.view_stays hs hends hs' hslot hg hx hsince
          (fun hu => hun hu m List.mem_cons_self) with hne | hstays
        · rw [Arena.live?_generation hx] at hle
          exact .inl (Nat.lt_of_le_of_ne hle hne.symm)
        · exact .inr hstays

/-- The view that a query has just found is there under its handle, and its label tells the columns
of the table. -/
theorem issued_view {hq : UInt64} {q : Query} {start stop limit : Int} {out : Outcome}
    (hk : Kept settings s b) (hs : s.sessions.get? n = some session)
    (found : session.query hq = .ok (q, t₀))
    (made : s.call n (.queryFindAll hq start stop limit) = some (.ok out, s₁))
    (hs₁ : s₁.sessions.get? n = some session₁) (room : (s₁.workspace session₁).Addressable)
    (spared : Prop) : ∃ slot g l window v₀,
      out.reply = .handle (Handle.ofParts .view slot g).encode ∧
      slot < 0x100000000 ∧ g < 0x1000000 ∧
      Window.ofBounds t₀.size start stop limit = .ok window ∧
      View.ofQuery t₀ q window = .ok v₀ ∧ l.lost = false ∧
      Marks (s₁.workspace session₁) (s.observe b (.call n (.queryFindAll hq start stop limit)))
        spared n .view slot g l ∧
      ∃ x, session₁.views.live? slot = some (g, x) ∧ ∀ unshaped, v₀.Since t₀ unshaped
        ((s.observe b (.call n (.queryFindAll hq start stop limit))).label n .view slot)
        x.object := by
  obtain ⟨slot, g, l, hreply, hslot, hg, rfl, hm⟩ :=
    hk.issued_marks hs (.view found) made hs₁ room spared
  obtain ⟨w', hw, -, hmake, hs'⟩ := call_eq_ok hs made
  obtain rfl := Option.some.inj (hs₁.symm.trans hs')
  have hk₁ := hmake ▸ hk.call n (.queryFindAll hq start stop limit)
  obtain ⟨window, v₀, slot', g', x, hwindow, hv₀, hreply', hx, rfl⟩ :=
    Workspace.call_queryFindAll (hk.stocked n session hs) found hw
  have hslot' : slot' < 0x100000000 := room .view slot' (by
    change ((w'.session.views.live? slot').map _).isSome
    rw [hx, Option.map_some, Option.isSome_some])
  have hg' : g' < 0x1000000 := Arena.live?_generation hx ▸
    (hk₁.stocked n w'.session hs₁).generation_lt .view slot'
  obtain ⟨rfl, rfl⟩ := Handle.ofParts_inj hslot hslot' hg hg'
    (Reply.handle.inj (hreply.symm.trans hreply'))
  refine ⟨slot, g, _, window, _, hreply, hslot, hg, hwindow, hv₀, rfl, hm, x, hx, fun _ => ?_⟩
  rcases hm with hlt | ⟨-, -, hages⟩
  · exact absurd (Arena.live?_generation hx) (Nat.ne_of_gt hlt)
  · exact .of_ofQuery hv₀ (hages.sight.trans (hk.built_sight hs (.view found) made hs₁))

/-- If the handle of a view is good after a run, it has the view that was there before. -/
theorem view_ran {moves : List Move} (hk : Kept settings s b)
    (hs : s.sessions.get? n = some session) (lasts : Lasts n s moves) (hslot : slot < 0x100000000)
    (hg : g < 0x1000000) (hissued : ∃ x, session.views.live? slot = some (g, x) ∧
      ∀ unshaped, v₀.Since t₀ unshaped (b.label n .view slot) x.object) {l : Label}
    (hm : Marks (s.workspace session) b (∀ m ∈ moves, m.Spares n) n .view slot g l)
    (ran : s.run b moves = (s₂, b₂)) (hs₂ : s₂.sessions.get? n = some session₂) {v : View}
    {t : Table} (hv : session₂.view (Handle.ofParts .view slot g).encode = .ok (v, t)) :
    v₀.Since t₀ (∀ m ∈ moves, ¬m.Shapes n (Handle.ofParts .view slot g).encode)
        (b₂.label n .view slot) v ∧
      l.Ages (∀ m ∈ moves, m.Spares n) (b₂.label n .view slot) := by
  obtain ⟨x₁, hx₁, hsince₁⟩ := hissued
  obtain ⟨session', hs', hsince⟩ :=
    hk.view_lasts hs lasts hslot hg id (.inr ⟨x₁, hx₁, hsince₁ _⟩)
  have hkind : HandleKind.view ≠ .envelope := nofun
  obtain ⟨session'', hs'', hm₂⟩ := hk.lasts hs lasts hkind id hm
  rw [ran] at hs' hsince hs'' hm₂
  obtain rfl := Option.some.inj (hs₂.symm.trans hs')
  obtain rfl := Option.some.inj (hs₂.symm.trans hs'')
  obtain ⟨x, hx, rfl⟩ := Session.lookUp_live hslot hg hv
  rcases hsince with hlt | ⟨x', hx', hsince⟩
  case inl => exact absurd (Arena.live?_generation hx) (Nat.ne_of_gt hlt)
  rcases hm₂ with hlt | ⟨-, -, hages⟩
  case inl => exact absurd (Arena.live?_generation hx) (Nat.ne_of_gt hlt)
  obtain ⟨-, rfl⟩ := Prod.mk.inj (Option.some.inj (hx.symm.trans hx'))
  exact ⟨hsince, hages⟩

end Kept

/-- What a sync comes to under the handle of the view. -/
theorem Kept.viewSync (hk : Kept settings s b) (hs : s.sessions.get? n = some session)
    {raw : UInt64} {v : View} {t : Table} (hv : session.view raw = .ok (v, t)) :
    ((v.sync t).1 = .ok () →
      ∃ s', s.call n (.viewSync raw) = some (.ok ⟨.nothing, none⟩, s')) ∧
    ∀ out s', s.call n (.viewSync raw) = some (.ok out, s') → (v.sync t).1 = .ok () ∧
      ∃ session', s'.sessions.get? n = some session' ∧
        session'.view raw = .ok ((v.sync t).2, t) := by
  obtain ⟨w', hview, hok, herror⟩ := Workspace.viewSync_syncs (hk.stocked n session hs) hv
  refine ⟨fun h => ⟨s.turned n w', by rw [call_eq hs, hok h]⟩, fun out s' hc => ?_⟩
  obtain ⟨w₁, hw₁, -, -, hs'⟩ := call_eq_ok hs hc
  cases hsync : (v.sync t).1 with
  | error e => exact nomatch (herror e hsync).symm.trans hw₁
  | ok u =>
      obtain ⟨-, rfl⟩ := EStateM.Result.ok.inj ((hok hsync).symm.trans hw₁)
      exact ⟨rfl, w'.session, hs', hview⟩

/-- A sync of a view whose window was to reach to the end of its table finds the first matches from
the start of the window onwards, but of these only those that stand below the size that the table
had when the view was made; so it finds all if and only if none stands at or after that size. The
view lists what was found in the shape that it was given since, if it was given any. The sync of an
attached view succeeds, unless its columns were given up with the write in which they came to
be. -/
theorem Reachable.open_end_fixed {hq : UInt64} {q : Query} {start limit : Int} {out : Outcome}
    {moves : List Move} (h : Reachable settings s b) (hs : s.sessions.get? n = some session)
    (found : session.query hq = .ok (q, t₀))
    (made : s.call n (.queryFindAll hq start (-1) limit) = some (.ok out, s₁))
    (hs₁ : s₁.sessions.get? n = some session₁) (room : (s₁.workspace session₁).Addressable)
    (lasts : Lasts n s₁ moves)
    (ran : s₁.run (s.observe b (.call n (.queryFindAll hq start (-1) limit))) moves = (s₂, b₂))
    (hs₂ : s₂.sessions.get? n = some session₂) : ∃ raw, out.reply = .handle raw ∧
      (session₂.isAttached session₂.views raw = .ok true → ∃ v t g l,
        session₂.view raw = .ok (v, t) ∧ session₂.context.group = .ok g ∧
        g.table? t₀.key = some t ∧ b₂.label? n raw = some l ∧
        ((∀ m ∈ moves, m.Spares n) → l.lost = false) ∧
        (l.lost = false → ∃ s₃, s₂.call n (.viewSync raw) = some (.ok ⟨.nothing, none⟩, s₃)) ∧
        ∀ out₃ s₃, s₂.call n (.viewSync raw) = some (.ok out₃, s₃) →
          ∃ session₃ v' rows, s₃.sessions.get? n = some session₃ ∧
            session₃.view raw = .ok (v', t) ∧
            rows = (q.onward t start limit).filter (fun row => decide (row < t₀.size)) ∧
            (rows = q.onward t start limit ↔ ∀ row ∈ q.onward t start limit, row < t₀.size) ∧
            View.thinAgain { v with rows := v.arrange t rows } t = .ok v' ∧
            ((∀ m ∈ moves, ¬m.Shapes n raw) → v'.rows = rows)) := by
  have hk := h.kept
  obtain ⟨slot, g, l, window, v₀, hreply, hslot, hg, hwindow, hv₀, hlost, hm, hissued⟩ :=
    hk.issued_view hs found made hs₁ room (∀ m ∈ moves, m.Spares n)
  obtain ⟨-, -, -, hmake, -⟩ := call_eq_ok hs made
  have hk₁ := hmake ▸ hk.call n (.queryFindAll hq start (-1) limit)
  have hk₂ := hk₁.run moves
  rw [ran] at hk₂
  refine ⟨_, hreply, fun ha => ?_⟩
  obtain ⟨v, t, hv⟩ := Session.view_of_attached ha
  obtain ⟨hsince, hages⟩ := hk₁.view_ran hs₁ lasts hslot hg hissued hm ran hs₂ hv
  obtain ⟨hkey, group, hgroup, ht⟩ := Session.lookUp_seen (fun g => hk₂.numbered hs₂ g) hv
  have hattached := Session.view_attached hv
  have hlabel := label?_ofParts b₂ n .view hslot hg
  obtain ⟨hok, hsync⟩ := hk₂.viewSync hs₂ hv
  have hfirst : t.key = t₀.key := by
    obtain ⟨_, _, _, rfl⟩ := hsince.becomes
    exact hkey.trans (View.ofQuery_eq_ok hv₀).1
  refine ⟨v, t, group, _, hv, hgroup, hfirst ▸ ht, hlabel, fun hspares => ?spared,
    fun hkept => hok ?succeeds, fun out₃ s₃ hc => ?rows⟩
  case spared => exact (hages.spared hspares).trans hlost
  case succeeds =>
    obtain ⟨l', hl', hsight, -⟩ := hk₂.against hs₂ (.view hv)
    obtain rfl := Option.some.inj (hlabel.symm.trans hl')
    have hcolumns : t.columns = t₀.columns :=
      Sight.columns.inj (Option.some.inj ((hsight hkept).symm.trans hsince.sight))
    exact hsince.sync_ok hv₀ hattached hcolumns hkept
  case rows =>
    obtain ⟨hdone, session₃, hs₃, hv'⟩ := hsync out₃ s₃ hc
    obtain ⟨hthin, hplain⟩ := hsince.sync_rows hwindow hv₀ hattached hdone rfl
    refine ⟨session₃, _, _, hs₃, hv', rfl, ?_, hthin, hplain⟩
    simp only [List.filter_eq_self, decide_eq_true_eq]

/-- A row that another session appends, and that a sync does not find. -/
theorem appended_elsewhere_not_found : ∃ (s : Service) (session : Session) (v : View) (t : Table),
    s.sessions.get? 1 = some session ∧ session.view 0x400000100000000 = .ok (v, t) ∧
    t.size = 2 ∧ v.rows = [0] := by
  have h := unused_reachable [.openSession 1, .openSession 2, .call 1 (.transact .beginWrite),
    .call 1 (.addTable "t"), .call 1 (.addEmptyRow 0x100000100000000),
    .call 1 (.transact .commitAndRead), .call 1 (.whereTable 0x100000100000000)]
  obtain ⟨raw, hraw, hsynced⟩ := h.open_end_fixed (n := 1) rfl
    (show Session.query _ 0x300000100000000 = _ from rfl)
    (show Service.call _ 1 (.queryFindAll 0x300000100000000 0 (-1) (-1)) = _ from rfl) rfl
    (by
      intro kind slot hheld
      cases kind <;> rcases slot with _ | slot <;>
        first | exact of_decide_eq_true rfl | exact absurd hheld Bool.false_ne_true)
    (show Lasts 1 _ [.call 2 (.transact .beginWrite), .call 2 (.getTable "t"),
        .call 2 (.addEmptyRow 0x100000100000000), .call 2 (.transact .commit),
        .call 1 (.transact (.advance none))] by
      refine ⟨id, ?_, id, ?_, id, ?_, id, ?_, id, ?_, trivial⟩ <;>
        · rintro session session' ⟨⟩ ⟨⟩ kind slot
          cases kind <;> exact Nat.le_refl _)
    rfl rfl
  obtain rfl := Reply.handle.inj hraw
  obtain ⟨v, t, g, l, hv, -, -, -, hspared, hsucceeds, hrows⟩ := hsynced rfl
  obtain ⟨s₃, hs₃⟩ := hsucceeds (hspared (by simp [Move.Spares]))
  obtain ⟨session₃, v', rows, hsession, hv', hfound, -, -, hplain⟩ := hrows _ _ hs₃
  refine ⟨s₃, session₃, v', t, hsession, hv', ?_, ?_⟩
  · obtain ⟨-, rfl⟩ := Prod.mk.inj (Except.ok.inj hv)
    rfl
  · obtain ⟨-, rfl⟩ := Prod.mk.inj (Except.ok.inj hv)
    rw [hplain (by simp [Move.Shapes, Call.Shapes]), hfound]
    rfl

/-- The exception. A view of a whole table does not take up the row that is appended next. -/
theorem appended_row_not_found : ∃ s b s' b' s'' session session' session'' q t t' v raw,
    Reachable {} s b ∧ s.sessions.get? 1 = some session ∧ session.query raw = .ok (q, t) ∧
    s.run b [.call 1 (.queryFindAll raw 0 (-1) (-1)),
      .call 1 (.addEmptyRow 0x100000100000000)] = (s', b') ∧
    s'.sessions.get? 1 = some session' ∧
    session'.isAttached session'.views 0x400000100000000 = .ok true ∧
    s'.call 1 (.viewSync 0x400000100000000) = some (.ok ⟨.nothing, none⟩, s'') ∧
    s''.sessions.get? 1 = some session'' ∧
    session''.view 0x400000100000000 = .ok (v, t') ∧
    q.onward t' 0 (-1) = [0, 1] ∧ v.rows = [0] := by
  have h := unused_reachable [.openSession 1, .call 1 (.transact .beginWrite),
    .call 1 (.addTable "t"), .call 1 (.addEmptyRow 0x100000100000000),
    .call 1 (.whereTable 0x100000100000000)]
  exact ⟨_, _, _, _, _, _, _, _, _, _, _, _, 0x300000100000000, h, rfl, rfl, rfl, rfl, rfl, rfl,
    rfl, rfl, rfl, rfl⟩

end Service
end SnapshotStore
