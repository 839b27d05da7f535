import SnapshotStore.Proofs.Service.Run

/-!
Objects that last: as long as a session stays open and the generation of a slot stays the
same, the slot holds the same object, and its label only grows older.
-/

namespace SnapshotStore

namespace Label

/-- The same label, which may have been lost since unless it was spared. -/
structure Ages (spared : Prop) (l l' : Label) : Prop where
  subject : l'.subject = l.subject
  birth : l'.birth = l.birth
  sight : l'.sight? = l.sight?
  issued : l'.issued = l.issued
  spared : spared → l'.lost = l.lost

variable {spared : Prop} {l l' l'' : Label}

theorem Ages.refl (spared : Prop) (l : Label) : l.Ages spared l :=
  ⟨rfl, rfl, rfl, rfl, fun _ => rfl⟩

theorem Ages.trans (h : l.Ages spared l') (h' : l'.Ages spared l'') : l.Ages spared l'' where
  subject := h'.subject.trans h.subject
  birth := h'.birth.trans h.birth
  sight := h'.sight.trans h.sight
  issued := h'.issued.trans h.issued
  spared hs := (h'.spared hs).trans (h.spared hs)

theorem Ages.mono {other : Prop} (h : l.Ages spared l') (hs : other → spared) : l.Ages other l' :=
  { h with spared := fun ho => h.spared (hs ho) }

theorem ages_after (l : Label) (since : Nat) (d : Deed) :
    l.Ages (d ≠ .retreat) (l.after since d) where
  subject := l.after_subject since d
  birth := by cases d <;> rfl
  sight := by cases d <;> rfl
  issued := by cases d <;> rfl
  spared hd := by rw [l.after_of_ne since hd]

end Label

namespace Service

/-- The move closes the session or opens another one in its place. -/
def Move.Ends (n : Nat) : Move → Prop
  | .openSession m | .closeSession m => m = n
  | .call .. => False

/-- The move is not one in which the session gives up a write and goes on reading. -/
def Move.Spares (n : Nat) (m : Move) : Prop := m ≠ .call n (.transact .rollbackAndRead)

/-- The session stays open during the moves, and the generations of its slots never fall. -/
def Lasts (n : Nat) (s : Service) : List Move → Prop
  | [] => True
  | m :: moves => ¬m.Ends n ∧
    (∀ session session', s.sessions.get? n = some session →
      (s.make m).sessions.get? n = some session' → ∀ kind slot,
        ((s.workspace session).shelf kind).generation slot ≤
          (((s.make m).workspace session').shelf kind).generation slot) ∧
    Lasts n (s.make m) moves

variable {settings : Settings} {s : Service} {b : Notebook} {n : Nat} {session : Session}
  {kind : HandleKind} {slot g : Nat} {o : Held} {l : Label}

theorem openSession_get?_ne (s : Service) {m : Nat} (h : n ≠ m) :
    (s.openSession m).sessions.get? n = s.sessions.get? n := by
  rw [openSession_eq]
  exact (NatMap.get?_insert_ne _ _ h).trans (s.closeSession_get?_ne h)

theorem Kept.remains (hk : Kept settings s b) (hs : s.sessions.get? n = some session) {m : Move}
    (hm : ¬m.Ends n) : ∃ session', (s.make m).sessions.get? n = some session' := by
  cases m with
  | openSession m => exact ⟨session, (s.openSession_get?_ne fun h => hm h.symm).trans hs⟩
  | closeSession m => exact ⟨session, (s.closeSession_get?_ne fun h => hm h.symm).trans hs⟩
  | call m c =>
      cases ho : s.sessions.get? m with
      | none => exact ⟨session, by simpa [Service.make, Service.call, ho] using hs⟩
      | some other =>
          obtain ⟨w', -, hmake, -⟩ := hk.call_turns ho c
          rw [hmake]
          by_cases hne : n = m
          · exact ⟨w'.session, hne ▸ NatMap.get?_insert_self ..⟩
          · exact ⟨session, (NatMap.get?_insert_ne _ _ hne).trans hs⟩

/-- The object in a slot is the one that was there before, under the same label, or the slot
has another generation. -/
def Stays (w w' : Workspace) (b b' : Notebook) (spared : Prop) (n : Nat) (kind : HandleKind)
    (slot : Nat) (o : Held) : Prop :=
  (w'.shelf kind).held slot = some o ∧
      (b.label n kind slot).Ages spared (b'.label n kind slot) ∨
    (w'.shelf kind).generation slot ≠ (w.shelf kind).generation slot

theorem stays_of_same {w w' : Workspace} {b' : Notebook} {spared : Prop}
    (ho : (w.shelf kind).held slot = some o) (shelf : w'.shelf kind = w.shelf kind)
    (label : b'.label n kind slot = b.label n kind slot) :
    Stays w w' b b' spared n kind slot o :=
  .inl ⟨shelf ▸ ho, label ▸ .refl _ _⟩

theorem Kept.stays_self (hk : Kept settings s b) (hs : s.sessions.get? n = some session)
    {c : Call} {session' : Session} (hs' : (s.make (.call n c)).sessions.get? n = some session')
    (hkind : kind ≠ .envelope) (ho : ((s.workspace session).shelf kind).held slot = some o) :
    Stays (s.workspace session) ((s.make (.call n c)).workspace session') b
      (s.observe b (.call n c)) (Move.Spares n (.call n c)) n kind slot o := by
  obtain ⟨w', hturns, hmake, hobserve⟩ := hk.call_turns hs c
  rw [hmake] at hs' ⊢
  rw [hobserve]
  obtain rfl := Option.some.inj ((NatMap.get?_insert_self ..).symm.trans hs')
  rcases (hturns.shelves kind).left ho with hheld | hne
  · refine .inl ⟨hheld, ?_⟩
    have hgen := ((s.workspace session).shelf kind).agrees slot o ho
    have hgen' := (w'.shelf kind).agrees slot o hheld
    have hkeeps : ((s.workspace session).shelf kind).keeps (w'.shelf kind) slot = true := by
      simp [Shelf.keeps, ho, ← hgen, ← hgen']
    rw [Notebook.observe, Notebook.renew_label, Notebook.pick_kept hkeeps,
      Notebook.label_of_ne _ _ hkind, Notebook.label_of_ne _ _ hkind]
    simp only [Notebook.note, if_true]
    refine (Label.ages_after _ _ _).mono fun hspares hd => hspares ?_
    rw [Workspace.deed_eq_retreat hd]
  · exact .inr hne

theorem Kept.stays_other (hk : Kept settings s b) (hs : s.sessions.get? n = some session) {m : Nat}
    (hm : n ≠ m) {c : Call} {session' : Session}
    (hs' : (s.make (.call m c)).sessions.get? n = some session') (hkind : kind ≠ .envelope)
    (ho : ((s.workspace session).shelf kind).held slot = some o) :
    Stays (s.workspace session) ((s.make (.call m c)).workspace session') b
      (s.observe b (.call m c)) (Move.Spares n (.call m c)) n kind slot o := by
  cases hother : s.sessions.get? m with
  | none =>
      have hmake : s.make (.call m c) = s := by simp [Service.make, Service.call, hother]
      have hobserve : s.observe b (.call m c) = b := by simp only [Service.observe, hother]
      rw [hmake] at hs' ⊢
      rw [hobserve]
      obtain rfl := Option.some.inj (hs.symm.trans hs')
      exact stays_of_same ho rfl rfl
  | some other =>
      obtain ⟨w', -, hmake, hobserve⟩ := hk.call_turns hother c
      rw [hmake] at hs' ⊢
      rw [hobserve]
      obtain rfl := Option.some.inj ((hs.symm.trans (NatMap.get?_insert_ne _ _ hm).symm).trans hs')
      refine stays_of_same ho (shelf_of_ne session _ _ hkind) ?_
      rw [Notebook.label_of_ne _ _ hkind, Notebook.label_of_ne _ _ hkind, Notebook.observe,
        Notebook.renew_labels_ne _ _ _ _ hm, Notebook.note_labels_ne _ _ hm]

/-- What one move does to the objects of a session that stays open. -/
theorem Kept.stays (hk : Kept settings s b) (hs : s.sessions.get? n = some session) {m : Move}
    (hm : ¬m.Ends n) {session' : Session} (hs' : (s.make m).sessions.get? n = some session')
    (hkind : kind ≠ .envelope) (ho : ((s.workspace session).shelf kind).held slot = some o) :
    Stays (s.workspace session) ((s.make m).workspace session') b (s.observe b m) (m.Spares n) n
      kind slot o := by
  cases m with
  | openSession m =>
      have hsame := (s.openSession_get?_ne fun h => hm h.symm).trans hs
      obtain rfl := Option.some.inj (hsame.symm.trans hs')
      exact stays_of_same ho (shelf_of_ne session _ _ hkind) rfl
  | closeSession m =>
      have hsame := (s.closeSession_get?_ne fun h => hm h.symm).trans hs
      obtain rfl := Option.some.inj (hsame.symm.trans hs')
      exact stays_of_same ho (shelf_of_ne session _ _ hkind) rfl
  | call m c =>
      by_cases hne : n = m
      · subst hne
        exact hk.stays_self hs hs' hkind ho
      · exact hk.stays_other hs hne hs' hkind ho

/-- What stays in its slot under a label that is lost has a lost label afterwards. -/
theorem Kept.stays_lost (hk : Kept settings s b) {m : Move} {session' : Session}
    (hs : s.sessions.get? n = some session)
    (hs' : (s.make m).sessions.get? n = some session') (hkind : kind ≠ .envelope)
    (hkeeps : ((s.workspace session).shelf kind).keeps
      (((s.make m).workspace session').shelf kind) slot)
    (hl : (b.label n kind slot).lost = true) :
    ((s.observe b m).label n kind slot).lost = true := by
  cases m with
  | openSession m | closeSession m => exact hl
  | call m c =>
      cases hother : s.sessions.get? m with
      | none => simpa only [Service.observe, hother] using hl
      | some other =>
          obtain ⟨w', -, hmake, hobserve⟩ := hk.call_turns hother c
          rw [Notebook.label_of_ne _ _ hkind] at hl
          rw [hobserve, Notebook.observe]
          by_cases hne : n = m
          · subst hne
            obtain rfl := Option.some.inj (hs.symm.trans hother)
            rw [hmake] at hs' hkeeps
            obtain rfl := Option.some.inj ((NatMap.get?_insert_self ..).symm.trans hs')
            change ((s.workspace session).shelf kind).keeps (w'.shelf kind) slot = true at hkeeps
            rw [Notebook.renew_label, Notebook.pick_kept hkeeps, Notebook.label_of_ne _ _ hkind]
            simpa only [Notebook.note, if_true, Label.after_of_lost _ _ _ hl] using hl
          · rwa [Notebook.label_of_ne _ _ hkind, Notebook.renew_labels_ne _ _ _ _ hne,
              Notebook.note_labels_ne _ _ hne]

/-- The slot has come to a later generation, or still holds the object of the label. -/
def Marks (w : Workspace) (b : Notebook) (spared : Prop) (n : Nat) (kind : HandleKind)
    (slot g : Nat) (l : Label) : Prop :=
  g < (w.shelf kind).generation slot ∨ (w.shelf kind).generation slot = g ∧
    ((w.shelf kind).held slot).isSome ∧ l.Ages spared (b.label n kind slot)

/-- A whole run keeps the mark, since each move does. -/
theorem Kept.lasts {moves : List Move} {spared : Prop} (hk : Kept settings s b)
    (hs : s.sessions.get? n = some session) (hl : Lasts n s moves) (hkind : kind ≠ .envelope)
    (spares : spared → ∀ m ∈ moves, m.Spares n)
    (hm : Marks (s.workspace session) b spared n kind slot g l) : ∃ session',
      (s.run b moves).1.sessions.get? n = some session' ∧
      Marks ((s.run b moves).1.workspace session') (s.run b moves).2 spared n kind slot g l := by
  induction moves generalizing s b session with
  | nil => exact ⟨session, hs, hm⟩
  | cons m moves ih =>
      obtain ⟨hends, hgen, hrest⟩ := hl
      obtain ⟨session', hs'⟩ := hk.remains hs hends
      have hle := hgen session session' hs hs' kind slot
      apply ih (hk.make m) hs' hrest (fun hp m' hm' => spares hp m' (List.mem_cons_of_mem m hm'))
      -- Generations never fall, so a slot that is past the mark stays past it.
      rcases hm with hlt | ⟨rfl, hheld, hages⟩
      · exact .inl (Nat.lt_of_lt_of_le hlt hle)
      · obtain ⟨o, ho⟩ := Option.isSome_iff_exists.mp hheld
        rcases hk.stays hs hends hs' hkind ho with ⟨ho', hages'⟩ | hne
        · have hspared := hages'.mono fun hp => spares hp m List.mem_cons_self
          refine .inr ⟨?_, Option.isSome_iff_exists.mpr ⟨o, ho'⟩, hages.trans hspared⟩
          exact (Shelf.agrees _ slot o ho').symm.trans (Shelf.agrees _ slot o ho)
        · exact .inl (Nat.lt_of_le_of_ne hle (Ne.symm hne))

end Service
end SnapshotStore
