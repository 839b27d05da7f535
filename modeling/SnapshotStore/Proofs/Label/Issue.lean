import SnapshotStore.Proofs.Label

/-!
How labels are written and read: a context labels what it sees, an envelope takes its label
along, and a label tells what a context finds under its number.
-/

namespace SnapshotStore

/-- What a label tells of a subject that is found under its number: all of it, or just that it
is newer than the label. -/
def Label.Tells (l : Label) (E : Edition) (i : Sight) : Prop :=
  if l.lost then l.issued ≤ E.births l.subject
  else E.births l.subject = l.birth ∧ l.sight? = some i

/-- What a context of an author sees. -/
def Chronicle.visible (ch : Chronicle) (n : Nat) (c : Context) : Edition :=
  match c.state with
  | .idle => .empty
  | .reading v _ => (Version.nth? ch.versions v).getD .empty
  | .writing _ _ => (ch.drafts n).edition

namespace World
variable {settings : Settings} {w : World} {ch : Chronicle} {n : Nat} {c : Context} {l : Label}
  {g : Group} {v : Version} {x : Subject} {i : Sight}

theorem Sound.visible (hw : Sound settings w ch) (hc : w.context? n = some c)
    (hg : c.group = .ok g) :
    (ch.visible n c).group = g ∧ (ch.visible n c).Dated ch.now := by
  have hs := hw.stands n c hc
  cases hstate : c.state with
  | idle => simp [Context.group, hstate] at hg
  | reading v g' =>
      simp only [Context.group, hstate, Except.ok.injEq] at hg
      simp only [Context.Stands, hstate] at hs
      obtain ⟨E, hE, hEg⟩ := hs
      simp only [Chronicle.visible, hstate, hE, Option.getD_some]
      refine ⟨hEg.trans hg, hw.chronicle.dated E ?_⟩
      rw [Version.nth?_eq_getElem? _ (Version.nth?_bounds hE).1] at hE
      exact List.mem_of_getElem? hE
  | writing base g' =>
      simp only [Context.group, hstate, Except.ok.injEq] at hg
      simp only [Context.Stands, hstate] at hs
      obtain ⟨-, -, hd, -, -, hdated⟩ := hs
      simp only [Chronicle.visible, hstate]
      exact ⟨hd.trans hg, hdated⟩

theorem Sound.accounts (hw : Sound settings w ch) (hc : w.context? n = some c)
    (hg : c.group = .ok g) (hx : (g.sight? x).isSome) :
    w.Accounts ch n c (.of (ch.visible n c) ch.now x) := by
  refine ⟨fun _ => ?_, fun hl => by simp [Label.of] at hl⟩
  obtain ⟨hvisible, hdated⟩ := hw.visible hc hg
  have hknown := Label.knownTo_of hdated (hvisible ▸ hx)
  have hs := hw.stands n c hc
  unfold Context.Recalls
  cases hstate : c.state with
  | idle => trivial
  | reading v g' =>
      simp only [Context.Stands, hstate] at hs
      obtain ⟨E, hE, -⟩ := hs
      simp only [Chronicle.visible, hstate, hE, Option.getD_some] at hknown ⊢
      exact ⟨E, rfl, hknown⟩
  | writing base g' =>
      simp only [Context.Stands, hstate] at hs
      obtain ⟨-, -, -, hd, -, -⟩ := hs
      simp only [Chronicle.visible, hstate] at hknown hvisible ⊢
      refine ⟨hknown, ?_⟩
      obtain ⟨i, hi⟩ := Option.isSome_iff_exists.mp (hvisible ▸ hx)
      by_cases hm : ch.latest.group.Minted x
      · -- Something of the version that the write started from.
        have hseen := hd.leads.group.seen hm hi
        have hbirth : (ch.drafts n).edition.births x = ch.latest.births x :=
          hd.leads.births x i hm hi
        have hbefore := hd.before.births x i hseen
        refine .inl ⟨⟨hm, fun j hj => ?_⟩, Nat.lt_of_le_of_lt (Nat.le_of_eq hbirth) hbefore⟩
        have hij := Option.some.inj (hseen.symm.trans hj)
        exact ⟨hbirth.symm, hij ▸ hi⟩
      · exact .inr ⟨hm, hd.since x i hm hi⟩

theorem Sound.timely (hw : Sound settings w ch) (hc : w.context? n = some c)
    (hg : c.group = .ok g) (hx : (g.sight? x).isSome) :
    (Label.of (ch.visible n c) ch.now x).Timely ch.now := by
  obtain ⟨hvisible, hdated⟩ := hw.visible hc hg
  obtain ⟨i, hi⟩ := Option.isSome_iff_exists.mp (hvisible ▸ hx)
  exact ⟨hdated.births x i hi, Nat.le_refl _⟩

theorem Sound.honours (hw : Sound settings w ch) (hc : w.context? n = some c)
    (hg : c.group = .ok g) (hx : (g.sight? x).isSome) :
    w.Honours ch n c.epoch (.of (ch.visible n c) ch.now x) where
  timely := hw.timely hc hg hx
  epoch _ hd := Option.some.inj (hc.symm.trans hd) ▸ Nat.le_refl _
  accounts _ hd _ _ := Option.some.inj (hc.symm.trans hd) ▸ hw.accounts hc hg hx

theorem Honours.vouches (h : w.Honours ch n c.epoch l) (hc : w.context? n = some c)
    (reading : c.state = .reading v g) : w.Vouches ch v l := by
  have ha := h.accounts c hc rfl (by simp [Context.isInTransaction, reading,
    TransactionState.version?])
  refine ⟨h.timely, fun hl => ?_, ha.lost⟩
  have hk := ha.kept hl
  simpa only [Context.Recalls, reading] using hk

theorem Vouches.honours (h : w.Vouches ch v l) (hc : w.context? n = some c)
    (reading : c.state = .reading v g) : w.Honours ch n c.epoch l := by
  refine ⟨h.timely, fun d hd => Option.some.inj (hc.symm.trans hd) ▸ Nat.le_refl _, ?_⟩
  intro d hd _ _
  obtain rfl := Option.some.inj (hc.symm.trans hd)
  refine ⟨fun hl => ?_, h.lost⟩
  simpa only [Context.Recalls, reading] using h.kept hl

/-- What is found under the number on a label that is not lost is the subject of the label;
what is found under the number on a lost one is newer than the label. -/
theorem Accounts.found (h : w.Accounts ch n c l) (hw : Sound settings w ch)
    (hc : w.context? n = some c) (hg : c.group = .ok g) (hi : g.sight? l.subject = some i) :
    l.Tells (ch.visible n c) i := by
  unfold Label.Tells
  obtain ⟨hvisible, -⟩ := hw.visible hc hg
  have hs := hw.stands n c hc
  have hseen : (ch.visible n c).group.sight? l.subject = some i := hvisible ▸ hi
  cases hl : l.lost with
  | false =>
      have hk := h.kept hl
      cases hstate : c.state with
      | idle => simp [Context.group, hstate] at hg
      | reading v g' =>
          simp only [Context.Recalls, hstate] at hk
          obtain ⟨E, hE, hknown⟩ := hk
          simp only [Chronicle.visible, hstate, hE, Option.getD_some] at hseen ⊢
          exact hknown.same i hseen
      | writing base g' =>
          simp only [Context.Recalls, hstate] at hk
          simp only [Chronicle.visible, hstate] at hseen ⊢
          exact hk.1.same i hseen
  | true =>
      have hlost := h.lost hl
      cases hstate : c.state with
      | idle => simp [Context.group, hstate] at hg
      | reading v g' =>
          simp only [Context.Stands, hstate] at hs
          obtain ⟨E, hE, -⟩ := hs
          simp only [Chronicle.visible, hstate, hE, Option.getD_some] at hseen ⊢
          rw [Version.nth?_eq_getElem? _ (Version.nth?_bounds hE).1] at hE
          exact hlost.versions E (List.mem_of_getElem? hE) i hseen
      | writing base g' =>
          simp only [Chronicle.visible, hstate] at hseen ⊢
          exact hlost.drafts n c hc ((Connection.isWriting_iff c).mpr ⟨_, _, hstate⟩) i hseen

end World
end SnapshotStore
