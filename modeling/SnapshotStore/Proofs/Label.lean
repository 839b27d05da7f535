import SnapshotStore.Proofs.Connection.Quiet
import SnapshotStore.Proofs.World

/-!
Labels: what an observer writes on a handle when it is issued. As long as the transaction
goes on in which the handle was issued, its number stands for the subject on the label, with
one exception: if the subject came to be in an open write and the write is rolled back while
its reader goes on, the label is lost, and the number can only come to stand for something
newer than the label.
-/

namespace SnapshotStore

structure Label where
  subject : Subject
  /-- When the subject came to be. -/
  birth : Nat
  /-- What could be told of the subject. -/
  sight? : Option Sight
  /-- When the label was written. -/
  issued : Nat
  /-- Whether the subject was given up together with the write in which it came to be. -/
  lost : Bool

namespace Label

def of (E : Edition) (now : Nat) (x : Subject) : Label :=
  ⟨x, E.births x, E.group.sight? x, now, false⟩

/-- The label after a deed of its holder, whose last write began at the given time. -/
def after (l : Label) (since : Nat) : Deed → Label
  | .retreat => { l with lost := l.lost || decide (since ≤ l.birth) }
  | _ => l

/-- The number on the label stands for the subject of the label or for nothing. -/
structure KnownTo (l : Label) (E : Edition) : Prop where
  minted : E.group.Minted l.subject
  same : ∀ i, E.group.sight? l.subject = some i → E.births l.subject = l.birth ∧ l.sight? = some i

/-- The number on the label stands for something newer than the label or for nothing. -/
def ForeignTo (l : Label) (E : Edition) : Prop :=
  ∀ i, E.group.sight? l.subject = some i → l.issued ≤ E.births l.subject

/-- The label was written after its subject came to be. -/
structure Timely (l : Label) (now : Nat) : Prop where
  birth : l.birth < l.issued
  issued : l.issued ≤ now

variable {l : Label} {E E' : Edition} {now : Nat}

theorem KnownTo.leads (h : l.KnownTo E) (hl : E.Leads E') : l.KnownTo E' where
  minted := hl.group.minted h.minted
  same i hi := by
    obtain ⟨hb, hs⟩ := h.same i (hl.group.seen h.minted hi)
    exact ⟨(hl.births _ i h.minted hi).trans hb, hs⟩

theorem knownTo_of (h : E.Dated now) {x : Subject} (hx : (E.group.sight? x).isSome) :
    (Label.of E now x).KnownTo E := by
  obtain ⟨i, hi⟩ := Option.isSome_iff_exists.mp hx
  exact ⟨h.numbered.minted hi, fun _ hj => ⟨rfl, hj⟩⟩

theorem ForeignTo.edit (h : l.ForeignTo E) (hnow : l.issued ≤ now) (e : Edit) :
    l.ForeignTo (E.edit now e) := by
  intro i hi
  simp only [Edition.edit]
  split
  next hx =>
    obtain ⟨j, hj⟩ := Option.isSome_iff_exists.mp hx
    exact h j hj
  next => exact hnow

theorem Timely.mono {later : Nat} (h : l.Timely now) (hle : now ≤ later) : l.Timely later :=
  ⟨h.birth, Nat.le_trans h.issued hle⟩

@[simp] theorem after_subject (l : Label) (since : Nat) (d : Deed) :
    (l.after since d).subject = l.subject := by
  cases d <;> rfl

theorem timely_after (l : Label) (since : Nat) (d : Deed) :
    (l.after since d).Timely now ↔ l.Timely now := by
  cases d with
  | retreat => exact ⟨fun h => ⟨h.birth, h.issued⟩, fun h => ⟨h.birth, h.issued⟩⟩
  | rest | draft | publish | edit e => exact Iff.rfl

theorem after_of_lost (l : Label) (since : Nat) (d : Deed) (h : l.lost = true) :
    l.after since d = l := by
  cases d with
  | retreat =>
      cases l
      cases h
      rfl
  | rest | draft | publish | edit e => rfl

theorem after_of_ne (l : Label) (since : Nat) {d : Deed} (h : d ≠ .retreat) :
    l.after since d = l := by
  cases d with
  | retreat => exact absurd rfl h
  | rest | draft | publish | edit e => rfl

end Label

/-- What the context sees has the subject of the label or nothing in its place. While the
context writes, either so has the version it started from, or the subject came to be since. -/
def Context.Recalls (c : Context) (ch : Chronicle) (d : Draft) (l : Label) : Prop :=
  match c.state with
  | .idle => True
  | .reading v _ => ∃ E, Version.nth? ch.versions v = some E ∧ l.KnownTo E
  | .writing _ _ => l.KnownTo d.edition ∧
      (l.KnownTo ch.latest ∧ l.birth < d.since ∨
        ¬ch.latest.group.Minted l.subject ∧ d.since ≤ l.birth)

namespace World

/-- Nobody can see the subject of the label any more. -/
structure Lost (w : World) (ch : Chronicle) (l : Label) : Prop where
  versions : ∀ E ∈ ch.versions, l.ForeignTo E
  drafts : ∀ n c, w.context? n = some c → c.isWriting → l.ForeignTo (ch.drafts n).edition

/-- The label is true for the context of an author. -/
structure Accounts (w : World) (ch : Chronicle) (n : Nat) (c : Context) (l : Label) : Prop where
  kept : l.lost = false → c.Recalls ch (ch.drafts n) l
  lost : l.lost = true → w.Lost ch l

/-- A label on an object that is bound to an epoch of an author's context. -/
structure Honours (w : World) (ch : Chronicle) (n bound : Nat) (l : Label) : Prop where
  timely : l.Timely ch.now
  epoch : ∀ c, w.context? n = some c → bound ≤ c.epoch
  accounts : ∀ c, w.context? n = some c → bound = c.epoch → c.isInTransaction →
    w.Accounts ch n c l

/-- A label on an envelope that was exported at a version. -/
structure Vouches (w : World) (ch : Chronicle) (v : Nat) (l : Label) : Prop where
  timely : l.Timely ch.now
  kept : l.lost = false → ∃ E, Version.nth? ch.versions v = some E ∧ l.KnownTo E
  lost : l.lost = true → w.Lost ch l

variable {settings : Settings} {w : World} {ch : Chronicle} {n : Nat} {c : Context} {l : Label}
  {d : Deed} {c' : Connection} {bound : Nat}

/-! Lost labels -/

namespace Lost

theorem latest (h : w.Lost ch l) (hch : ch.Sound) : l.ForeignTo ch.latest := by
  have hl := hch.latest
  rw [Version.nth?_eq_getElem? _ (Version.nth?_bounds hl).1] at hl
  exact h.versions _ (List.mem_of_getElem? hl)

theorem set (h : w.Lost ch l) {s : Store} {ch' : Chronicle} {c' : Context}
    (hv : ∀ E ∈ ch'.versions, l.ForeignTo E) (hd : ∀ m, m ≠ n → ch'.drafts m = ch.drafts m)
    (self : c'.isWriting → l.ForeignTo (ch'.drafts n).edition) :
    (w.set n s (some c')).Lost ch' l := by
  refine ⟨hv, ?_⟩
  intro m e he hw
  simp only [World.set] at he
  split at he
  next hm =>
    obtain rfl := Option.some.inj he
    exact hm ▸ self hw
  next hm => exact hd m hm ▸ h.drafts m e he hw

theorem act (h : w.Lost ch l) (hch : ch.Sound) (hnow : l.issued ≤ ch.now)
    (hc : w.context? n = some c) (hs : Connection.Step ⟨w.store, c⟩ d c') :
    (w.set n c'.store (some c'.context)).Lost (ch.note n d) l := by
  have hdrafts : ∀ m, m ≠ n → (ch.note n d).drafts m = ch.drafts m :=
    fun m hm => ch.note_drafts_ne d hm
  have hself := h.drafts n c hc
  cases hs with
  | stay | count => exact h.set h.versions hdrafts hself
  | beginRead | endRead | advance | abandon | rollbackAndRead =>
      exact h.set h.versions hdrafts (by simp [Context.isWriting, Context.enterRead,
        Context.newEpoch, Context.enterIdle])
  | beginWrite | promote =>
      refine h.set h.versions hdrafts fun _ => ?_
      simp only [Chronicle.note, Chronicle.withDraft_self]
      exact h.latest hch
  | edit e writing =>
      refine h.set h.versions hdrafts fun _ => ?_
      simp only [Chronicle.note, Chronicle.withDraft_self]
      exact (hself ((Connection.isWriting_iff c).mpr ⟨_, _, writing⟩)).edit hnow e
  | commit writing | commitAndRead writing =>
      refine h.set ?_ hdrafts (by simp [Context.isWriting, Context.enterRead,
        Context.enterIdle])
      intro E hE
      rcases List.mem_append.mp hE with hE | hE
      · exact h.versions E hE
      · rw [List.mem_singleton.mp hE]
        exact hself ((Connection.isWriting_iff c).mpr ⟨_, _, writing⟩)

theorem join (h : w.Lost ch l) (n : Nat) (s : Store) (id : ContextId) :
    (w.set n s (some (.new id))).Lost ch l :=
  h.set h.versions (fun _ _ => rfl) (by simp [Context.isWriting, Context.new])

theorem leave (h : w.Lost ch l) (n : Nat) (s : Store) : (w.set n s none).Lost ch l := by
  refine ⟨h.versions, ?_⟩
  intro m e he hw
  simp only [World.set] at he
  split at he
  · simp at he
  · exact h.drafts m e he hw

theorem step (h : w.Lost ch l) (hch : ch.Sound) (hnow : l.issued ≤ ch.now) {w' : World}
    (hs : Step w n d w') : w'.Lost (ch.note n d) l := by
  cases hs with
  | act live step => exact h.act hch hnow live step
  | join => exact h.join n _ _
  | leave => exact h.leave n _
  | compact => exact ⟨h.versions, h.drafts⟩

/-- A subject that came to be in a write is lost when the write is given up. -/
theorem of_retreat (hw : Sound settings w ch) (hc : w.context? n = some c) {base : Version}
    {g : Group} (writing : c.state = .writing base g) {s : Store} {c' : Context}
    (reading : c'.isWriting = false) (hx : ¬ch.latest.group.Minted l.subject) :
    (w.set n s (some c')).Lost ch l := by
  refine ⟨?_, ?_⟩
  · -- A version that had the subject would have handed its number on to the latest one.
    intro E hE i hi
    obtain ⟨k, hk, rfl⟩ := List.mem_iff_getElem.mp hE
    have hv : Version.nth? ch.versions (k + 1) = some ch.versions[k] := by
      rw [Version.nth?_succ, List.getElem?_eq_getElem hk]
    have hl := hw.chronicle.leads (Nat.succ_le_of_lt hk) hv hw.chronicle.latest
    exact absurd (hl.group.minted ((hw.chronicle.dated _ hE).numbered.minted hi)) hx
  · -- Nobody else can have an open write.
    intro m e he hwriting
    simp only [World.set] at he
    split at he
    · obtain rfl := Option.some.inj he
      simp [reading] at hwriting
    next hm =>
      have hcw := (Connection.isWriting_iff c).mpr ⟨_, _, writing⟩
      exact absurd (hw.writer_unique hc he hcw hwriting).symm hm

end Lost

/-! Labels of the author of a step -/

/-- A context in a transaction of the same epoch was in a transaction before. -/
theorem epoch_of_step {s : Store} (hs : Connection.Step ⟨s, c⟩ d c') :
    c.epoch ≤ c'.context.epoch ∧
      (c'.context.epoch = c.epoch → c'.context.isInTransaction → c.isInTransaction) := by
  cases hs with
  | stay | count => exact ⟨Nat.le_refl _, fun _ h => h⟩
  | beginRead | endRead | beginWrite | commit | abandon =>
      exact ⟨Nat.le_succ _, fun h => absurd h (Nat.succ_ne_self _)⟩
  | advance reading | promote reading =>
      exact ⟨Nat.le_refl _, fun _ _ => by simp [Context.isInTransaction, reading,
        TransactionState.version?]⟩
  | edit e writing | commitAndRead writing | rollbackAndRead writing =>
      exact ⟨Nat.le_refl _, fun _ _ => by simp [Context.isInTransaction, writing,
        TransactionState.version?]⟩

/-- A label stays true through a step of its holder, or is lost by it. -/
theorem Accounts.act (h : w.Accounts ch n c l) (hw : Sound settings w ch) (ht : l.Timely ch.now)
    (hc : w.context? n = some c) (hs : Connection.Step ⟨w.store, c⟩ d c')
    (he : c'.context.epoch = c.epoch) :
    (w.set n c'.store (some c'.context)).Accounts (ch.note n d) n c'.context
      (l.after (ch.drafts n).since d) := by
  cases hl : l.lost with
  | true =>
      rw [l.after_of_lost _ d hl]
      exact ⟨fun hf => by simp [hl] at hf, fun _ => (h.lost hl).act hw.chronicle ht.issued hc hs⟩
  | false =>
      have hk := h.kept hl
      have hstands := hw.stands n c hc
      cases hs with
      | stay | count => exact ⟨fun _ => hk, fun ht => by simp [Label.after, hl] at ht⟩
      | beginRead | endRead | beginWrite | commit | abandon =>
          exact absurd he (Nat.succ_ne_self _)
      | advance reading later pin =>
          refine ⟨fun _ => ?_, fun ht => by simp [Label.after, hl] at ht⟩
          simp only [Context.Recalls, reading] at hk
          obtain ⟨E, hE, hknown⟩ := hk
          obtain ⟨F, hF, -⟩ :=
            Chronicle.edition_of_group (hw.store.snapshot (Store.pin_eq_ok pin).2.1)
          exact ⟨F, hF, hknown.leads (hw.chronicle.leads (Nat.le_of_lt later) hE hF)⟩
      | promote reading =>
          refine ⟨fun _ => ?_, fun ht => by simp [Label.after, hl] at ht⟩
          simp only [Context.Recalls, reading] at hk
          obtain ⟨E, hE, hknown⟩ := hk
          have hlatest := hknown.leads
            (hw.chronicle.leads (Version.nth?_bounds hE).2 hE hw.chronicle.latest)
          simp only [Context.Recalls, Context.enterWrite, Chronicle.note, Label.after,
            Chronicle.withDraft_self]
          exact ⟨hlatest.leads (ch.latest.revise_leads _),
            .inl ⟨hlatest, Nat.lt_of_lt_of_le ht.birth ht.issued⟩⟩
      | edit e writing =>
          refine ⟨fun _ => ?_, fun ht => by simp [Label.after, hl] at ht⟩
          simp only [Context.Recalls, writing] at hk
          simp only [Context.Recalls, Chronicle.note, Label.after, Chronicle.withDraft_self]
          exact ⟨hk.1.leads ((ch.drafts n).edition.edit_leads ch.now e), hk.2⟩
      | commitAndRead writing commit =>
          refine ⟨fun _ => ?_, fun ht => by simp [Label.after, hl] at ht⟩
          simp only [Context.Recalls, writing] at hk
          simp only [Context.Stands, writing] at hstands
          obtain ⟨-, -, rfl, -⟩ := Store.commit_eq_ok commit
          obtain ⟨-, rfl, -⟩ := hstands
          exact ⟨_, by rw [Chronicle.note, Version.nth?_concat, if_pos rfl], hk.1⟩
      | rollbackAndRead writing pin =>
          simp only [Context.Recalls, writing] at hk
          simp only [Context.Stands, writing] at hstands
          obtain ⟨-, rfl, -⟩ := hstands
          rcases hk.2 with ⟨hlatest, hbirth⟩ | ⟨hx, hbirth⟩
          · -- It was there before the write, so the base has it.
            have hkeep : l.after (ch.drafts n).since .retreat = l := by
              simp [Label.after, Nat.not_le_of_lt hbirth]
            rw [hkeep]
            exact ⟨fun _ => ⟨_, hw.chronicle.latest, hlatest⟩, fun ht => by simp [hl] at ht⟩
          · -- It came to be in the write, so its number is free again.
            refine ⟨fun hf => by simp [Label.after, hbirth] at hf, fun _ => ?_⟩
            exact Lost.of_retreat hw hc writing rfl hx

theorem Honours.act (h : w.Honours ch n bound l) (hw : Sound settings w ch)
    (hc : w.context? n = some c) (hs : Connection.Step ⟨w.store, c⟩ d c') :
    (w.set n c'.store (some c'.context)).Honours (ch.note n d) n bound
      (l.after (ch.drafts n).since d) := by
  obtain ⟨hle, htransaction⟩ := epoch_of_step hs
  have hbound := h.epoch c hc
  refine ⟨?_, ?_, ?_⟩
  · rw [Label.timely_after]
    exact h.timely.mono (ch.note_now_le n d)
  · intro e he
    rw [set_context?_self, Option.some.injEq] at he
    exact he ▸ Nat.le_trans hbound hle
  · intro e he hb ht
    rw [set_context?_self, Option.some.injEq] at he
    subst he
    have hepoch : c'.context.epoch = c.epoch := by omega
    exact (h.accounts c hc (hb.trans hepoch) (htransaction hepoch ht)).act hw h.timely hc hs hepoch

/-! Labels of others -/

/-- A reader goes on seeing what it saw when others take their turn; a writer too, since
nobody else can commit. -/
theorem Accounts.turn {m : Nat} {e : Context} (h : w.Accounts ch m e l)
    (hw : Sound settings w ch) (hnow : l.issued ≤ ch.now) (he : w.context? m = some e)
    {w' : World} (hs : Step w n d w') (hm : m ≠ n) : w'.Accounts (ch.note n d) m e l := by
  refine ⟨fun hl => ?_, fun hl => (h.lost hl).step hw.chronicle hnow hs⟩
  have hk := h.kept hl
  unfold Context.Recalls at hk ⊢
  rw [ch.note_drafts_ne d hm]
  cases hstate : e.state with
  | idle => trivial
  | reading v g =>
      simp only [hstate] at hk
      obtain ⟨E, hE, hknown⟩ := hk
      exact ⟨E, Chronicle.note_version n d hE, hknown⟩
  | writing base g =>
      simp only [hstate] at hk
      have hwriting : e.isWriting = true := (Connection.isWriting_iff e).mpr ⟨_, _, hstate⟩
      have hversions := hs.versions_of_writing hw he hwriting hm ch
      simpa only [Chronicle.latest, hversions] using hk

theorem Honours.turn {m : Nat} (h : w.Honours ch m bound l) (hw : Sound settings w ch)
    {w' : World} (hs : Step w n d w') (hm : m ≠ n) : w'.Honours (ch.note n d) m bound l := by
  refine ⟨h.timely.mono (ch.note_now_le n d), ?_, ?_⟩
  · intro e he
    exact h.epoch e (hs.context?_ne hm ▸ he)
  · intro e he hb ht
    rw [hs.context?_ne hm] at he
    exact (h.accounts e he hb ht).turn hw h.timely.issued he hs hm

theorem Vouches.step {v : Nat} (h : w.Vouches ch v l) (hw : Sound settings w ch)
    {w' : World} (hs : Step w n d w') : w'.Vouches (ch.note n d) v l where
  timely := h.timely.mono (ch.note_now_le n d)
  kept hl := by
    obtain ⟨E, hE, hknown⟩ := h.kept hl
    exact ⟨E, Chronicle.note_version n d hE, hknown⟩
  lost hl := (h.lost hl).step hw.chronicle h.timely.issued hs

/-! Labels through a course -/

/-- What holds of a sound world and is kept by steps without a deed is kept by a quiet run. -/
theorem Sound.quiet {P : World → Prop} (hw : Sound settings w ch) (h : P w)
    (hc : w.context? n = some c) (hq : Connection.Quiet ⟨w.store, c⟩ c')
    (step : ∀ {w : World} {c : Context} {c' : Connection}, Sound settings w ch → P w →
      w.context? n = some c → Connection.Step ⟨w.store, c⟩ .rest c' →
      P (w.set n c'.store (some c'.context))) :
    Sound settings (w.set n c'.store (some c'.context)) ch ∧
      P (w.set n c'.store (some c'.context)) := by
  induction hq with
  | refl =>
      rw [set_context w hc]
      exact ⟨hw, h⟩
  | @tail c₁ c₂ _ hs ih =>
      have hself := set_context?_self w n c₁.store (some c₁.context)
      obtain ⟨hw', h'⟩ := ih
      have hw'' := hw'.act hself hs
      have h'' := step hw' h' hself hs
      rw [set_set] at hw'' h''
      exact ⟨hw'', h''⟩

theorem Sound.course (hw : Sound settings w ch) (hc : w.context? n = some c)
    (h : Connection.Course ⟨w.store, c⟩ d c') :
    Sound settings (w.set n c'.store (some c'.context)) (ch.note n d) := by
  obtain ⟨c₁, hq, hs⟩ := h
  obtain ⟨hw₁, -⟩ := hw.quiet (P := fun _ => True) trivial hc hq fun _ _ _ _ => trivial
  have hw₂ := hw₁.act (set_context?_self w n _ _) hs
  rwa [set_set] at hw₂

theorem Honours.course (h : w.Honours ch n bound l) (hw : Sound settings w ch)
    (hc : w.context? n = some c) (hs : Connection.Course ⟨w.store, c⟩ d c') :
    (w.set n c'.store (some c'.context)).Honours (ch.note n d) n bound
      (l.after (ch.drafts n).since d) := by
  obtain ⟨c₁, hq, hs⟩ := hs
  obtain ⟨hw₁, h₁⟩ := hw.quiet (P := fun w => w.Honours ch n bound l) h hc hq
    fun hw h hc hs => h.act hw hc hs
  have h₂ := h₁.act hw₁ (set_context?_self w n _ _) hs
  rwa [set_set] at h₂

theorem Honours.course_of_ne {m : Nat} (h : w.Honours ch m bound l) (hw : Sound settings w ch)
    (hc : w.context? n = some c) (hs : Connection.Course ⟨w.store, c⟩ d c') (hm : m ≠ n) :
    (w.set n c'.store (some c'.context)).Honours (ch.note n d) m bound l := by
  obtain ⟨c₁, hq, hs⟩ := hs
  obtain ⟨hw₁, h₁⟩ := hw.quiet (P := fun w => w.Honours ch m bound l) h hc hq
    fun hw h hc hs => h.turn hw (.act hc hs) hm
  have h₂ := h₁.turn hw₁ (.act (set_context?_self w n _ _) hs) hm
  rwa [set_set] at h₂

theorem Vouches.course {v : Nat} (h : w.Vouches ch v l) (hw : Sound settings w ch)
    (hc : w.context? n = some c) (hs : Connection.Course ⟨w.store, c⟩ d c') :
    (w.set n c'.store (some c'.context)).Vouches (ch.note n d) v l := by
  obtain ⟨c₁, hq, hs⟩ := hs
  obtain ⟨hw₁, h₁⟩ := hw.quiet (P := fun w => w.Vouches ch v l) h hc hq
    fun hw h hc hs => h.step hw (.act hc hs)
  have h₂ := h₁.step hw₁ (.act (set_context?_self w n _ _) hs)
  rwa [set_set] at h₂

end World
end SnapshotStore
