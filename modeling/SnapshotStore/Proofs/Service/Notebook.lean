import SnapshotStore.Proofs.Label.Issue
import SnapshotStore.Proofs.Session.Calls
import SnapshotStore.Service

/-!
Notebooks: what an observer of a service writes down. Beside the chronicle of its database
the observer keeps a label for every object that a session holds and for every envelope,
written when the object is made and copied when it is handed over.
-/

namespace SnapshotStore

structure Notebook where
  chronicle : Chronicle
  labels : Nat → HandleKind → Nat → Label
  envelopes : Nat → Label

namespace Notebook

def opened : Notebook :=
  ⟨.opened, fun _ _ _ => ⟨.table 0, 0, none, 0, false⟩, fun _ => ⟨.table 0, 0, none, 0, false⟩⟩

/-- The label of an object that a session has to do with. -/
def label (b : Notebook) (n : Nat) (kind : HandleKind) (slot : Nat) : Label :=
  match kind with
  | .envelope => b.envelopes slot
  | kind => b.labels n kind slot

def note (b : Notebook) (n : Nat) (d : Deed) : Notebook where
  chronicle := b.chronicle.note n d
  labels m kind slot :=
    if m = n then (b.labels m kind slot).after (b.chronicle.drafts n).since d
    else b.labels m kind slot
  envelopes := b.envelopes

/-- The label of a slot after the shelf of a kind has turned. -/
def pick (b : Notebook) (n : Nat) (p q : HandleKind → Shelf) (fresh : Subject → Label)
    (kind : HandleKind) (slot : Nat) : Label :=
  if (p kind).keeps (q kind) slot then b.label n kind slot
  else ((q kind).held slot).elim (b.label n kind slot) fun o => fresh o.subject

def renew (b : Notebook) (n : Nat) (p q : HandleKind → Shelf) (fresh : Subject → Label) :
    Notebook where
  chronicle := b.chronicle
  labels m kind slot := if m = n then b.pick n p q fresh kind slot else b.labels m kind slot
  envelopes := b.pick n p q fresh .envelope

/-- The label of what a call puts in: that of its source, if it copies, and else that of what
the session sees now. -/
def fresh (b : Notebook) (n : Nat) (c : Context) (source? : Option (HandleKind × Nat))
    (x : Subject) : Label :=
  match source? with
  | some (kind, slot) => b.label n kind slot
  | none => .of (b.chronicle.visible n c) b.chronicle.now x

def observe (b : Notebook) (n : Nat) (w w' : Workspace) (c : Call) : Notebook :=
  let b := b.note n (w.deed c)
  b.renew n w.shelf w'.shelf (b.fresh n w'.session.context (w.source? c))

variable {b : Notebook} {n m : Nat} {p q : HandleKind → Shelf} {f : Subject → Label}
  {kind : HandleKind} {slot : Nat} {o : Held}

theorem label_of_ne (b : Notebook) (n : Nat) (h : kind ≠ .envelope) :
    b.label n kind slot = b.labels n kind slot := by
  cases kind <;> first | rfl | exact absurd rfl h

theorem note_subject (b : Notebook) (n : Nat) (d : Deed) (kind : HandleKind) (slot : Nat) :
    ((b.note n d).label n kind slot).subject = (b.label n kind slot).subject := by
  cases kind with
  | envelope => rfl
  | table | row | query | view | linkList => simp only [label, note, if_true, Label.after_subject]

theorem note_label (b : Notebook) (n : Nat) (kind : HandleKind) (slot : Nat) {d : Deed}
    (hd : d ≠ .retreat) : (b.note n d).label n kind slot = b.label n kind slot := by
  cases kind with
  | envelope => rfl
  | table | row | query | view | linkList =>
      simp only [label, note, if_true, Label.after_of_ne _ _ hd]

theorem note_labels_ne (b : Notebook) (d : Deed) (h : m ≠ n) :
    (b.note n d).labels m kind slot = b.labels m kind slot := if_neg h

theorem renew_label (b : Notebook) (n : Nat) (p q : HandleKind → Shelf) (f : Subject → Label)
    (kind : HandleKind) (slot : Nat) :
    (b.renew n p q f).label n kind slot = b.pick n p q f kind slot := by
  cases kind with
  | envelope => rfl
  | table | row | query | view | linkList => exact if_pos rfl

theorem renew_labels_ne (b : Notebook) (p q : HandleKind → Shelf) (f : Subject → Label)
    (h : m ≠ n) : (b.renew n p q f).labels m kind slot = b.labels m kind slot := if_neg h

theorem pick_kept (h : (p kind).keeps (q kind) slot) :
    b.pick n p q f kind slot = b.label n kind slot := if_pos h

theorem pick_new (h : (p kind).keeps (q kind) slot = false) (ho : (q kind).held slot = some o) :
    b.pick n p q f kind slot = f o.subject := by
  simp [pick, h, ho]

end Notebook

namespace World
variable {settings : Settings} {w w' : World} {ch : Chronicle} {n : Nat} {kind k : HandleKind}
  {bound bound' : Nat} {l : Label} {c : Context} {d : Deed} {c' : Connection}

/-- The label holds good for an object of the kind that a session has to do with. -/
def Backs (w : World) (ch : Chronicle) (n : Nat) (kind : HandleKind) (bound : Nat) (l : Label) :
    Prop :=
  match kind with
  | .envelope => w.Vouches ch bound l
  | _ => w.Honours ch n bound l

theorem backs_of_ne (h : kind ≠ .envelope) :
    w.Backs ch n kind bound l ↔ w.Honours ch n bound l := by
  cases kind <;> first | exact Iff.rfl | exact absurd rfl h

theorem Backs.course {b : Notebook} (hw : Sound settings w b.chronicle)
    (hc : w.context? n = some c) (hs : Connection.Course ⟨w.store, c⟩ d c') {slot : Nat}
    (h : w.Backs b.chronicle n kind bound (b.label n kind slot)) :
    (w.set n c'.store (some c'.context)).Backs (b.note n d).chronicle n kind bound
      ((b.note n d).label n kind slot) := by
  cases kind with
  | envelope => exact Vouches.course h hw hc hs
  | table | row | query | view | linkList =>
      have h' := Honours.course h hw hc hs
      simpa only [Backs, Notebook.label, Notebook.note, if_true] using h'

/-- A reader can copy labels between its own objects and envelopes of its version. -/
theorem Backs.copy (h : w.Backs ch n k bound l) (hc : w.context? n = some c)
    (hk : c.BoundAt k bound) (hkind : c.BoundAt kind bound') : w.Backs ch n kind bound' l := by
  have hhonours : w.Honours ch n c.epoch l := by
    by_cases hke : k = .envelope
    · subst hke
      obtain ⟨g', hg⟩ := hk
      exact Vouches.honours h hc hg
    · cases k <;> first | exact absurd rfl hke | exact hk ▸ h
  by_cases he : kind = .envelope
  · subst he
    obtain ⟨g', hg⟩ := hkind
    exact hhonours.vouches hc hg
  · cases kind <;> first | exact absurd rfl he | exact hkind.symm ▸ hhonours

theorem Sound.backs (hw : Sound settings w ch) (hc : w.context? n = some c) {o : Held}
    (h : c.Sees kind o) :
    w.Backs ch n kind o.bound (.of (ch.visible n c) ch.now o.subject) := by
  obtain ⟨hbound, g, hg, hseen⟩ := h
  have hhonours := hw.honours hc hg hseen
  cases kind with
  | envelope =>
      obtain ⟨g', hreading⟩ := hbound
      exact hhonours.vouches hc hreading
  | table | row | query | view | linkList => exact hbound.symm ▸ hhonours

end World
end SnapshotStore
