import SnapshotStore.Proofs.Session.Shape
import SnapshotStore.Proofs.Session.Work

/-!
What a whole operation does: its context takes a course with one deed, and objects are taken
out and put in. What is put in is either seen in the group of the context or a copy of an
object that was there before.
-/

namespace SnapshotStore

/-- The context is where an object of the kind has to be bound: objects under handles to the
epoch, envelopes to the version that is read. -/
def Context.BoundAt (c : Context) (kind : HandleKind) (bound : Nat) : Prop :=
  match kind with
  | .envelope => ∃ g, c.state = .reading bound g
  | _ => bound = c.epoch

/-- The object is bound where the context is and stands for something there. -/
structure Context.Sees (c : Context) (kind : HandleKind) (o : Held) : Prop where
  bound : c.BoundAt kind o.bound
  seen : ∃ g, c.group = .ok g ∧ (g.sight? o.subject).isSome

theorem Context.Shows.sees {c : Context} {e : Envelope} (h : c.Shows e) (g : Nat) :
    c.Sees .envelope ⟨g, e.version, e.payload.subject⟩ := by
  obtain ⟨group, hstate, hseen⟩ := h
  exact ⟨⟨group, hstate⟩, group, by simp only [Context.group, hstate], hseen⟩

namespace Operation

/-- The deed of an operation that succeeds or fails. Edits are done as far as they go. -/
def deed (operation : Operation) (w : Workspace) (succeeds : Bool) : Deed :=
  match operation with
  | transact t => if succeeds then t.deed else .rest
  | edit e => if w.session.context.isWriting then .edit e else .rest
  | createTable name => if w.session.context.isWriting then .edit (.addTable name) else .rest
  | _ => .rest

theorem deed_eq_retreat {operation : Operation} {w : Workspace} {succeeds : Bool}
    (h : operation.deed w succeeds = .retreat) : operation = .transact .rollbackAndRead := by
  unfold deed at h
  split at h
  next t =>
    split at h
    · cases t <;> simp [Transition.deed] at h ⊢
    · simp at h
  next => split at h <;> simp at h
  next => split at h <;> simp at h
  next => simp at h

/-- The slot of the object that an operation copies: exports copy an object into an envelope,
imports of queries and views copy it from there. A row is looked up anew. -/
def source? : Operation → Option (HandleKind × Nat)
  | enclose kind h _ _ => (Handle.decode? h).map fun k => (Workspace.handleKind kind, k.slot)
  | takeOver .row _ => none
  | takeOver _ h => (Handle.decode? h).map fun k => (.envelope, k.slot)
  | _ => none

/-- What an operation that was planned for a workspace can rely on. -/
def Fits (w : Workspace) : Operation → Prop
  | keep found => ∀ item, found = .ok item →
      ∃ g, w.session.context.group = .ok g ∧ (g.sight? item.subject).isSome
  | replaceQuery h q => ∀ b, w.session.queries.get h = .ok b →
      Denoting.subject q = Denoting.subject b.object
  | replaceView h _ v => ∀ b, w.session.views.get h = .ok b →
      Denoting.subject v = Denoting.subject b.object
  | enclose kind h p _ => ∃ k o, Handle.decode? h = some k ∧
      (w.shelf (Workspace.handleKind kind)).held k.slot = some o ∧ o.subject = p.subject ∧
      o.bound = w.session.context.epoch
  | _ => True

end Operation

namespace Workspace

/-- What may be put in on the way from one workspace to the other. -/
def Admits (w w' : Workspace) (source? : Option (HandleKind × Nat)) (kind : HandleKind)
    (o : Held) : Prop :=
  match source? with
  | none => w'.session.context.Sees kind o
  | some (k, slot) => ∃ p, (w.shelf k).held slot = some p ∧ p.subject = o.subject ∧
      w'.session.context.BoundAt k p.bound ∧ w'.session.context.BoundAt kind o.bound

structure Turns (w : Workspace) (d : Deed) (source? : Option (HandleKind × Nat))
    (w' : Workspace) : Prop where
  course : w.connection.Course d w'.connection
  shelves : ∀ kind, (w.shelf kind).Turns (w.Admits w' source? kind) (w'.shelf kind)
  stocked : w.Stocked → w'.Stocked

/-- The handle names an object of the kind that was put in and stands for the subject. -/
def Issues (w w' : Workspace) (kind : HandleKind) (x : Subject) (raw : UInt64) : Prop :=
  ∃ slot o, raw = (Handle.ofParts kind slot o.generation).encode ∧
    (w.shelf kind).keeps (w'.shelf kind) slot = false ∧
    (w'.shelf kind).held slot = some o ∧ o.subject = x

variable {w w₁ w' : Workspace} {d : Deed} {source? : Option (HandleKind × Nat)}
  {kind : HandleKind} {bound : Nat} {x : Subject} {raw : UInt64} {out : Outcome} {e : Error}

theorem Settles.turns (h : w.Settles w') : w.Turns .rest source? w' :=
  ⟨h.quiet.course, fun kind => (h.shrinks kind).turns, h.stocked⟩

theorem withConnection_shelf (w : Workspace) (c : Connection) (kind : HandleKind) :
    (w.withConnection c).shelf kind = w.shelf kind := by
  cases kind <;> rfl

theorem Stocked.withConnection (h : w.Stocked) (c : Connection) : (w.withConnection c).Stocked :=
  ⟨h.tables, h.rows, h.queries, h.views, h.lists, h.envelopes⟩

theorem Settles.step (h : w.Settles w₁) {c : Connection} (hs : Connection.Step w₁.connection d c) :
    w.Turns d source? (w₁.withConnection c) where
  course := ⟨_, h.quiet, hs⟩
  shelves kind := by
    rw [withConnection_shelf]
    exact (h.shrinks kind).turns
  stocked hw := (h.stocked hw).withConnection c

theorem Turns.puts (source? : Option (HandleKind × Nat)) (h : w.Turns d none w₁)
    (quiet : ∀ kind, (w.shelf kind).Shrinks (w₁.shelf kind))
    (hp : w₁.Puts w' kind bound x raw) (hx : ∀ g, w.Admits w' source? kind ⟨g, bound, x⟩) :
    w.Turns d source? w' := by
  refine ⟨hp.connection ▸ h.course, fun k => ⟨_, quiet k, fun slot => ?_⟩, fun _ => hp.stocked⟩
  obtain ⟨hgen, hheld⟩ := hp.grows k slot
  refine ⟨hgen, hheld.imp_right ?_⟩
  rintro ⟨hn, o, ho, rfl, rfl, rfl⟩
  exact ⟨hn, o, ho, hx o.generation⟩

theorem Settles.puts (h : w.Settles w₁) (source? : Option (HandleKind × Nat))
    (hp : w₁.Puts w' kind bound x raw)
    (hx : ∀ g, w.Admits w' source? kind ⟨g, bound, x⟩) : w.Turns .rest source? w' :=
  Turns.puts source? h.turns h.shrinks hp hx

theorem Puts.issues (hp : w₁.Puts w' kind bound x raw)
    (quiet : (w.shelf kind).Shrinks (w₁.shelf kind)) : w.Issues w' kind x raw := by
  obtain ⟨slot, rfl, hn, hsome⟩ := hp.issued
  obtain ⟨hgen, hheld⟩ := hp.grows kind slot
  obtain ⟨o, ho, hsubject⟩ : ∃ o, (w'.shelf kind).held slot = some o ∧ o.subject = x := by
    rcases hheld with hheld | ⟨-, o, ho, -, -, hsubject⟩
    · simp [hheld, hn] at hsome
    · exact ⟨o, ho, hsubject⟩
  have hgeneration := (w'.shelf kind).agrees slot o ho
  refine ⟨slot, o, by rw [hgeneration, hgen], ?_, ho, hsubject⟩
  rcases quiet slot with ⟨hh, -⟩ | ⟨-, -, hne⟩
  · simp [Shelf.keeps, ← hh, hn]
  · simp [Shelf.keeps, hgen, hne]

end Workspace
end SnapshotStore
