import SnapshotStore.Proofs.Connection.Quiet
import SnapshotStore.Proofs.Shelf
import SnapshotStore.Proofs.Taking
import SnapshotStore.Session.Operation

/-!
What the parts of an operation do to the shelves of a workspace and to its connection. Most
of them settle: they run quietly and take objects out, and put nothing in.
-/

namespace SnapshotStore

def Item.kind : Item → HandleKind
  | table _ => .table
  | row _ => .row
  | query _ => .query
  | view _ => .view
  | list _ => .linkList

def Item.subject : Item → Subject
  | table t => Denoting.subject t
  | row l => Denoting.subject l
  | query q => Denoting.subject q
  | view v => Denoting.subject v
  | list l => Denoting.subject l

namespace Workspace

def shelf (w : Workspace) : HandleKind → Shelf
  | .table => w.session.tables.shelf
  | .row => w.session.rows.shelf
  | .query => w.session.queries.shelf
  | .view => w.session.views.shelf
  | .linkList => w.session.lists.shelf
  | .envelope => w.database.envelopes.shelf

structure Stocked (w : Workspace) : Prop where
  tables : w.session.tables.Stocks .table
  rows : w.session.rows.Stocks .row
  queries : w.session.queries.Stocks .query
  views : w.session.views.Stocks .view
  lists : w.session.lists.Stocks .linkList
  envelopes : w.database.envelopes.Stocks .envelope

def after {α : Type} (a : Work α) (w : Workspace) : Workspace :=
  match a w with
  | .ok _ w' | .error _ w' => w'

/-- The context ran quietly, objects may have been taken out, and none were put in. -/
structure Settles (w w' : Workspace) : Prop where
  quiet : Connection.Quiet w.connection w'.connection
  shrinks : ∀ kind, (w.shelf kind).Shrinks (w'.shelf kind)
  stocked : w.Stocked → w'.Stocked

def Settling {α : Type} (a : Work α) : Prop := ∀ w : Workspace, w.Settles (after a w)

variable {α β : Type} {a : Work α} {w w' w'' : Workspace} {x : α} {e : Error}

theorem after_ok (h : a w = .ok x w') : after a w = w' := by simp [after, h]

theorem after_error (h : a w = .error e w') : after a w = w' := by simp [after, h]

theorem after_bind_ok {f : α → Work β} (h : a w = .ok x w') :
    after (a >>= f) w = after (f x) w' := by
  simp [after, Bind.bind, EStateM.bind, h]

theorem after_bind_error {f : α → Work β} (h : a w = .error e w') :
    after (a >>= f) w = w' := by
  simp [after, Bind.bind, EStateM.bind, h]

namespace Settles

theorem refl (w : Workspace) : w.Settles w := ⟨.refl _, fun _ => .refl _, id⟩

theorem trans (h : w.Settles w') (h' : w'.Settles w'') : w.Settles w'' :=
  ⟨h.quiet.trans h'.quiet, fun kind => (h.shrinks kind).trans (h'.shrinks kind),
    fun hw => h'.stocked (h.stocked hw)⟩

theorem bind {f : α → Work β} (h : w.Settles (after a w)) (hf : ∀ x, Settling (f x)) :
    w.Settles (after (a >>= f) w) := by
  cases hx : a w with
  | ok x w' =>
      rw [after_bind_ok hx]
      exact (after_ok hx ▸ h).trans (hf x w')
  | error e w' =>
      rw [after_bind_error hx]
      exact after_error hx ▸ h

theorem withConnection (w : Workspace) {c : Connection} (h : Connection.Quiet w.connection c) :
    w.Settles (w.withConnection c) := by
  refine ⟨h, ?_, ?_⟩
  · intro kind
    cases kind <;> exact .refl _
  · intro hw
    exact ⟨hw.tables, hw.rows, hw.queries, hw.views, hw.lists, hw.envelopes⟩

theorem on (kind : HandleKind) (connection : w'.connection = w.connection)
    (shrinks : (w.shelf kind).Shrinks (w'.shelf kind))
    (stocked : w.Stocked → w'.Stocked)
    (others : ∀ k, k ≠ kind → w'.shelf k = w.shelf k := by
      intro k hk
      cases k <;> first | rfl | exact absurd rfl hk) :
    w.Settles w' := by
  refine ⟨connection ▸ .refl _, fun k => ?_, stocked⟩
  by_cases hk : k = kind
  · exact hk ▸ shrinks
  · rw [others k hk]
    exact .refl _

theorem envelopes {a : Arena Envelope} (shrinks : w.database.envelopes.shelf.Shrinks a.shelf)
    (stocks : w.database.envelopes.Stocks .envelope → a.Stocks .envelope) :
    w.Settles { w with database := { w.database with envelopes := a } } :=
  .on .envelope rfl shrinks fun hw => { hw with envelopes := stocks hw.envelopes }

end Settles

namespace Settling

theorem ok (h : Settling a) (hx : a w = .ok x w') : w.Settles w' := after_ok hx ▸ h w

theorem error (h : Settling a) (he : a w = .error e w') : w.Settles w' := after_error he ▸ h w

theorem pure (x : α) : Settling (pure x : Work α) := Settles.refl

theorem bind {f : α → Work β} (h : Settling a) (hf : ∀ x, Settling (f x)) :
    Settling (a >>= f) := fun w => (h w).bind hf

theorem pass (r : Except Error α) : Settling (pass r) := by
  intro w
  cases r <;> exact .refl w

theorem forward : Settling forward := fun w =>
  .withConnection w (Connection.Step.count w.connection).quiet

theorem act {f : Action α} (h : Connection.IsQuiet f) : Settling (act f) := by
  intro w
  have hq := h w.connection
  cases hx : f w.connection with
  | ok x c =>
      rw [Connection.after_ok hx] at hq
      have ha : Workspace.act f w = .ok x (w.withConnection c) := by simp only [Workspace.act, hx]
      rw [after_ok ha]
      exact .withConnection w hq
  | error e c =>
      rw [Connection.after_error hx] at hq
      have ha : Workspace.act f w = .error e (w.withConnection c) := by
        simp only [Workspace.act, hx]
      rw [after_error ha]
      exact .withConnection w hq

theorem attempt {f : Workspace → Except Error (α × Workspace)}
    (h : ∀ w x w', f w = .ok (x, w') → w.Settles w') : Settling (attempt f) := by
  intro w
  cases hf : f w with
  | ok r =>
      obtain ⟨x, w'⟩ := r
      have ha : Workspace.attempt f w = .ok x w' := by simp only [Workspace.attempt, hf]
      rw [after_ok ha]
      exact h w x w' hf
  | error e =>
      have ha : Workspace.attempt f w = .error e w := by simp only [Workspace.attempt, hf]
      rw [after_error ha]
      exact .refl w

end Settling

theorem release_settling (kind : HandleKind) (h : UInt64) : Settling (release kind h) := by
  refine .attempt fun w x w' hr => ?_
  cases kind with
  | table =>
      obtain ⟨⟨o, a⟩, ha, he⟩ := map_eq_ok.mp hr
      obtain ⟨-, rfl⟩ := Prod.mk.inj he
      exact .on .table rfl (Arena.remove_shrinks ha) fun hw =>
        { hw with tables := hw.tables.remove ha }
  | row =>
      obtain ⟨⟨o, a⟩, ha, he⟩ := map_eq_ok.mp hr
      obtain ⟨-, rfl⟩ := Prod.mk.inj he
      exact .on .row rfl (Arena.remove_shrinks ha) fun hw =>
        { hw with rows := hw.rows.remove ha }
  | query =>
      obtain ⟨⟨o, a⟩, ha, he⟩ := map_eq_ok.mp hr
      obtain ⟨-, rfl⟩ := Prod.mk.inj he
      exact .on .query rfl (Arena.remove_shrinks ha) fun hw =>
        { hw with queries := hw.queries.remove ha }
  | view =>
      obtain ⟨⟨o, a⟩, ha, he⟩ := map_eq_ok.mp hr
      obtain ⟨-, rfl⟩ := Prod.mk.inj he
      exact .on .view rfl (Arena.remove_shrinks ha) fun hw =>
        { hw with views := hw.views.remove ha }
  | linkList =>
      obtain ⟨⟨o, a⟩, ha, he⟩ := map_eq_ok.mp hr
      obtain ⟨-, rfl⟩ := Prod.mk.inj he
      exact .on .linkList rfl (Arena.remove_shrinks ha) fun hw =>
        { hw with lists := hw.lists.remove ha }
  | envelope =>
      obtain ⟨⟨o, a⟩, ha, he⟩ := map_eq_ok.mp hr
      obtain ⟨-, rfl⟩ := Prod.mk.inj he
      exact .envelopes (Arena.remove_shrinks ha) (·.remove ha)

theorem release_context {kind : HandleKind} {h : UInt64} {u : Unit}
    (hr : release kind h w = .ok u w') : w'.session.context = w.session.context := by
  unfold release attempt at hr
  split at hr
  next x w₁ hf =>
    obtain ⟨-, rfl⟩ := EStateM.Result.ok.inj hr
    cases kind with
    | table | row | query | view | linkList | envelope =>
        obtain ⟨_, -, he⟩ := map_eq_ok.mp hf
        obtain ⟨-, rfl⟩ := Prod.mk.inj he
        rfl
  next => simp at hr

/-! Envelopes -/

theorem take_eq_ok {d d' : Database} {raw : UInt64} {check : Envelope → Except Error Unit}
    {e : Envelope} (h : d.take raw check = .ok (e, d')) :
    ∃ a, d.envelopes.remove raw = .ok (e, a) ∧ d' = { d with envelopes := a } := by
  simp only [Database.take, bind_eq_ok, pure_eq_ok] at h
  obtain ⟨-, -, -, -, ⟨e', a⟩, ha, he⟩ := h
  obtain ⟨rfl, rfl⟩ := Prod.mk.inj he
  exact ⟨a, ha, rfl⟩

theorem takeEnvelope_settling (kind : PayloadKind) (h : UInt64) :
    Settling (takeEnvelope kind h) := by
  refine .attempt fun w x w' hr => ?_
  obtain ⟨⟨e, d⟩, hd, he⟩ := map_eq_ok.mp hr
  obtain ⟨-, rfl⟩ := Prod.mk.inj he
  obtain ⟨a, ha, rfl⟩ := take_eq_ok hd
  exact .envelopes (Arena.remove_shrinks ha) (·.remove ha)

theorem takeEnvelopes_settling (hs : List UInt64) : Settling (takeEnvelopes hs) := by
  refine .attempt fun w x w' hr => ?_
  obtain ⟨⟨es, d⟩, hd, he⟩ := map_eq_ok.mp hr
  obtain ⟨-, rfl⟩ := Prod.mk.inj he
  obtain ⟨-, a, ha, rfl⟩ := Database.takeAll_eq_ok.mp hd
  have hloses := (Database.removeAll_loses ha).1
  exact .envelopes hloses.shrinks hloses.stocks

/-! Changing a query or a view in place -/

theorem setQuery_settles (w : Workspace) (h : UInt64) (q : Query)
    (same : ∀ b, w.session.queries.get h = .ok b →
      Denoting.subject q = Denoting.subject b.object) : w.Settles (after (setQuery h q) w) := by
  cases hm : w.session.queries.modify h fun b => { b with object := q } with
  | error e =>
      have ha : setQuery h q w = .error e w := by simp only [setQuery, attempt, hm, Except.map]
      rw [after_error ha]
      exact .refl w
  | ok a =>
      rw [after_ok (x := ()) (by simp only [setQuery, attempt, hm, Except.map]; rfl)]
      refine .on .query rfl ?_ fun hw => { hw with queries := hw.queries.modify hm }
      change w.session.queries.shelf.Shrinks a.shelf
      rw [Arena.modify_shelf hm fun b hl => ⟨rfl, same b hl⟩]
      exact .refl _

theorem setView_settles (w : Workspace) (h : UInt64) (v : View)
    (same : ∀ b, w.session.views.get h = .ok b →
      Denoting.subject v = Denoting.subject b.object) : w.Settles (after (setView h v) w) := by
  cases hm : w.session.views.modify h fun b => { b with object := v } with
  | error e =>
      have ha : setView h v w = .error e w := by simp only [setView, attempt, hm, Except.map]
      rw [after_error ha]
      exact .refl w
  | ok a =>
      rw [after_ok (x := ()) (by simp only [setView, attempt, hm, Except.map]; rfl)]
      refine .on .view rfl ?_ fun hw => { hw with views := hw.views.modify hm }
      change w.session.views.shelf.Shrinks a.shelf
      rw [Arena.modify_shelf hm fun b hl => ⟨rfl, same b hl⟩]
      exact .refl _

/-! Putting objects in -/

/-- One object was put in, under a handle to an empty slot. -/
structure Puts (w w' : Workspace) (kind : HandleKind) (bound : Nat) (x : Subject)
    (raw : UInt64) : Prop where
  connection : w'.connection = w.connection
  stocked : w'.Stocked
  grows : ∀ k, (w.shelf k).Grows (fun o => k = kind ∧ o.bound = bound ∧ o.subject = x) (w'.shelf k)
  issued : ∃ slot, raw = (Handle.ofParts kind slot ((w.shelf kind).generation slot)).encode ∧
    (w.shelf kind).held slot = none ∧ ((w'.shelf kind).held slot).isSome

theorem Puts.on {α : Type} [Tracked α] {kind : HandleKind} {a : Arena α} (x : α)
    (stocks : a.Stocks kind) (before : w.shelf kind = a.shelf)
    (after : w'.shelf kind = (a.insert x).2.shelf) (connection : w'.connection = w.connection)
    (stocked : w'.Stocked)
    (others : ∀ k, k ≠ kind → w'.shelf k = w.shelf k := by
      intro k hk
      cases k <;> first | rfl | exact absurd rfl hk) :
    w.Puts w' kind (Tracked.bound x) (Tracked.subject x) (a.insert x).1 := by
  refine ⟨connection, stocked, ?_, a.vacancy, ?_, ?_, ?_⟩
  · intro k
    by_cases hk : k = kind
    · subst hk
      rw [before, after]
      exact Arena.insert_grows stocks.tidy fun _ => ⟨rfl, rfl, rfl⟩
    · rw [others k hk]
      exact .refl _ _
  · rw [before, ← stocks.kind]
    exact Arena.insert_handle a x
  · rw [before]
    simp [Arena.shelf, stocks.tidy.vacancy]
  · rw [after]
    simp [Arena.shelf, Arena.insert_live? stocks.tidy]

theorem keep_puts (hw : w.Stocked) (item : Item) : ∃ raw w', keep item w = .ok raw w' ∧
    w.Puts w' item.kind w.session.context.epoch item.subject raw := by
  cases item with
  | table t =>
      exact ⟨_, _, rfl, .on (Bound.mk t w.session.context.epoch) hw.tables rfl rfl rfl
        { hw with tables := hw.tables.insert _ }⟩
  | row l =>
      exact ⟨_, _, rfl, .on (Bound.mk l w.session.context.epoch) hw.rows rfl rfl rfl
        { hw with rows := hw.rows.insert _ }⟩
  | query q =>
      exact ⟨_, _, rfl, .on (Bound.mk q w.session.context.epoch) hw.queries rfl rfl rfl
        { hw with queries := hw.queries.insert _ }⟩
  | view v =>
      exact ⟨_, _, rfl, .on (Bound.mk v w.session.context.epoch) hw.views rfl rfl rfl
        { hw with views := hw.views.insert _ }⟩
  | list l =>
      exact ⟨_, _, rfl, .on (Bound.mk l w.session.context.epoch) hw.lists rfl rfl rfl
        { hw with lists := hw.lists.insert _ }⟩

theorem register_puts (hw : w.Stocked) (e : Envelope) : ∃ raw w', register e w = .ok raw w' ∧
    w.Puts w' .envelope e.version e.payload.subject raw :=
  ⟨_, _, rfl, .on e hw.envelopes rfl rfl rfl { hw with envelopes := hw.envelopes.insert _ }⟩

end Workspace
end SnapshotStore
