import SnapshotStore.Proofs.Service.Notebook

/-!
Runs of a service: sessions come, go and make calls in any order. The labels in the notebook
hold good all along.
-/

namespace SnapshotStore

theorem Store.unpin_newContextId (s : Store) (v : Version) :
    s.newContextId.2.unpin v = (s.unpin v).newContextId.2 := by
  simp only [newContextId, unpin]
  cases s.pins.get? v with
  | none => rfl
  | some k => rfl

theorem Store.releaseWriter_newContextId (s : Store) (id : ContextId) :
    s.newContextId.2.releaseWriter id = (s.releaseWriter id).newContextId.2 := by
  by_cases h : s.writer? = some id <;> simp [newContextId, releaseWriter, h]

theorem Connection.close_newContextId (s : Store) (c : Context) :
    (Connection.mk s.newContextId.2 c).close = (Connection.mk s c).close.newContextId.2 ∧
      (Connection.mk s c).close.nextContext = s.nextContext := by
  simp only [close]
  cases c.state with
  | idle => exact ⟨rfl, rfl⟩
  | reading v g => exact ⟨s.unpin_newContextId v, s.unpin_nextContext v⟩
  | writing base g => exact ⟨s.releaseWriter_newContextId c.id, s.releaseWriter_nextContext c.id⟩

namespace Service

/-- What can happen next to a service. -/
inductive Move
  | openSession (number : Nat)
  | closeSession (number : Nat)
  | call (number : Nat) (c : Call)

/-- The service after a move. A call of a session that is not there changes nothing. -/
def make (s : Service) : Move → Service
  | .openSession number => s.openSession number
  | .closeSession number => s.closeSession number
  | .call number c => ((s.call number c).map (·.2)).getD s

def workspace (s : Service) (session : Session) : Workspace := ⟨s.database, session⟩

def observe (s : Service) (b : Notebook) : Move → Notebook
  | .call number c =>
    match s.sessions.get? number with
    | some session =>
      let w := s.workspace session
      b.observe number w (Workspace.after (Workspace.call c) w) c
    | none => b
  | _ => b

def run (s : Service) (b : Notebook) : List Move → Service × Notebook
  | [] => (s, b)
  | m :: moves => run (s.make m) (s.observe b m) moves

/-- The sessions as a world, each under its number. -/
def world (s : Service) : World :=
  ⟨s.database.store, fun n => (s.sessions.get? n).map (·.context)⟩

/-- The notebook is true of the service. -/
structure Kept (settings : Settings) (s : Service) (b : Notebook) : Prop where
  sound : World.Sound settings s.world b.chronicle
  stocked : ∀ n session, s.sessions.get? n = some session → (s.workspace session).Stocked
  envelopes : s.database.envelopes.Stocks .envelope
  held : ∀ n session kind slot o, s.sessions.get? n = some session →
    ((s.workspace session).shelf kind).held slot = some o →
      (b.label n kind slot).subject = o.subject ∧
        s.world.Backs b.chronicle n kind o.bound (b.label n kind slot)
  sent : ∀ slot o, s.database.envelopes.shelf.held slot = some o →
    (b.envelopes slot).subject = o.subject ∧
      s.world.Vouches b.chronicle o.bound (b.envelopes slot)

variable {settings : Settings} {s : Service} {b : Notebook} {n : Nat} {session : Session}
  {c : Call} {d : Deed} {w' : Workspace}

theorem world_context? (h : s.sessions.get? n = some session) :
    s.world.context? n = some session.context := by
  simp only [world, h, Option.map_some]

def turned (s : Service) (n : Nat) (w' : Workspace) : Service :=
  ⟨w'.database, s.sessions.insert n w'.session⟩

theorem world_turned (s : Service) (n : Nat) (w' : Workspace) :
    (s.turned n w').world = s.world.set n w'.database.store (some w'.session.context) := by
  simp only [world, turned, World.set, World.mk.injEq, true_and]
  funext m
  rw [NatMap.get?_insert]
  split <;> rfl

theorem shelf_of_ne (session : Session) (d d' : Database) {kind : HandleKind}
    (h : kind ≠ .envelope) :
    (Workspace.mk d session).shelf kind = (Workspace.mk d' session).shelf kind := by
  cases kind <;> first | rfl | exact absurd rfl h

/-- The service after a session has come under a number that is free. -/
def joined (s : Service) (n : Nat) : Service where
  database := { s.database with store := (Connection.new s.database.store).store }
  sessions := s.sessions.insert n (.new (Connection.new s.database.store).context)

theorem closeSession_get? (s : Service) (n : Nat) : (s.closeSession n).sessions.get? n = none := by
  unfold closeSession
  cases hs : s.sessions.get? n with
  | none => exact hs
  | some session => simp [NatMap.get?_erase]

theorem closeSession_get?_ne (s : Service) {m : Nat} (h : n ≠ m) :
    (s.closeSession m).sessions.get? n = s.sessions.get? n := by
  unfold closeSession
  cases s.sessions.get? m with
  | none => rfl
  | some other => exact (NatMap.get?_erase ..).trans (if_neg h)

/-- It makes no difference whether a session is replaced at once or closed first. -/
theorem openSession_eq (s : Service) (n : Nat) :
    s.openSession n = (s.closeSession n).joined n := by
  unfold openSession closeSession
  dsimp only
  cases hs : s.sessions.get? n with
  | none => rfl
  | some session =>
      dsimp only
      obtain ⟨hclose, hnext⟩ := Connection.close_newContextId s.database.store session.context
      simp only [joined, Connection.new, Workspace.connection, hclose]
      simp only [Store.newContextId, hnext]

theorem call_eq (hs : s.sessions.get? n = some session) (c : Call) : s.call n c =
    some (match Workspace.call c (s.workspace session) with
      | .ok out w' => (.ok out, s.turned n w')
      | .error e w' => (.error e, s.turned n w')) := by
  simp only [call, hs, Option.map_some]
  rfl

theorem make_call (hs : s.sessions.get? n = some session) (c : Call) :
    s.make (.call n c) = s.turned n (Workspace.after (Workspace.call c) (s.workspace session)) := by
  simp only [make, call_eq hs, Workspace.after, Option.map_some, Option.getD_some]
  cases Workspace.call c (s.workspace session) <;> rfl

theorem turned_self (hs : s.sessions.get? n = some session) :
    s.turned n (s.workspace session) = s :=
  congrArg (Service.mk s.database) (NatMap.insert_of_get? hs)

theorem session_of_call {result : Except Error Outcome} {s' : Service}
    (hc : s.call n c = some (result, s')) : ∃ session, s.sessions.get? n = some session := by
  cases hs : s.sessions.get? n with
  | none => simp [call, hs] at hc
  | some session => exact ⟨session, rfl⟩

theorem call_eq_error {e : Error} {s' : Service} (hs : s.sessions.get? n = some session)
    (hc : s.call n c = some (.error e, s')) : ∃ w',
      Workspace.call c (s.workspace session) = .error e w' ∧ s' = s.turned n w' := by
  simp only [call_eq hs, Option.some.injEq] at hc
  split at hc
  next => simp at hc
  next e' w' hw =>
    obtain ⟨he, rfl⟩ := Prod.mk.inj hc
    exact ⟨w', Except.error.inj he ▸ hw, rfl⟩

theorem call_eq_ok {out : Outcome} {s' : Service}
    (hs : s.sessions.get? n = some session) (hc : s.call n c = some (.ok out, s')) : ∃ w',
      Workspace.call c (s.workspace session) = .ok out w' ∧ s' = s.turned n w' ∧
      s.make (.call n c) = s' ∧ s'.sessions.get? n = some w'.session := by
  have hmake : s.make (.call n c) = s' := by simp only [make, hc, Option.map_some, Option.getD_some]
  simp only [Service.call, hs, Option.map_some, Option.some.injEq] at hc
  split at hc
  next w' hw =>
    obtain ⟨hout, rfl⟩ := Prod.mk.inj hc
    obtain rfl := Except.ok.inj hout
    exact ⟨w', hw, rfl, hmake, NatMap.get?_insert_self ..⟩
  next => simp at hc

/-- A call that leaves the workspace as it is leaves the service as it is. -/
theorem call_unchanged_of_error {e : Error} (hs : s.sessions.get? n = some session)
    (h : Workspace.call c (s.workspace session) = .error e (s.workspace session)) :
    s.call n c = some (.error e, s) := by
  simp only [call_eq hs, h, turned_self hs]

theorem call_unchanged_of_ok {out : Outcome} (hs : s.sessions.get? n = some session)
    (h : Workspace.call c (s.workspace session) = .ok out (s.workspace session)) :
    s.call n c = some (.ok out, s) := by
  simp only [call_eq hs, h, turned_self hs]

namespace Kept

theorem numbered (h : Kept settings s b) (hs : s.sessions.get? n = some session) (g : Group)
    (hg : session.context.group = .ok g) : g.Numbered := by
  obtain ⟨hvisible, hdated⟩ := h.sound.visible (world_context? hs) hg
  exact hvisible ▸ hdated.numbered

theorem fresh (h : Kept settings s b) (hs : s.sessions.get? n = some session)
    {source? : Option (HandleKind × Nat)}
    (ht : (s.workspace session).Turns d source? w') {kind : HandleKind} {o : Held}
    (ha : (s.workspace session).Admits w' source? kind o) :
    ((b.note n d).fresh n w'.session.context source? o.subject).subject = o.subject ∧
      (s.turned n w').world.Backs (b.note n d).chronicle n kind o.bound
        ((b.note n d).fresh n w'.session.context source? o.subject) := by
  have hc := world_context? hs
  have hworld := world_turned s n w'
  have hc' : (s.turned n w').world.context? n = some w'.session.context := by
    rw [hworld, World.set_context?_self]
  have hsound : World.Sound settings (s.turned n w').world (b.note n d).chronicle := by
    rw [hworld]
    exact h.sound.course hc ht.course
  cases source? with
  | none => exact ⟨rfl, hsound.backs hc' ha⟩
  | some source =>
      obtain ⟨k, slot⟩ := source
      obtain ⟨p, hp, hsubject, hk, hkind⟩ := ha
      obtain ⟨hlabel, hbacks⟩ := h.held n session k slot p hs hp
      have hbacks' := hbacks.course h.sound hc ht.course
      refine ⟨(b.note_subject n d k slot).trans (hlabel.trans hsubject), ?_⟩
      change (s.world.set n w'.database.store (some w'.session.context)).Backs _ _ _ _ _ at hbacks'
      rw [← hworld] at hbacks'
      exact hbacks'.copy hc' hk hkind

theorem turned (h : Kept settings s b) (hs : s.sessions.get? n = some session)
    {source? : Option (HandleKind × Nat)} (ht : (s.workspace session).Turns d source? w') :
    Kept settings (s.turned n w') ((b.note n d).renew n (s.workspace session).shelf w'.shelf
      ((b.note n d).fresh n w'.session.context source?)) := by
  have hc := world_context? hs
  have hworld := world_turned s n w'
  have hstocked := ht.stocked (h.stocked n session hs)
  have hself : ∀ kind slot o, (w'.shelf kind).held slot = some o →
      (((b.note n d).renew n (s.workspace session).shelf w'.shelf
        ((b.note n d).fresh n w'.session.context source?)).label n kind slot).subject = o.subject ∧
      (s.turned n w').world.Backs (b.note n d).chronicle n kind o.bound
        (((b.note n d).renew n (s.workspace session).shelf w'.shelf
          ((b.note n d).fresh n w'.session.context source?)).label n kind slot) := by
    intro kind slot o ho
    rw [Notebook.renew_label]
    have hentered := (ht.shelves kind).entered ho
    -- What stayed keeps its label through the turn; what came in is labelled at its end.
    cases hk : ((s.workspace session).shelf kind).keeps (w'.shelf kind) slot with
    | true =>
        rw [hk, if_pos rfl] at hentered
        rw [Notebook.pick_kept hk, Notebook.note_subject]
        obtain ⟨hsubject, hbacks⟩ := h.held n session kind slot o hs hentered
        refine ⟨hsubject, ?_⟩
        rw [hworld]
        exact hbacks.course h.sound hc ht.course
    | false =>
        rw [hk, if_neg Bool.false_ne_true] at hentered
        rw [Notebook.pick_new hk ho]
        exact h.fresh hs ht hentered
  refine ⟨?_, ?_, hstocked.envelopes, ?_, hself .envelope⟩
  · rw [hworld]
    exact h.sound.course hc ht.course
  · intro m other hm
    simp only [Service.turned, NatMap.get?_insert] at hm
    split at hm
    · obtain rfl := Option.some.inj hm
      exact hstocked
    · exact { h.stocked m other hm with envelopes := hstocked.envelopes }
  · intro m other kind slot o hm ho
    simp only [Service.turned, NatMap.get?_insert] at hm
    split at hm
    next hmn =>
      obtain rfl := Option.some.inj hm
      subst hmn
      exact hself kind slot o ho
    next hmn =>
      by_cases hk : kind = .envelope
      · subst hk
        exact hself .envelope slot o ho
      · -- What others hold and know stays what it is.
        rw [workspace, shelf_of_ne other _ s.database hk] at ho
        obtain ⟨hsubject, hbacks⟩ := h.held m other kind slot o hm ho
        rw [Notebook.label_of_ne _ _ hk] at hsubject hbacks ⊢
        rw [Notebook.renew_labels_ne _ _ _ _ hmn, Notebook.note_labels_ne b d hmn]
        refine ⟨hsubject, ?_⟩
        rw [hworld]
        rw [World.backs_of_ne hk] at hbacks ⊢
        exact hbacks.course_of_ne h.sound hc ht.course hmn

theorem closeSession (h : Kept settings s b) (n : Nat) : Kept settings (s.closeSession n) b := by
  unfold Service.closeSession
  cases hs : s.sessions.get? n with
  | none => exact h
  | some session =>
      dsimp only
      have hc := world_context? hs
      have hstep := World.Step.leave hc
      have hworld : Service.world ⟨{ s.database with
          store := (s.workspace session).connection.close }, s.sessions.erase n⟩ =
          s.world.set n (Connection.mk s.world.store session.context).close none := by
        simp only [world, World.set, workspace, Workspace.connection, World.mk.injEq, true_and]
        funext m
        rw [NatMap.get?_erase]
        split <;> rfl
      have hother : ∀ m other, (s.sessions.erase n).get? m = some other →
          m ≠ n ∧ s.sessions.get? m = some other := by
        intro m other hm
        rw [NatMap.get?_erase] at hm
        split at hm
        · simp at hm
        next hmn => exact ⟨hmn, hm⟩
      refine ⟨?_, ?_, h.envelopes, ?_, ?_⟩
      · exact hworld ▸ h.sound.step hstep
      · intro m other hm
        exact { h.stocked m other (hother m other hm).2 with }
      · intro m other kind slot o hm ho
        obtain ⟨hmn, hm⟩ := hother m other hm
        have hheld : ((s.workspace other).shelf kind).held slot = some o := by
          cases kind <;> exact ho
        obtain ⟨hsubject, hbacks⟩ := h.held m other kind slot o hm hheld
        refine ⟨hsubject, ?_⟩
        rw [workspace] at hworld
        rw [hworld]
        cases kind with
        | envelope => exact World.Vouches.step hbacks h.sound hstep
        | table | row | query | view | linkList =>
            exact World.Honours.turn hbacks h.sound hstep hmn
      · intro slot o ho
        obtain ⟨hsubject, hvouches⟩ := h.sent slot o ho
        refine ⟨hsubject, ?_⟩
        rw [workspace] at hworld
        rw [hworld]
        exact hvouches.step h.sound hstep

theorem joined (h : Kept settings s b) (hn : s.sessions.get? n = none) :
    Kept settings (s.joined n) b := by
  have hstep := World.Step.join (w := s.world) (n := n) (by simp only [world, hn, Option.map_none])
  have hworld : (s.joined n).world = s.world.set n (Connection.new s.world.store).store
      (some (Connection.new s.world.store).context) := by
    simp only [world, Service.joined, World.set, World.mk.injEq, true_and]
    funext m
    rw [NatMap.get?_insert]
    split <;> rfl
  refine ⟨hworld ▸ h.sound.step hstep, ?_, h.envelopes, ?_, ?_⟩
  · intro m other hm
    simp only [Service.joined, NatMap.get?_insert] at hm
    split at hm
    · obtain rfl := Option.some.inj hm
      exact ⟨.empty _, .empty _, .empty _, .empty _, .empty _, h.envelopes⟩
    · exact { h.stocked m other hm with }
  · intro m other kind slot o hm ho
    simp only [Service.joined, NatMap.get?_insert] at hm
    by_cases hk : kind = .envelope
    · subst hk
      obtain ⟨hsubject, hvouches⟩ := h.sent slot o ho
      exact ⟨hsubject, hworld ▸ hvouches.step h.sound hstep⟩
    · split at hm
      · -- A new session holds nothing.
        obtain rfl := Option.some.inj hm
        cases kind <;> first | exact absurd rfl hk | simp [workspace, Workspace.shelf,
          Session.new, Arena.shelf, Arena.live?, Arena.empty] at ho
      next hmn =>
        rw [workspace, shelf_of_ne other _ s.database hk] at ho
        obtain ⟨hsubject, hbacks⟩ := h.held m other kind slot o hm ho
        rw [World.backs_of_ne hk] at hbacks ⊢
        exact ⟨hsubject, hworld ▸ hbacks.turn h.sound hstep hmn⟩
  · intro slot o ho
    obtain ⟨hsubject, hvouches⟩ := h.sent slot o ho
    exact ⟨hsubject, hworld ▸ hvouches.step h.sound hstep⟩

theorem openSession (h : Kept settings s b) (n : Nat) : Kept settings (s.openSession n) b := by
  rw [openSession_eq]
  exact (h.closeSession n).joined (closeSession_get? s n)

/-- A call of a session turns its workspace, whether it succeeds or not. -/
theorem turns_after (h : Kept settings s b) (hs : s.sessions.get? n = some session) (c : Call) :
    (s.workspace session).Turns ((s.workspace session).deed c) ((s.workspace session).source? c)
      (Workspace.after (Workspace.call c) (s.workspace session)) := by
  have hn := fun g => h.numbered hs g
  cases hc : Workspace.call c (s.workspace session) with
  | ok out w' => exact Workspace.after_ok hc ▸ Workspace.call_ok (h.stocked n session hs) hn hc
  | error e w' => exact Workspace.after_error hc ▸ Workspace.call_error hn hc

theorem call_turns (h : Kept settings s b) (hs : s.sessions.get? n = some session) (c : Call) :
    ∃ w', (s.workspace session).Turns ((s.workspace session).deed c)
        ((s.workspace session).source? c) w' ∧
      s.make (.call n c) = s.turned n w' ∧
      s.observe b (.call n c) = b.observe n (s.workspace session) w' c :=
  ⟨_, h.turns_after hs c, make_call hs c, by simp only [observe, hs]⟩

theorem call (h : Kept settings s b) (n : Nat) (c : Call) :
    Kept settings (s.make (.call n c)) (s.observe b (.call n c)) := by
  cases hs : s.sessions.get? n with
  | none =>
      simp only [Service.make, Service.call, Service.observe, hs]
      exact h
  | some session =>
      obtain ⟨w', hturns, hmake, hobserve⟩ := h.call_turns hs c
      rw [hmake, hobserve]
      exact h.turned hs hturns

theorem make (h : Kept settings s b) (m : Move) : Kept settings (s.make m) (s.observe b m) := by
  cases m with
  | openSession n => exact h.openSession n
  | closeSession n => exact h.closeSession n
  | call n c => exact h.call n c

theorem run (h : Kept settings s b) (moves : List Move) :
    Kept settings (s.run b moves).1 (s.run b moves).2 := by
  induction moves generalizing s b with
  | nil => exact h
  | cons m moves ih => exact ih (h.make m)

end Kept

theorem kept_openNew {id : String} (h : openNew id settings = .ok s) :
    Kept settings s .opened := by
  obtain ⟨database, hd, rfl⟩ := map_eq_ok.mp h
  obtain ⟨store, hstore, rfl⟩ := map_eq_ok.mp hd
  have hworld : Service.world ⟨⟨store, .empty .envelope⟩, ∅⟩ = ⟨store, fun _ => none⟩ := rfl
  refine ⟨?_, by simp, .empty _, by simp, ?_⟩
  · exact hworld ▸ (World.Reachable.opened hstore).sound
  · intro slot o ho
    simp [Arena.shelf, Arena.live?, Arena.empty] at ho

/-- The services that runs lead to, each with the notebook of its observer. -/
def Reachable (settings : Settings) (s : Service) (b : Notebook) : Prop :=
  ∃ id s₀ moves, openNew id settings = .ok s₀ ∧ s₀.run .opened moves = (s, b)

theorem Reachable.kept (h : Reachable settings s b) : Kept settings s b := by
  obtain ⟨id, s₀, moves, ho, hr⟩ := h
  have hk := (kept_openNew ho).run moves
  rwa [hr] at hk

/-- What is true of every new service and stays true with every move is true of all services. -/
theorem Reachable.induct {I : Service → Notebook → Prop} (h : Reachable settings s b)
    (opened : ∀ id s, openNew id settings = .ok s → I s .opened)
    (step : ∀ s b m, Kept settings s b → I s b → I (s.make m) (s.observe b m)) : I s b := by
  obtain ⟨id, s₀, moves, ho, hr⟩ := h
  have hrun : ∀ s b, Kept settings s b → I s b → I (s.run b moves).1 (s.run b moves).2 := by
    clear hr
    induction moves with
    | nil => exact fun _ _ _ hi => hi
    | cons m moves ih => exact fun s b hk hi => ih _ _ (hk.make m) (step s b m hk hi)
  have hi := hrun s₀ .opened (kept_openNew ho) (opened id s₀ ho)
  rwa [hr] at hi

/-- A service with default settings that nobody has used yet. -/
def unused : Service where
  database := ⟨⟨"store", {}, NatMap.empty.insert 1 .empty, ∅, ∅, 1, none, 1, {}⟩,
    .empty .envelope⟩
  sessions := ∅

theorem unused_reachable (moves : List Move) :
    Reachable {} (unused.run .opened moves).1 (unused.run .opened moves).2 :=
  ⟨"store", unused, moves, rfl, rfl⟩

end Service
end SnapshotStore
