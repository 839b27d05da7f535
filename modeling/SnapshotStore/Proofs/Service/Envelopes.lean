import SnapshotStore.Proofs.Service.Run
import SnapshotStore.Proofs.Session.Deliveries

/-!
Envelopes between sessions. A book lists every handle that was issued for an envelope and every
envelope that was taken, over all calls of all sessions. As long as nothing wraps in the
registry, an envelope is taken once at most, stays as it was registered until then and is
refused from then on.
-/

namespace SnapshotStore

/-- What went through a registry: the handles that were issued, each with what stood under it
once its call was through, and the handles whose envelopes calls have taken. -/
structure Postbook where
  sent : List (UInt64 × Except Error Envelope)
  taken : List UInt64

namespace Postbook

def empty : Postbook := ⟨[], []⟩

def handles (p : Postbook) : List UInt64 := p.sent.map (·.1)

/-- The book after a call that took and issued envelopes and left the registry behind. -/
def enter (p : Postbook) (taken sent : List UInt64) (a : Arena Envelope) : Postbook :=
  ⟨p.sent ++ sent.map fun raw => (raw, a.get raw), p.taken ++ taken⟩

/-- The book is true of the registry. -/
structure Tallies (p : Postbook) (a : Arena Envelope) : Prop where
  stocks : a.Stocks .envelope
  accounts : a.Accounts
  room : a.slots.length ≤ 0x100000000
  issuedOnce : p.handles.Nodup
  takenOnce : p.taken.Nodup
  takenIssued : ∀ raw ∈ p.taken, raw ∈ p.handles
  /-- An envelope stays as it was registered until it is taken. -/
  kept : ∀ raw x, (raw, x) ∈ p.sent → ∃ e, x = .ok e ∧ (raw ∉ p.taken → a.get raw = .ok e)
  past : ∀ raw ∈ p.taken, a.Past raw
  /-- No envelope is registered but under a handle that was issued. -/
  listed : ∀ raw e, a.get raw = .ok e → raw ∈ p.handles
  count : a.size + p.taken.length = p.sent.length

variable {p : Postbook} {a a' : Arena Envelope} {taken given : List UInt64}

theorem empty_tallies : empty.Tallies (.empty .envelope) where
  stocks := .empty .envelope
  accounts := Arena.empty_accounts .envelope
  room := Nat.zero_le _
  issuedOnce := .nil
  takenOnce := .nil
  takenIssued := by simp [empty]
  kept := by simp [empty]
  past := by simp [empty]
  listed raw e h := by
    obtain ⟨k, -, hlive⟩ := Arena.get_eq_ok.mp h
    simp [Arena.live?, Arena.empty] at hlive
  count := rfl

theorem handles_enter : (p.enter taken given a').handles = p.handles ++ given := by
  simp [handles, enter, Function.comp_def]

namespace Tallies

/-- A handle that is issued is in no book yet. -/
theorem unlisted (h : p.Tallies a) {raw : UInt64} (habsent : ∀ e, a.get raw ≠ .ok e)
    (hpast : ¬a.Past raw) : raw ∉ p.handles := by
  intro hraw
  obtain ⟨⟨raw, x⟩, hx, rfl⟩ := List.mem_map.mp hraw
  obtain ⟨e, -, hkept⟩ := h.kept raw x hx
  exact habsent e (hkept fun htaken => hpast (h.past raw htaken))

theorem room_after (h : p.Tallies a) (ht : a.Trades taken given a') (few : a'.size ≤ 0x100000000) :
    a'.slots.length ≤ 0x100000000 :=
  Nat.le_trans (ht.length_le_max h.stocks h.accounts) (Nat.max_le.mpr ⟨h.room, few⟩)

/-- One step: some envelopes are taken and others are registered. -/
theorem trade (h : p.Tallies a) (ht : a.Trades taken given a')
    (generations : ∀ slot, a.generation slot ≤ a'.generation slot)
    (few : a'.size ≤ 0x100000000) : (p.enter taken given a').Tallies a' := by
  have hstocks := ht.stocks h.stocks
  have room := h.room_after ht few
  obtain ⟨htakenNodup, htakes⟩ := ht.takes h.stocks generations
  obtain ⟨hgivenNodup, hgives⟩ := ht.gives room h.stocks generations
  have hkind : a'.kind = a.kind := hstocks.kind.trans h.stocks.kind.symm
  have hlisted : ∀ raw ∈ taken, raw ∈ p.handles := by
    intro raw hraw
    obtain ⟨⟨e, he⟩, -⟩ := htakes raw hraw
    exact h.listed raw e he
  have hnew : ∀ raw ∈ given, raw ∉ p.handles := by
    intro raw hraw
    obtain ⟨-, habsent, hpast⟩ := hgives raw hraw
    exact h.unlisted habsent hpast
  have hfresh : ∀ raw ∈ taken, raw ∉ p.taken := by
    intro raw hraw htaken
    obtain ⟨⟨e, he⟩, -⟩ := htakes raw hraw
    exact (h.past raw htaken).get_ne he
  refine ⟨hstocks, ht.accounts h.stocks h.accounts, room, ?_, ?_, ?_, ?_, ?_, ?_, ?_⟩
  · rw [handles_enter]
    refine List.nodup_append.mpr ⟨h.issuedOnce, hgivenNodup, fun raw hold raw' hgiven he => ?_⟩
    exact hnew raw' hgiven (he ▸ hold)
  · refine List.nodup_append.mpr ⟨h.takenOnce, htakenNodup, fun raw hold raw' htaken he => ?_⟩
    exact hfresh raw' htaken (he ▸ hold)
  · rw [handles_enter]
    intro raw hraw
    rcases List.mem_append.mp hraw with hraw | hraw
    · exact List.mem_append_left _ (h.takenIssued raw hraw)
    · exact List.mem_append_left _ (hlisted raw hraw)
  · intro raw x hx
    rcases List.mem_append.mp hx with hx | hx
    · obtain ⟨e, rfl, hkept⟩ := h.kept raw x hx
      refine ⟨e, rfl, fun hraw => ?_⟩
      obtain ⟨hold, hnow⟩ := not_or.mp fun h => hraw (List.mem_append.mpr h)
      exact ht.keeps room h.stocks hnow (hkept hold)
    · obtain ⟨raw, hgiven, he⟩ := List.mem_map.mp hx
      obtain ⟨rfl, rfl⟩ := Prod.mk.inj he
      obtain ⟨⟨e, he⟩, -⟩ := hgives raw hgiven
      exact ⟨e, he, fun _ => he⟩
  · intro raw hraw
    rcases List.mem_append.mp hraw with hraw | hraw
    · exact (h.past raw hraw).mono hkind generations
    · exact (htakes raw hraw).2
  · rw [handles_enter]
    intro raw e he
    rcases ht.only room h.stocks he with hgiven | ⟨-, hold⟩
    · exact List.mem_append_right _ hgiven
    · exact List.mem_append_left _ (h.listed raw e hold)
  · have hsize := ht.size h.stocks
    have hcount := h.count
    simp only [enter, List.length_append, List.length_map]
    omega

end Tallies
end Postbook

namespace Service
variable {settings : Settings} {s : Service} {p : Postbook} {n : Nat} {session : Session}
  {c : Call} {raw : UInt64}

/-- The book after a move, kept by what calls answer and by what they leave registered. -/
def enter (s : Service) (p : Postbook) (m : Move) : Postbook :=
  match m with
  | .call number c =>
    match s.sessions.get? number with
    | some session =>
      let w := s.workspace session
      p.enter (w.took c) (w.sent c) (s.make m).database.envelopes
    | none => p
  | _ => p

def tally (s : Service) (p : Postbook) : List Move → Service × Postbook
  | [] => (s, p)
  | m :: moves => tally (s.make m) (s.enter p m) moves

/-- Nothing wraps in the registry during the moves: the generation of a slot never falls, and
there are never more envelopes than there are slot numbers. -/
def Unwrapped (s : Service) : List Move → Prop
  | [] => True
  | m :: moves =>
    (∀ slot, s.database.envelopes.generation slot ≤
      (s.make m).database.envelopes.generation slot) ∧
    (s.make m).database.pendingEnvelopes ≤ 0x100000000 ∧ Unwrapped (s.make m) moves

/-- The services that runs lead to in which nothing wraps, each with the book of the run. -/
def Posted (settings : Settings) (s : Service) (p : Postbook) : Prop :=
  ∃ id s₀ moves, openNew id settings = .ok s₀ ∧ s₀.Unwrapped moves ∧
    s₀.tally .empty moves = (s, p)

theorem closeSession_envelopes (s : Service) (n : Nat) :
    (s.closeSession n).database.envelopes = s.database.envelopes := by
  unfold closeSession
  split <;> rfl

theorem openSession_envelopes (s : Service) (n : Nat) :
    (s.openSession n).database.envelopes = s.database.envelopes := by
  rw [openSession_eq]
  exact s.closeSession_envelopes n

theorem make_call_database (hs : s.sessions.get? n = some session) :
    (s.make (.call n c)).database =
      (Workspace.after (Workspace.call c) (s.workspace session)).database := by
  simp only [make, Service.call, hs, Option.map_some, Option.getD_some, Workspace.after, workspace]
  cases Workspace.call c ⟨s.database, session⟩ <;> rfl

theorem make_call_none (hs : s.sessions.get? n = none) : s.make (.call n c) = s := by
  simp only [make, Service.call, hs, Option.map_none, Option.getD_none]

theorem room_after_call (h : p.Tallies s.database.envelopes)
    (hs : s.sessions.get? n = some session) (hu : s.Unwrapped [.call n c]) :
    (Workspace.after (Workspace.call c) (s.workspace session)).database.envelopes.slots.length ≤
      0x100000000 := by
  have few := hu.2.1
  rw [make_call_database hs] at few
  obtain ⟨taken, htrades, -⟩ := (s.workspace session).call_trades c
  exact h.room_after htrades few

/-- A call of a session trades the envelopes that it takes for those that it sends. -/
theorem call_trades (h : p.Tallies s.database.envelopes) (hs : s.sessions.get? n = some session)
    (hu : s.Unwrapped [.call n c]) :
    s.database.envelopes.Trades ((s.workspace session).took c) ((s.workspace session).sent c)
        (s.make (.call n c)).database.envelopes ∧
      ((s.workspace session).took c = c.named ∨ (s.workspace session).took c = [] ∧
        ∃ e w', Workspace.call c (s.workspace session) = .error e w') := by
  have generations := hu.1
  rw [make_call_database hs] at generations ⊢
  exact Workspace.took_trades (w := s.workspace session) h.stocks generations
    (room_after_call h hs hu)

theorem tallies_make (h : p.Tallies s.database.envelopes) (m : Move) (hu : s.Unwrapped [m]) :
    (s.enter p m).Tallies (s.make m).database.envelopes := by
  cases m with
  | openSession n => exact s.openSession_envelopes n ▸ h
  | closeSession n => exact s.closeSession_envelopes n ▸ h
  | call n c =>
      cases hs : s.sessions.get? n with
      | none =>
          rw [make_call_none hs]
          simp only [enter, hs]
          exact h
      | some session =>
          simp only [enter, hs]
          exact h.trade (call_trades h hs hu).1 hu.1 hu.2.1

theorem tallies_run (h : p.Tallies s.database.envelopes) {moves : List Move}
    (hu : s.Unwrapped moves) :
    (s.tally p moves).2.Tallies (s.tally p moves).1.database.envelopes := by
  induction moves generalizing s p with
  | nil => exact h
  | cons m moves ih => exact ih (tallies_make h m ⟨hu.1, hu.2.1, trivial⟩) hu.2.2

theorem tally_fst (s : Service) (p : Postbook) (b : Notebook) (moves : List Move) :
    (s.tally p moves).1 = (s.run b moves).1 := by
  induction moves generalizing s p b with
  | nil => rfl
  | cons m moves ih => exact ih (s.make m) (s.enter p m) (s.observe b m)

theorem Posted.stocked (h : Posted settings s p) (hs : s.sessions.get? n = some session) :
    (s.workspace session).Stocked := by
  obtain ⟨id, s₀, moves, ho, -, hr⟩ := h
  have hreachable : Reachable settings s (s₀.run .opened moves).2 := by
    refine ⟨id, s₀, moves, ho, Prod.ext ?_ rfl⟩
    rw [← s₀.tally_fst .empty, hr]
  exact hreachable.kept.stocked n session hs

theorem Posted.tallies (h : Posted settings s p) : p.Tallies s.database.envelopes := by
  obtain ⟨id, s₀, moves, ho, hu, hr⟩ := h
  obtain ⟨database, hd, rfl⟩ := map_eq_ok.mp ho
  obtain ⟨store, -, rfl⟩ := map_eq_ok.mp hd
  have ht := tallies_run Postbook.empty_tallies hu
  rwa [hr] at ht

/-- The service honours the book: what it does with the envelopes that were issued and with those
that were taken, and what it has registered. -/
structure Honours (s : Service) (p : Postbook) : Prop where
  /-- A handle is issued for one envelope only. -/
  issuedOnce : p.handles.Nodup
  takenOnce : p.taken.Nodup
  takenIssued : ∀ raw ∈ p.taken, raw ∈ p.handles
  /-- Pending is what was issued and not taken. -/
  pending : s.database.pendingEnvelopes + p.taken.length = p.sent.length
  /-- An envelope stays as it was registered until it is taken. -/
  kept : ∀ raw x, (raw, x) ∈ p.sent → ∃ e, x = .ok e ∧
    (raw ∉ p.taken → s.database.envelopes.get raw = .ok e)
  /-- Until then, a call that names it and succeeds works on just that. -/
  served : ∀ raw e, (raw, .ok e) ∈ p.sent → raw ∉ p.taken →
    ∀ n session c out w', s.sessions.get? n = some session → s.Unwrapped [.call n c] →
      raw ∈ c.named → Workspace.call c (s.workspace session) = .ok out w' →
        (s.workspace session).Serves w' out raw e c
  /-- From then on, whoever names it is refused, with nothing changed. An import, a run or a close
  is told that it is consumed. -/
  refused : ∀ raw ∈ p.taken, ∀ n session c, s.sessions.get? n = some session → raw ∈ c.named →
    ∃ e, Workspace.call c (s.workspace session) = .error e (s.workspace session) ∧
      (c.named = [raw] → ∃ k, Handle.decode? raw = some k ∧ e = .alreadyConsumed k.text)
  /-- A call takes all that it names, or nothing if it fails. -/
  whole : ∀ n session c, s.sessions.get? n = some session → s.Unwrapped [.call n c] →
    (s.workspace session).took c = c.named ∨ (s.workspace session).took c = [] ∧
      ∃ e w', Workspace.call c (s.workspace session) = .error e w'
  /-- An export registers what stands under the handle, at the version that is read. -/
  exported : ∀ n session kind h policy out w', s.sessions.get? n = some session →
    s.Unwrapped [.call n (.exportObject kind h policy)] →
    Workspace.call (.exportObject kind h policy) (s.workspace session) = .ok out w' →
      ∃ raw payload v g, out.reply = .handle raw ∧ payload.kind = kind ∧
        session.Carries h payload ∧ session.context.state = .reading v g ∧
        w'.database.envelopes.get raw = .ok ⟨payload, v, s.database.store.id, policy⟩

/-- Over all calls of all sessions, an envelope is taken once at most. Until then it stays as it was
registered and can be had, and from then on it is refused. -/
theorem Posted.taken_at_most_once (h : Posted settings s p) : s.Honours p where
  issuedOnce := h.tallies.issuedOnce
  takenOnce := h.tallies.takenOnce
  takenIssued := h.tallies.takenIssued
  pending := h.tallies.count
  kept := h.tallies.kept
  served := by
    intro raw e hsent hraw n session c out w' hs hu hnamed hc
    obtain ⟨_, he, hkept⟩ := h.tallies.kept raw _ hsent
    obtain rfl := Except.ok.inj he
    have room := room_after_call h.tallies hs hu
    rw [Workspace.after_ok hc] at room
    exact Workspace.call_serves (h.stocked hs) room (hkept hraw) hnamed hc
  refused := by
    intro raw hraw n session c _ hnamed
    exact Workspace.call_refused (w := s.workspace session) h.tallies.stocks
      (h.tallies.past raw hraw).stale hnamed
  whole := by
    intro n session c hs hu
    exact (call_trades h.tallies hs hu).2
  exported := by
    intro n session kind raw policy out w' hs hu hc
    have room := room_after_call h.tallies hs hu
    rw [Workspace.after_ok hc] at room
    exact Workspace.call_export_registers (w := s.workspace session) h.tallies.stocks room hc

/-- The slot of an envelope that was imported is used again for the next one. -/
theorem pending_after_second_export : ∃ s p session, Posted {} s p ∧
    p.handles = [0x600000100000000, 0x600000200000000] ∧ p.taken = [0x600000100000000] ∧
    s.database.pendingEnvelopes = 1 ∧ s.sessions.get? 1 = some session ∧
    Workspace.call (.importObject .query 0x600000100000000) (s.workspace session) =
      .error (.alreadyConsumed "Handover@0:1") (s.workspace session) := by
  have h : Posted {} _ _ := ⟨"store", unused, [.openSession 1, .openSession 2,
    .call 1 (.transact .beginWrite), .call 1 (.addTable "x"), .call 1 (.transact .commitAndRead),
    .call 1 (.whereTable 0x100000100000000),
    .call 1 (.exportObject .query 0x300000100000000 .copy),
    .call 2 (.importObject .query 0x600000100000000),
    .call 1 (.exportObject .query 0x300000100000000 .copy)], rfl, by
      refine ⟨?_, ?_, ?_, ?_, ?_, ?_, ?_, ?_, ?_, ?_, ?_, ?_, ?_, ?_, ?_, ?_, ?_, ?_, trivial⟩ <;>
        first
        | exact of_decide_eq_true rfl
        | rintro (_ | slot) <;> first | exact Nat.le_refl _ | exact of_decide_eq_true rfl, rfl⟩
  have honours := h.taken_at_most_once
  obtain ⟨e, hcall, he⟩ := honours.refused 0x600000100000000 List.mem_cons_self 1 _
    (.importObject .query 0x600000100000000) rfl List.mem_cons_self
  obtain ⟨k, hk, rfl⟩ := he rfl
  obtain rfl := Option.some.inj hk
  exact ⟨_, _, _, h, rfl, rfl, Nat.add_right_cancel honours.pending, rfl, hcall⟩

end Service
end SnapshotStore
