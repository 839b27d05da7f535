import SnapshotStore.Proofs.Service.Lasting
import SnapshotStore.Proofs.Session.Detachment

/-!
Detachment is final. Once a session has ended a transaction, its handles stand for nothing any
more, whatever is begun and read afterwards by whatever session; only if a call answers the
number of such a handle again does it stand for something new.
-/

namespace SnapshotStore
namespace Service

/-- Whether the move is a call of the session that answers the handle. -/
def Move.answers (n : Nat) (raw : UInt64) (s : Service) : Move → Bool
  | .call m c => m = n && (s.call m c).any fun
    | (.ok out, _) => out.reply = .handle raw
    | (.error _, _) => false
  | _ => false

/-- Whether no call of the session answers the handle during the moves. -/
def unanswered (n : Nat) (raw : UInt64) (s : Service) : List Move → Bool
  | [] => true
  | m :: moves => !m.answers n raw s && unanswered n raw (s.make m) moves

/-- The handle stands for nothing in the session. Calls that use it fail and leave the whole
service as it is, and calls that ask about it are told so. -/
structure Detached (s : Service) (n : Nat) (session : Session) (kind : HandleKind)
    (raw : UInt64) : Prop where
  used : ∀ c, c.target? = some (kind, raw) → s.call n c = some (.error (.detached kind.name), s)
  /-- The table to be linked comes first, and may be refused on its own account. -/
  linked : kind = .table → ∀ h type name, ∃ e,
    s.call n (.addLinkColumn h type name raw) = some (.error e, s) ∧
      (e = .detached kind.name ∨ session.table h = .error e)
  asked : ∀ c, c.asks? = some (kind, raw) → s.call n c = some (.ok ⟨.flag false, none⟩, s)

/-- Whatever the session has under the handle is bound to an epoch that is over. -/
def Expired (s : Service) (n : Nat) (k : Handle) : Prop :=
  ∀ session, s.sessions.get? n = some session → (s.workspace session).Expired k

variable {settings : Settings} {s s' : Service} {b b' : Notebook} {n : Nat}
  {session session' : Session} {c : Call} {k : Handle} {raw : UInt64} {moves : List Move}

theorem unanswered_cons {m : Move} : unanswered n raw s (m :: moves) ↔
    m.answers n raw s = false ∧ unanswered n raw (s.make m) moves := by
  simp [unanswered]

/-! Calls on an expired handle -/

theorem Kept.detached (hk : Kept settings s b) (hs : s.sessions.get? n = some session)
    (h : s.Expired n k) (hdecode : Handle.decode? raw = some k) (hkind : k.kind ≠ .envelope) :
    s.Detached n session k.kind raw where
  used c hc := call_unchanged_of_error hs
    ((h session hs).call_target hdecode (hk.stocked n session hs) hkind hc)
  linked htable other type name := by
    obtain ⟨e, hcall, he⟩ :=
      (h session hs).call_addLinkColumn hdecode (hk.stocked n session hs) htable other type name
    exact ⟨e, call_unchanged_of_error hs hcall, he⟩
  asked c hc := call_unchanged_of_ok hs
    ((h session hs).call_asks hdecode (hk.stocked n session hs) hc)

/-! Expired handles stay expired -/

theorem Kept.bound_le {kind : HandleKind} {slot : Nat} {o : Held} (hk : Kept settings s b)
    (hs : s.sessions.get? n = some session) (hkind : kind ≠ .envelope)
    (ho : ((s.workspace session).shelf kind).held slot = some o) :
    o.bound ≤ session.context.epoch := by
  obtain ⟨-, hbacks⟩ := hk.held n session kind slot o hs ho
  rw [World.backs_of_ne hkind] at hbacks
  exact hbacks.epoch _ (world_context? hs)

/-- What is under the handle after a call was there before, unless the call answers the handle. -/
theorem Kept.expired_call (hk : Kept settings s b) (hs : s.sessions.get? n = some session)
    (hdecode : Handle.decode? raw = some k) (hkind : k.kind ≠ .envelope)
    (hanswers : (Move.call n c).answers n raw s = false)
    (h : ∀ o, ((s.workspace session).shelf k.kind).held k.slot = some o →
      o.generation = k.generation → o.bound <
        (Workspace.after (Workspace.call c) (s.workspace session)).session.context.epoch) :
    (s.make (.call n c)).Expired n k := by
  rw [make_call hs]
  intro session' hs'
  obtain rfl := Option.some.inj ((NatMap.get?_insert_self ..).symm.trans hs')
  refine Workspace.expired_of_files hdecode hkind
    (Workspace.call_files (hk.stocked n session hs) c) (fun hraw => ?_) h
  obtain ⟨out, w', hcall, hreply⟩ := Workspace.mem_issued.mp hraw
  simp [Move.answers, call_eq hs, hcall, hreply] at hanswers

theorem Kept.expired_of_ends (hk : Kept settings s b) (hs : s.sessions.get? n = some session)
    (ends : (s.workspace session).Ends c) (hdecode : Handle.decode? raw = some k)
    (hkind : k.kind ≠ .envelope) (hanswers : (Move.call n c).answers n raw s = false) :
    (s.make (.call n c)).Expired n k :=
  hk.expired_call hs hdecode hkind hanswers fun _ ho _ =>
    Nat.lt_of_le_of_lt (hk.bound_le hs hkind ho) (ends.epoch_lt (hk.turns_after hs c).course)

theorem Expired.of_get? (h : s.Expired n k) (hkind : k.kind ≠ .envelope)
    (hs : s'.sessions.get? n = s.sessions.get? n) : s'.Expired n k := by
  intro session hs' o ho
  rw [workspace, shelf_of_ne session _ s.database hkind] at ho
  exact h session (hs.symm.trans hs') o ho

theorem expired_joined (s : Service) (n : Nat) (hkind : k.kind ≠ .envelope) :
    (s.joined n).Expired n k := by
  intro session hs o ho
  obtain rfl := Option.some.inj ((NatMap.get?_insert_self ..).symm.trans hs)
  cases hk : k.kind <;> rw [hk] at ho <;> first
    | exact absurd hk hkind
    | simp [workspace, Workspace.shelf, Session.new, Arena.shelf, Arena.live?, Arena.empty] at ho

theorem Kept.expired_make (hk : Kept settings s b) (h : s.Expired n k)
    (hdecode : Handle.decode? raw = some k) (hkind : k.kind ≠ .envelope) {m : Move}
    (hanswers : m.answers n raw s = false) : (s.make m).Expired n k := by
  cases m with
  | openSession m =>
      by_cases hne : n = m
      · subst hne
        rw [Service.make, openSession_eq]
        exact expired_joined _ n hkind
      · exact h.of_get? hkind (s.openSession_get?_ne hne)
  | closeSession m =>
      by_cases hne : n = m
      · subst hne
        intro session hs
        rw [Service.make, closeSession_get?] at hs
        simp at hs
      · exact h.of_get? hkind (s.closeSession_get?_ne hne)
  | call m c =>
      cases hs : s.sessions.get? m with
      | none => simpa [Service.make, Service.call, hs] using h
      | some session =>
          by_cases hne : n = m
          · subst hne
            refine hk.expired_call hs hdecode hkind hanswers fun o ho hgen => ?_
            exact Nat.lt_of_lt_of_le (h session hs o ho hgen)
              (hk.turns_after hs c).course.proceeds.epoch_le
          · rw [make_call hs]
            exact h.of_get? hkind (NatMap.get?_insert_ne _ _ hne)

theorem Kept.expired_run (hk : Kept settings s b) (h : s.Expired n k)
    (hdecode : Handle.decode? raw = some k) (hkind : k.kind ≠ .envelope)
    (hun : unanswered n raw s moves) : (s.run b moves).1.Expired n k := by
  induction moves generalizing s b with
  | nil => exact h
  | cons m moves ih =>
      obtain ⟨hanswers, hrest⟩ := unanswered_cons.mp hun
      exact ih (hk.make m) (hk.expired_make h hdecode hkind hanswers) hrest

/-- Once a call has ended a transaction of a session, no handle of the session is attached any
more, whichever transaction it was issued in. Whatever moves follow, every call on it fails
without touching the service, until a call answers its number for something new. -/
theorem Reachable.detached_for_good (h : Reachable settings s b)
    (hs : s.sessions.get? n = some session) (ends : (s.workspace session).Ends c)
    (hdecode : Handle.decode? raw = some k) (hkind : k.kind ≠ .envelope)
    (hun : unanswered n raw s (.call n c :: moves))
    (ran : s.run b (.call n c :: moves) = (s', b'))
    (hs' : s'.sessions.get? n = some session') : s'.Detached n session' k.kind raw := by
  have hk := h.kept
  obtain ⟨hanswers, hrest⟩ := unanswered_cons.mp hun
  have hexpired := hk.expired_of_ends hs ends hdecode hkind hanswers
  have hexpired' := (hk.make (.call n c)).expired_run hexpired hdecode hkind hrest
  have hk' := hk.run (.call n c :: moves)
  rw [ran] at hk'
  rw [show (s.make (.call n c)).run (s.observe b (.call n c)) moves = (s', b') from ran]
    at hexpired'
  exact hk'.detached hs' hexpired' hdecode hkind

/-- A table is published, and a reader gets it under a new handle; the old one stays detached.
Then the reader counts its rows for itself: it reads the same version again afterwards, but not
under the handles that it had. -/
theorem published_and_counted_detached : ∃ s b s' b' s'' b'', ∃ session' session'' : Session,
    Reachable {} s b ∧
    s.run b [.call 1 (.transact .commit), .call 1 (.transact (.beginRead none)),
      .call 1 (.getTable "t"), .call 1 (.whereTable 0x100000100000001),
      .call 1 (.exportObject .query 0x300000100000000 .copy)] = (s', b') ∧
    s'.sessions.get? 1 = some session' ∧ s'.Detached 1 session' .table 0x100000100000000 ∧
    (s'.call 1 (.tableName 0x100000100000001)).map (·.1) = some (.ok ⟨.text "t", none⟩) ∧
    s'.run b' [.call 1 (.run 0x600000100000000 (.count 0 (-1) (-1)))] = (s'', b'') ∧
    s''.sessions.get? 1 = some session'' ∧ session''.context.isReading ∧
    s''.Detached 1 session'' .table 0x100000100000001 := by
  have h := unused_reachable [.openSession 1, .call 1 (.transact .beginWrite),
    .call 1 (.addTable "t")]
  have h' := unused_reachable [.openSession 1, .call 1 (.transact .beginWrite),
    .call 1 (.addTable "t"), .call 1 (.transact .commit), .call 1 (.transact (.beginRead none)),
    .call 1 (.getTable "t"), .call 1 (.whereTable 0x100000100000001),
    .call 1 (.exportObject .query 0x300000100000000 .copy)]
  refine ⟨_, _, _, _, _, _, _, _, h, rfl, rfl, ?_, rfl, rfl, rfl, rfl, ?_⟩
  · exact h.detached_for_good (k := .ofParts .table 0 1) rfl (.commit rfl) (by decide +kernel)
      (by decide) (show unanswered 1 _ _ [_, .call 1 (.transact (.beginRead none)),
        .call 1 (.getTable "t"), .call 1 (.whereTable 0x100000100000001),
        .call 1 (.exportObject .query 0x300000100000000 .copy)] by decide +kernel) rfl rfl
  · exact h'.detached_for_good (k := .ofParts .table 1 1) rfl (.lent rfl rfl) (by decide +kernel)
      (by decide) (show unanswered 1 _ _ [_] by decide +kernel) rfl rfl

end Service
end SnapshotStore
