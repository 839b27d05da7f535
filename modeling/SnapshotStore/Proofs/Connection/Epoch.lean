import SnapshotStore.Proofs.Connection.Release

/-!
Epochs of contexts. An epoch never falls, and it rises whenever a transaction ends: the one that
is ended or given up as much as the read of a context that is about to work for others.
-/

namespace SnapshotStore

/-- A context later on. While the epoch stays the same, an open transaction stays open. -/
structure Context.Proceeds (c c' : Context) : Prop where
  epoch_le : c.epoch ≤ c'.epoch
  stays : c'.epoch = c.epoch → c.isInTransaction → c'.isInTransaction

namespace Context
variable {c c' c'' : Context}

theorem not_isInTransaction_of_idle (h : c.state = .idle) : ¬c.isInTransaction := by
  simp [isInTransaction, h, TransactionState.version?]

theorem isInTransaction_of_reading (h : c.isReading) : c.isInTransaction := by
  obtain ⟨v, g, hstate⟩ := isReading_iff.mp h
  simp [isInTransaction, hstate, TransactionState.version?]

theorem isInTransaction_of_writing (h : c.isWriting) : c.isInTransaction := by
  obtain ⟨v, g, hstate⟩ := (Connection.isWriting_iff c).mp h
  simp [isInTransaction, hstate, TransactionState.version?]

namespace Proceeds

theorem refl (c : Context) : c.Proceeds c := ⟨Nat.le_refl _, fun _ h => h⟩

theorem trans (h : c.Proceeds c') (h' : c'.Proceeds c'') : c.Proceeds c'' where
  epoch_le := Nat.le_trans h.epoch_le h'.epoch_le
  stays he hopen := by
    have hle := h.epoch_le
    have hle' := h'.epoch_le
    exact h'.stays (by omega) (h.stays (by omega) hopen)

theorem epoch_lt (h : c.Proceeds c') (hopen : c.isInTransaction) (hidle : c'.state = .idle) :
    c.epoch < c'.epoch :=
  Nat.lt_of_le_of_ne h.epoch_le fun he =>
    not_isInTransaction_of_idle hidle (h.stays he.symm hopen)

end Proceeds
end Context

namespace Connection
variable {α β : Type} {a : Action α} {c c' : Connection} {d : Deed}

theorem Step.proceeds (h : Step c d c') : c.context.Proceeds c'.context := by
  cases h with
  | stay | count => exact .refl _
  | beginRead | endRead | beginWrite | commit | abandon =>
      exact ⟨Nat.le_succ _, fun he => absurd he (Nat.succ_ne_self _)⟩
  | advance | promote | edit | commitAndRead | rollbackAndRead =>
      exact ⟨Nat.le_refl _, fun _ _ => rfl⟩

theorem Quiet.proceeds (h : Quiet c c') : c.context.Proceeds c'.context := by
  induction h with
  | refl => exact .refl _
  | tail _ hs ih => exact ih.trans hs.proceeds

theorem Course.proceeds (h : Course c d c') : c.context.Proceeds c'.context := by
  obtain ⟨c₁, hquiet, hstep⟩ := h
  exact hquiet.proceeds.trans hstep.proceeds

/-! Ends of transactions -/

theorem after_map (a : Action α) (f : α → β) (c : Connection) :
    after (a >>= fun x => pure (f x)) c = after a c := by
  simp only [after, Bind.bind, EStateM.bind]
  cases a c <;> rfl

theorem endRead_rests (h : c.context.isReading) :
    (after Transition.endRead.perform c).context.state = .idle := by
  obtain ⟨v, g, hstate⟩ := Context.isReading_iff.mp h
  rw [Transition.perform, after_map, after_ok (endRead_of_reading hstate)]
  rfl

/-- A commit ends the write even if it fails. -/
theorem commit_rests (h : c.context.isWriting) :
    (after Transition.commit.perform c).context.state = .idle := by
  obtain ⟨base, g, hstate⟩ := (isWriting_iff _).mp h
  rw [Transition.perform, after_map]
  rcases finishWrite_cases (s := c.store) "commit" false hstate with ⟨v, s', -, hf⟩ | ⟨e, hf⟩
  · simp only [after, commit, hf]
    rfl
  · simp only [after, commit, hf]
    rfl

theorem rollback_rests (h : c.context.isWriting) :
    (after Transition.rollback.perform c).context.state = .idle := by
  obtain ⟨base, g, hstate⟩ := (isWriting_iff _).mp h
  rw [Transition.perform, after_map]
  simp only [after, rollback, hstate]
  rfl

/-- A reader that has worked for others has another epoch, whether it reads again or not. -/
theorem lend_epoch_lt {check : Connection → Except Error β} (operation : String)
    {work : β → Action α} {x : β} (hcheck : check c = .ok x) (hc : c.context.isReading)
    (hwork : IsQuiet (work x)) :
    c.context.epoch < (after (lend check operation work) c).context.epoch := by
  obtain ⟨v, g, hstate⟩ := Context.isReading_iff.mp hc
  obtain ⟨d, hrelease, hidle⟩ :=
    releaseRead_of_not_writing operation (Context.isWriting_of_reading hstate)
  have hreleased := after_ok hrelease ▸ (releaseRead_isQuiet operation c).proceeds
  have hlend : after (lend check operation work) c = after (work x) ⟨c.close, d⟩ := by
    rw [after, lend, bind_of_ok (ask_of_ok hcheck), bind_of_ok hrelease, after]
  rw [hlend]
  exact Nat.lt_of_lt_of_le
    (hreleased.epoch_lt (Context.isInTransaction_of_reading hc) hidle) (hwork _).proceeds.epoch_le

end Connection
end SnapshotStore
