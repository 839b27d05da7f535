import SnapshotStore.Proofs.Resources

/-!
Pins in a world. Whoever reads a version has a pin of its own there, so what is read stays in
the store, whatever the others do.
-/

namespace SnapshotStore
namespace World
variable {settings : Settings} {w w' : World} {ch : Chronicle} {n : Nat} {v : Version}

/-- Whether the author has a context and reads the version in it. -/
def reads (w : World) (n : Nat) (v : Version) : Bool := (w.context? n).any (·.reads v)

theorem reads_of_live {c : Context} (h : w.context? n = some c) (v : Version) :
    w.reads n v = c.reads v := by
  rw [reads, h, Option.any_some]

/-- However many authors read a version, it has a pin for each of them. -/
def Backed (w : World) : Prop :=
  ∀ v (ns : List Nat), ns.Nodup → ns.countP (w.reads · v) ≤ w.store.pinCount v

/-- One author told from all others. -/
theorem backed_iff (n : Nat) : w.Backed ↔ ∀ v (ns : List Nat), ns.Nodup → n ∉ ns →
    ns.countP (w.reads · v) + (w.reads n v).toNat ≤ w.store.pinCount v := by
  have hcons : ∀ v (ns : List Nat),
      (n :: ns).countP (w.reads · v) = ns.countP (w.reads · v) + (w.reads n v).toNat := by
    intro v ns
    rw [List.countP_cons]
    cases w.reads n v <;> rfl
  constructor
  · intro h v ns hns hn
    rw [← hcons]
    exact h v (n :: ns) (List.nodup_cons.mpr ⟨hn, hns⟩)
  · intro h v ns hns
    by_cases hn : n ∈ ns
    · have hperm := List.perm_cons_erase hn
      have hrest := List.nodup_cons.mp (hperm.nodup hns)
      rw [hperm.countP_eq, hcons]
      exact h v _ hrest.2 hrest.1
    · exact Nat.le_trans (Nat.le_add_right _ _) (h v ns hns hn)

theorem Backed.own (h : w.Backed) {c : Context} (hc : w.context? n = some c) (v : Version)
    (hv : c.reads v) : 0 < w.store.pinCount v := by
  have hone := (backed_iff n).mp h v [] .nil List.not_mem_nil
  rw [List.countP_nil, Nat.zero_add, reads_of_live hc, hv] at hone
  exact hone

/-- What an author gains or loses in pins is what it begins or stops to read. -/
theorem Backed.turn (h : w.Backed) (others : ∀ m, m ≠ n → w'.context? m = w.context? m)
    (own : ∀ v, w'.store.pinCount v + (w.reads n v).toNat =
      w.store.pinCount v + (w'.reads n v).toNat) : w'.Backed := by
  refine (backed_iff n).mpr fun v ns hns hn => ?_
  have hbefore := (backed_iff n).mp h v ns hns hn
  have hsame : ns.countP (w'.reads · v) = ns.countP (w.reads · v) :=
    List.countP_congr fun m hm => by
      rw [reads, others m fun he => hn (he ▸ hm), reads]
  have hown := own v
  omega

theorem Backed.step (h : w.Backed) {d : Deed} (hs : Step w n d w') : w'.Backed := by
  refine h.turn (fun m hm => hs.context?_ne hm) fun v => ?_
  cases hs with
  | act live step =>
      rw [reads_of_live live, reads_of_live (set_context?_self w n _ _)]
      exact step.pinCount (h.own live) v
  | join vacant =>
      rw [reads_of_live (set_context?_self w n _ _), reads, vacant]
      rfl
  | leave live =>
      rw [reads_of_live live, reads, set_context?_self, Option.any_none, Bool.toNat_false,
        Nat.add_zero]
      exact Connection.close_pinCount (h.own live) v
  | compact => rfl

theorem Reachable.backed (h : Reachable settings w ch) : w.Backed := by
  induction h with
  | opened h =>
      intro v ns _
      have hnone : ns.countP (fun _ => false) = 0 := List.countP_eq_zero.mpr (by simp)
      exact Nat.le_trans (Nat.le_of_eq hnone) (Nat.zero_le _)
  | step _ hs ih => exact ih.step hs

/-- A version that is read is kept as it was committed. -/
theorem Reachable.kept (h : Reachable settings w ch) {c : Context} {g : Group}
    (hc : w.context? n = some c) (hstate : c.state = .reading v g) :
    w.store.snapshots.get? v = some g := by
  obtain ⟨l, hexact, hgroups⟩ := h.sound.store.exact
  have hg : Version.nth? l.groups v = some g := hgroups ▸ h.sound.committed hc hstate
  have hpinned : v ∈ l.pins := by
    rw [← List.count_pos_iff, ← hexact.pinCount]
    exact h.backed.own hc v (by rw [Context.reads_of_reading hstate, decide_eq_true rfl])
  exact (hexact.snapshots v g).mpr ⟨hg, .inr hpinned⟩

end World
end SnapshotStore
