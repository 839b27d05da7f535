import SnapshotStore.Database
import SnapshotStore.Proofs.Registry

/-!
Several envelopes taken at once. The check passes the lists of different handles that each name an
envelope. What passes can then be taken one after the other: no envelope that is taken out disturbs
the ones that are still to be taken.
-/

namespace SnapshotStore
namespace Database
variable {d d' : Database} {a a' : Arena Envelope} {raws seen : List UInt64} {raw : UInt64}
  {es : List Envelope} {x : Error}

theorem check_eq_ok : a.check raw = .ok () ↔ ∃ e, a.get raw = .ok e := by
  rw [Arena.check, map_eq_ok]
  constructor
  · rintro ⟨k, hlocate, -⟩
    obtain ⟨e, hk⟩ := Arena.locate_eq_ok.mp hlocate
    exact ⟨e, hk.get⟩
  · rintro ⟨e, hget⟩
    obtain ⟨k, hk⟩ := Arena.get_eq_ok.mp hget
    exact ⟨k, Arena.locate_eq_ok.mpr ⟨e, hk⟩, rfl⟩

theorem checkDistinct_cons : d.checkDistinct seen (raw :: raws) = .ok () ↔
    (∃ e, d.envelopes.get raw = .ok e) ∧ raw ∉ seen ∧
      d.checkDistinct (raw :: seen) raws = .ok () := by
  rw [← check_eq_ok, checkDistinct]
  cases d.envelopes.check raw with
  | error x => simp
  | ok =>
      by_cases hseen : raw ∈ seen
      · simp [hseen]
      · simp [hseen]

theorem checkDistinct_eq_ok : d.checkDistinct seen raws = .ok () ↔
    raws.Nodup ∧ ∀ raw ∈ raws, raw ∉ seen ∧ ∃ e, d.envelopes.get raw = .ok e := by
  induction raws generalizing seen with
  | nil => simp [checkDistinct]
  | cons raw raws ih =>
      rw [checkDistinct_cons, ih, List.nodup_cons, List.forall_mem_cons]
      constructor
      · rintro ⟨hget, hseen, hnodup, hrest⟩
        refine ⟨⟨fun hraw => (hrest raw hraw).1 List.mem_cons_self, hnodup⟩, ⟨hseen, hget⟩, ?_⟩
        exact fun raw' hraw' => (hrest raw' hraw').imp_left fun h hold =>
          h (List.mem_cons_of_mem raw hold)
      · rintro ⟨⟨hraw, hnodup⟩, ⟨hseen, hget⟩, hrest⟩
        refine ⟨hget, hseen, hnodup, fun raw' hraw' => (hrest raw' hraw').imp_left fun h => ?_⟩
        rintro (_ | ⟨_, hold⟩)
        · exact hraw hraw'
        · exact h hold

theorem checkDistinct_eq_error (hraw : raw ∈ raws) (hcheck : d.envelopes.check raw = .error x) :
    ∃ y, d.checkDistinct seen raws = .error y := by
  cases hd : d.checkDistinct seen raws with
  | error y => exact ⟨y, rfl⟩
  | ok =>
      have hok := check_eq_ok.mpr ((checkDistinct_eq_ok.mp hd).2 raw hraw).2
      simp [hcheck] at hok

theorem removeAll_loses (hr : removeAll a raws = .ok (es, a')) :
    a.Loses raws a' ∧ List.Forall₂ (fun raw e => a.get raw = .ok e) raws es := by
  induction raws generalizing a es with
  | nil =>
      obtain ⟨rfl, rfl⟩ := Prod.mk.inj (Except.ok.inj hr)
      exact ⟨.nil a, .nil⟩
  | cons raw raws ih =>
      simp only [removeAll, bind_eq_ok, pure_eq_ok] at hr
      obtain ⟨⟨e, a₁⟩, hremove, ⟨es', a₂⟩, hrest, he⟩ := hr
      obtain ⟨rfl, rfl⟩ := Prod.mk.inj he
      obtain ⟨hloses, hgets⟩ := ih hrest
      refine ⟨.cons hremove hloses, .cons (Arena.remove_get hremove) (hgets.imp ?_)⟩
      exact fun raw' e' hget => ((Arena.remove_get_iff hremove).mp hget).2

/-- No envelope that is taken out takes the place from under a later handle of the list. -/
theorem removeAll_of_nodup (hnodup : raws.Nodup)
    (hgets : List.Forall₂ (fun raw e => a.get raw = .ok e) raws es) :
    ∃ a', removeAll a raws = .ok (es, a') := by
  induction raws generalizing a es with
  | nil =>
      obtain rfl := List.forall₂_nil_left_iff.mp hgets
      exact ⟨a, rfl⟩
  | cons raw raws ih =>
      obtain ⟨hraw, hnodup⟩ := List.nodup_cons.mp hnodup
      obtain ⟨e, es', hget, hrest, rfl⟩ := List.forall₂_cons_left_iff.mp hgets
      obtain ⟨a₁, hremove⟩ := Arena.remove_of_get hget
      have hthere : List.Forall₂ (fun raw e => a₁.get raw = .ok e) raws es' := by
        refine (forall₂_congr_of_mem fun raw' hraw' e' => ?_).mpr hrest
        rw [Arena.remove_get_iff hremove, and_iff_right]
        exact fun he => hraw (he ▸ hraw')
      obtain ⟨a', hrest⟩ := ih hnodup hthere
      refine ⟨a', ?_⟩
      simp only [removeAll, hremove, hrest, bind, Except.bind, pure, Except.pure]

theorem takeAll_eq_ok : d.takeAll raws = .ok (es, d') ↔ d.checkDistinct [] raws = .ok () ∧
    ∃ a, removeAll d.envelopes raws = .ok (es, a) ∧ d' = { d with envelopes := a } := by
  simp only [takeAll, bind_eq_ok, pure_eq_ok, Prod.mk.injEq, Prod.exists]
  constructor
  · rintro ⟨_, hcheck, _, a, hr, rfl, rfl⟩
    exact ⟨hcheck, a, hr, rfl⟩
  · rintro ⟨hcheck, a, hr, rfl⟩
    exact ⟨(), hcheck, es, a, hr, rfl, rfl⟩

theorem takeAll_of_nodup (hnodup : raws.Nodup)
    (hgets : List.Forall₂ (fun raw e => d.envelopes.get raw = .ok e) raws es) :
    ∃ a, d.takeAll raws = .ok (es, { d with envelopes := a }) := by
  have hcheck : d.checkDistinct [] raws = .ok () := checkDistinct_eq_ok.mpr
    ⟨hnodup, fun raw hraw => ⟨List.not_mem_nil, exists_forall₂_iff.mp ⟨es, hgets⟩ raw hraw⟩⟩
  obtain ⟨a, ha⟩ := removeAll_of_nodup hnodup hgets
  exact ⟨a, takeAll_eq_ok.mpr ⟨hcheck, a, ha, rfl⟩⟩

end Database
end SnapshotStore
