import SnapshotStore.Proofs.Service.WrongKind

/-!
Envelopes taken all or none. Taking looks at every handle before it takes the first envelope out,
and after that nothing is left to fail: taken one after the other out of the registry itself, the
envelopes come out whole or the registry is as it was.
-/

namespace SnapshotStore
namespace Database
variable {d d' : Database} {a : Arena Envelope} {raws : List UInt64} {es : List Envelope}

/-- Take one envelope out of the registry itself. -/
def takeOut (raw : UInt64) : EStateM Error Database Envelope := fun d =>
  match d.envelopes.remove raw with
  | .ok (e, envelopes) => .ok e { d with envelopes }
  | .error x => .error x d

/-- Check the handles, and take the envelopes out of the registry itself one after the other.
Were a handle found to be no good only then, the envelopes before it would be gone. -/
def takeInPlace (raws : List UInt64) : EStateM Error Database (List Envelope) := fun d =>
  match d.checkDistinct [] raws with
  | .ok () => raws.mapM takeOut d
  | .error x => .error x d

theorem takeOut_all (h : removeAll d.envelopes raws = .ok (es, a)) :
    raws.mapM takeOut d = .ok es { d with envelopes := a } := by
  induction raws generalizing d es with
  | nil =>
      obtain ⟨rfl, rfl⟩ := Prod.mk.inj (Except.ok.inj h)
      rfl
  | cons raw raws ih =>
      simp only [removeAll, bind_eq_ok, pure_eq_ok] at h
      obtain ⟨⟨e, a₁⟩, hremove, ⟨es', a₂⟩, hrest, he⟩ := h
      obtain ⟨rfl, rfl⟩ := Prod.mk.inj he
      have hout : takeOut raw d = .ok e { d with envelopes := a₁ } := by
        simp only [takeOut, hremove]
      rw [List.mapM_cons, bind_of_ok hout, bind_of_ok (ih hrest)]
      rfl

/-- The registry is never left with some of the envelopes taken. -/
theorem takeInPlace_eq (d : Database) (raws : List UInt64) : takeInPlace raws d =
    match d.takeAll raws with
    | .ok (es, d') => .ok es d'
    | .error x => .error x d := by
  cases hcheck : d.checkDistinct [] raws with
  | error x => simp only [takeInPlace, takeAll, hcheck, bind, Except.bind]
  | ok =>
      obtain ⟨hnodup, hgets⟩ := checkDistinct_eq_ok.mp hcheck
      obtain ⟨es, hes⟩ := exists_forall₂_iff.mpr fun raw hraw => (hgets raw hraw).2
      obtain ⟨a, ha⟩ := removeAll_of_nodup hnodup hes
      have htake := takeAll_eq_ok.mpr ⟨hcheck, a, ha, rfl⟩
      simp only [takeInPlace, hcheck, htake, takeOut_all ha]

theorem takeAll_succeeds_iff : (∃ es d', d.takeAll raws = .ok (es, d')) ↔
    raws.Nodup ∧ ∀ raw ∈ raws, ∃ e, d.envelopes.get raw = .ok e := by
  constructor
  · rintro ⟨es, d', h⟩
    obtain ⟨hnodup, hgets⟩ := checkDistinct_eq_ok.mp (takeAll_eq_ok.mp h).1
    exact ⟨hnodup, fun raw hraw => (hgets raw hraw).2⟩
  · rintro ⟨hnodup, hgets⟩
    obtain ⟨es, hes⟩ := exists_forall₂_iff.mpr hgets
    obtain ⟨a, ha⟩ := takeAll_of_nodup hnodup hes
    exact ⟨es, _, ha⟩

/-- Envelopes are taken if and only if the numbers are different handles, each to the object that
its slot holds in its generation. They come in the order of the handles, and the handles then name
nothing; what other numbers name stays. Otherwise the registry itself is as it was. -/
theorem takes_all_or_none (hkind : d.envelopes.kind = .envelope) (raws : List UInt64) :
    ((∃ es d', d.takeAll raws = .ok (es, d')) ↔ raws.Nodup ∧ ∀ raw ∈ raws, ∃ k e,
      Handle.decode? raw = some k ∧ k.kind = .envelope ∧
        d.envelopes.live? k.slot = some (k.generation, e)) ∧
    (∀ es d', d.takeAll raws = .ok (es, d') → takeInPlace raws d = .ok es d' ∧
      List.Forall₂ (fun raw e => d.envelopes.get raw = .ok e) raws es ∧
      (∀ raw e, d'.envelopes.get raw = .ok e ↔ raw ∉ raws ∧ d.envelopes.get raw = .ok e) ∧
      d'.envelopes.occupied + raws.length = d.envelopes.occupied ∧
      (d.envelopes.Tidy → d'.pendingEnvelopes + raws.length = d.pendingEnvelopes) ∧
      d'.store = d.store) ∧
    ∀ x, d.takeAll raws = .error x → takeInPlace raws d = .error x d := by
  refine ⟨?_, fun es d' h => ?_, fun x h => ?_⟩
  · have hlive : ∀ raw, (∃ e, d.envelopes.get raw = .ok e) ↔ ∃ k e, Handle.decode? raw = some k ∧
        k.kind = .envelope ∧ d.envelopes.live? k.slot = some (k.generation, e) := fun raw => by
      simp only [Arena.get_iff, hkind]
      exact exists_comm
    simp only [takeAll_succeeds_iff, hlive]
  · obtain ⟨-, a, hr, rfl⟩ := takeAll_eq_ok.mp h
    obtain ⟨hloses, hgets⟩ := removeAll_loses hr
    refine ⟨?_, hgets, fun raw e => hloses.get_iff, hloses.occupied, fun htidy => ?_, rfl⟩
    · rw [takeInPlace_eq, h]
    · exact hloses.size ⟨htidy, rfl⟩
  · rw [takeInPlace_eq, h]

end Database
namespace Service

/-- Two envelopes are there. They are taken in the order asked for, but not if a handle of a query
is among the numbers or one of them is there twice. -/
theorem two_envelopes_taken : ∃ s b, Reachable {} s b ∧ s.database.pendingEnvelopes = 2 ∧
    (∃ es d', s.database.takeAll [0x600000100000001, 0x600000100000000] = .ok (es, d') ∧
      d'.pendingEnvelopes = 0) ∧
    ∀ raws ∈ [[0x600000100000000, 0x300000100000000], [0x600000100000000, 0x600000100000000]],
      ¬∃ es d', s.database.takeAll raws = .ok (es, d') := by
  have h := unused_reachable [.openSession 1, .call 1 (.transact .beginWrite),
    .call 1 (.addTable "t"), .call 1 (.addEmptyRow 0x100000100000000),
    .call 1 (.transact .commitAndRead), .call 1 (.whereTable 0x100000100000000),
    .call 1 (.getRow 0x100000100000000 0),
    .call 1 (.exportObject .query 0x300000100000000 .copy),
    .call 1 (.exportObject .row 0x200000100000000 .copy)]
  have hkind := h.kept.envelopes.kind
  refine ⟨_, _, h, rfl, ?_, ?_⟩
  · obtain ⟨htakes, hgives, -⟩ :=
      Database.takes_all_or_none hkind [0x600000100000001, 0x600000100000000]
    obtain ⟨es, d', htaken⟩ := htakes.mpr ⟨by decide, List.forall_mem_cons.mpr
      ⟨⟨_, _, rfl, rfl, rfl⟩, List.forall_mem_singleton.mpr ⟨_, _, rfl, rfl, rfl⟩⟩⟩
    obtain ⟨-, -, -, -, hpending, -⟩ := hgives es d' htaken
    exact ⟨es, d', htaken, Nat.add_right_cancel (hpending h.kept.envelopes.tidy)⟩
  · refine List.forall_mem_cons.mpr ⟨fun htaken => ?_,
      List.forall_mem_singleton.mpr fun htaken => ?_⟩
    · obtain ⟨-, hlive⟩ := (Database.takes_all_or_none hkind _).1.mp htaken
      obtain ⟨k, e, hdecode, hk, -⟩ := hlive 0x300000100000000 (by decide)
      obtain rfl := Option.some.inj hdecode
      exact absurd hk (by decide)
    · obtain ⟨hnodup, -⟩ := (Database.takes_all_or_none hkind _).1.mp htaken
      exact absurd hnodup (by decide)

end Service
end SnapshotStore
