import SnapshotStore.Handover.Batch
import SnapshotStore.Proofs.Connection.Step
import SnapshotStore.Proofs.Shelf

/-!
What is handed over is there: the context that fills an envelope and the context that takes
it over read the version on the envelope and find its content in it.
-/

namespace SnapshotStore

/-- The content of the envelope is in the version on it, which the context reads. -/
def Context.Shows (c : Context) (e : Envelope) : Prop :=
  ∃ g, c.state = .reading e.version g ∧ (g.sight? e.payload.subject).isSome

def Response.envelope? : Response → Option Envelope
  | row e? => e?
  | view e => some e
  | count _ | value _ => none

theorem Envelope.isQuery_iff {e : Envelope} : e.isQuery ↔ ∃ q, e.payload = .query q := by
  cases h : e.payload <;> simp [isQuery, kind, h, Payload.kind]

/-- A row that is found again has the identity on its locator. -/
theorem RowLocator.indexIn?_eq_some {l : RowLocator} {t : Table} {i : Nat}
    (h : l.indexIn? t = some i) :
    t.key = l.table ∧ t.schemaEpoch = l.schemaEpoch ∧ t.rowId? i = some l.id := by
  unfold RowLocator.indexIn? at h
  split at h
  next => simp at h
  next hsame =>
    simp only [Bool.or_eq_true, decide_eq_true_eq, not_or, Decidable.not_not] at hsame
    refine ⟨hsame.1, hsame.2, ?_⟩
    unfold Table.findRow? at h
    split at h
    next hhint =>
      obtain rfl := Option.some.inj h
      exact hhint
    next =>
      obtain ⟨hlt, hid, -⟩ := List.findIdx?_eq_some_iff_getElem.mp h
      exact List.getElem?_eq_some_iff.mpr ⟨hlt, of_decide_eq_true hid⟩

theorem RowLocator.seen {l : RowLocator} {g : Group} {t : Table}
    (ht : g.table? l.table = some t) (h : (l.indexIn? t).isSome) :
    (g.sight? (.row l.table l.id)).isSome := by
  obtain ⟨i, hi⟩ := Option.isSome_iff_exists.mp h
  obtain ⟨-, -, hid⟩ := indexIn?_eq_some hi
  rw [Group.sight?_row ht hid]
  rfl

theorem Payload.seen {p : Payload} {g : Group} (h : p.check g = .ok ()) :
    (g.sight? p.subject).isSome := by
  have hp : (g.table? p.table).any p.suits = true := by
    cases hany : (g.table? p.table).any p.suits with
    | true => rfl
    | false => simp [Payload.check, hany] at h
  cases ht : g.table? p.table with
  | none => simp [ht] at hp
  | some t =>
      rw [ht, Option.any_some] at hp
      cases p with
      | query q | view v =>
          simp only [Payload.suits, Bool.and_true, decide_eq_true_eq] at hp
          have hs := Group.sight?_columns ht
          rw [hp] at hs
          exact Option.isSome_iff_exists.mpr ⟨_, hs⟩
      | row l =>
          simp only [Payload.suits, Bool.and_eq_true] at hp
          exact RowLocator.seen ht hp.2

namespace Connection
variable {c c' : Connection} {p : Payload} {policy : HandoverPolicy} {e : Envelope}

theorem enclose_cases (h : c.enclose p policy = .ok e) : ∃ v g,
    c.context.state = .reading v g ∧ p.check g = .ok () ∧ e = ⟨p, v, c.store.id, policy⟩ := by
  unfold enclose at h
  split at h
  next v g hstate =>
    simp only [bind_eq_ok, pure_eq_ok] at h
    obtain ⟨u, hp, rfl⟩ := h
    exact ⟨v, g, hstate, hp, rfl⟩
  next => simp at h

theorem enclose_eq_ok (h : c.enclose p policy = .ok e) :
    e.payload = p ∧ c.context.Shows e := by
  obtain ⟨v, g, hstate, hp, rfl⟩ := enclose_cases h
  exact ⟨rfl, g, hstate, Payload.seen hp⟩

theorem ask_run_ok {α : Type} {f : Connection → Except Error α} {x : α} :
    ask f c = .ok x c' ↔ f c = .ok x ∧ c = c' := by
  unfold ask
  cases f c <;> simp

theorem beginRead_reads {v w : Version} (h : beginRead (some v) c = .ok w c') :
    ∃ g, c'.context.state = .reading v g := by
  unfold beginRead at h
  split at h
  next hstate =>
    cases hp : c.store.pin (some v) with
    | error e => simp [hp] at h
    | ok r =>
        obtain ⟨⟨v', g⟩, s⟩ := r
        simp only [hp, EStateM.Result.ok.injEq] at h
        obtain ⟨-, rfl⟩ := h
        obtain ⟨rfl, -, -⟩ := Store.pin_eq_ok hp
        exact ⟨g, rfl⟩
  next => simp [refuse] at h

theorem advance_reads {v : Version} {a : Advance} (h : advance (some v) c = .ok a c') :
    ∃ g, c'.context.state = .reading v g := by
  unfold advance at h
  split at h
  next current g hstate =>
    simp only [Option.getD_some] at h
    split at h
    · simp at h
    · split at h
      next he =>
        simp only [EStateM.Result.ok.injEq] at h
        obtain ⟨-, rfl⟩ := h
        exact ⟨g, he ▸ hstate⟩
      next =>
        split at h
        · simp at h
        · split at h
          · simp at h
          next hp =>
            simp only [EStateM.Result.ok.injEq] at h
            obtain ⟨-, rfl⟩ := h
            obtain ⟨rfl, -, -⟩ := Store.pin_eq_ok hp
            exact ⟨_, rfl⟩
  next => simp [refuse] at h

theorem syncTo_reads {v : Version} (h : syncTo v c = .ok () c') :
    ∃ g, c'.context.state = .reading v g := by
  unfold syncTo at h
  split at h
  next =>
    simp only [bind_run_ok, pure_run_ok] at h
    obtain ⟨w, c₁, hr, -, rfl⟩ := h
    exact beginRead_reads hr
  next current g hstate =>
    split at h
    · simp only [bind_run_ok, pure_run_ok] at h
      obtain ⟨a, c₁, ha, -, rfl⟩ := h
      exact advance_reads ha
    · split at h
      next he =>
        simp only [EStateM.Result.ok.injEq, true_and] at h
        exact ⟨g, h ▸ he ▸ hstate⟩
      next => simp at h
  next => simp at h

theorem checkEnvelope_eq_ok {kind : PayloadKind} (h : c.checkEnvelope kind e = .ok ()) :
    e.payload.kind = kind := by
  by_cases hkind : e.kind = kind
  · exact hkind
  · by_cases hstore : e.store = c.store.id <;> simp [checkEnvelope, hkind, hstore] at h

theorem importAs_run_ok {kind : PayloadKind} (h : importAs kind e c = .ok p c') :
    p = e.payload ∧ e.payload.kind = kind ∧ c'.context.Shows e := by
  simp only [importAs, bind_run_ok, pure_run_ok, ask_run_ok] at h
  obtain ⟨_, _, ⟨hcheck, rfl⟩, _, c₁, hsync, _, _, ⟨hp, rfl⟩, rfl, rfl⟩ := h
  obtain ⟨g, hstate⟩ := syncTo_reads hsync
  have hg : c₁.context.group = .ok g := Context.group_of_reading hstate
  simp only [hg, bind_eq_ok, Except.ok.injEq, exists_eq_left'] at hp
  exact ⟨rfl, checkEnvelope_eq_ok hcheck, g, hstate, Payload.seen hp⟩

/-! Answers -/

theorem handBack_shows {t : Table} {f : Request.Found} {r : Response}
    (h : c.handBack t f = .ok r) : ∀ e ∈ r.envelope?, c.context.Shows e := by
  cases f with
  | row index? =>
      cases index? with
      | none =>
          simp only [handBack, Except.ok.injEq] at h
          subst h
          simp [Response.envelope?]
      | some index =>
          simp only [handBack, map_eq_ok] at h
          obtain ⟨e, he, rfl⟩ := h
          intro e' he'
          obtain rfl := Option.some.inj he'
          exact (enclose_eq_ok he).2
  | view v =>
      simp only [handBack, map_eq_ok] at h
      obtain ⟨e, he, rfl⟩ := h
      intro e' he'
      obtain rfl := Option.some.inj he'
      exact (enclose_eq_ok he).2
  | count n | value v =>
      simp only [handBack, Except.ok.injEq] at h
      subst h
      simp [Response.envelope?]

theorem evaluate_shows {q : Query} {request : Request} {r : Response}
    (h : c.evaluate q request = .ok r) : ∀ e ∈ r.envelope?, c.context.Shows e := by
  simp only [evaluate, bind_eq_ok] at h
  obtain ⟨g, -, t, -, f, -, hr⟩ := h
  exact handBack_shows hr

theorem endReadOnError_run_ok {α : Type} {body : Action α} {x : α}
    (h : endReadOnError body c = .ok x c') : body c = .ok x c' := by
  unfold endReadOnError at h
  split at h
  next hb => exact hb.trans h
  next => split at h <;> simp at h

/-- The query of an envelope is taken over as it is. -/
theorem importQuery_run_ok {q : Query} (h : importQuery e c = .ok q c') :
    e.payload = .query q := by
  simp only [importQuery, bind_run_ok] at h
  obtain ⟨p, c₁, himport, h⟩ := h
  obtain ⟨rfl, -, -⟩ := importAs_run_ok himport
  cases hp : e.payload with
  | query q' =>
      simp only [hp, pure_run_ok] at h
      rw [h.1]
  | row | view =>
      simp only [hp] at h
      exact absurd h throw_run_ok

/-- The response of a run is to the query in the envelope, evaluated where the context is left. -/
theorem runQuery_evaluates {request : Request} {v : Version} {r : Response}
    (h : runQuery e request c = .ok (v, r) c') :
    ∃ q, e.payload = .query q ∧ c'.evaluate q request = .ok r := by
  simp only [runQuery, bind_run_ok] at h
  obtain ⟨_, _, -, _, _, -, historical, c₁, -, h⟩ := h
  have hbody := endReadOnError_run_ok h
  simp only [bind_run_ok] at hbody
  obtain ⟨q, c₂, himport, hbody⟩ := hbody
  refine ⟨q, importQuery_run_ok himport, ?_⟩
  split at hbody
  · simp only [bind_run_ok, ask_run_ok, pure_run_ok] at hbody
    obtain ⟨a, c₃, -, _, _, ⟨-, rfl⟩, r', _, ⟨hr, rfl⟩, v', _, ⟨-, rfl⟩, he, rfl⟩ := hbody
    obtain ⟨-, rfl⟩ := Prod.mk.inj he
    exact hr
  · simp only [bind_run_ok, ask_run_ok, pure_run_ok] at hbody
    obtain ⟨r', _, ⟨hr, rfl⟩, v', _, ⟨-, rfl⟩, he, rfl⟩ := hbody
    obtain ⟨-, rfl⟩ := Prod.mk.inj he
    exact hr

theorem runQuery_shows {request : Request} {v : Version} {r : Response}
    (h : runQuery e request c = .ok (v, r) c') : ∀ e' ∈ r.envelope?, c'.context.Shows e' := by
  obtain ⟨q, -, hr⟩ := runQuery_evaluates h
  exact evaluate_shows hr

/-- So are the queries of a batch, each with its request. -/
theorem importQueries_run_ok {items : List BatchItem} {asks : List (Query × Request)}
    (h : (items.mapM fun item => return (← importQuery item.envelope, item.request) :
      Action (List (Query × Request))) c = .ok asks c') :
    List.Forall₂ (fun item ask => item.envelope.payload = .query ask.1 ∧ item.request = ask.2)
      items asks := by
  induction items generalizing c asks with
  | nil =>
      rw [List.mapM_nil] at h
      obtain ⟨rfl, -⟩ := pure_run_ok.mp h
      exact .nil
  | cons item items ih =>
      rw [List.mapM_cons] at h
      simp only [bind_run_ok, pure_run_ok] at h
      obtain ⟨_, _, ⟨q, c₁, himport, rfl, rfl⟩, asks', _, hrest, rfl, rfl⟩ := h
      exact .cons ⟨importQuery_run_ok himport, rfl⟩ (ih hrest)

/-- The responses of a batch are to the queries in its envelopes, in their order. -/
theorem runBatch_evaluates {items : List BatchItem} {v : Version} {rs : List Response}
    (h : runBatch items c = .ok (v, rs) c') :
    List.Forall₂ (fun item r => ∃ q, item.envelope.payload = .query q ∧
      c'.evaluate q item.request = .ok r) items rs := by
  simp only [runBatch, bind_run_ok] at h
  obtain ⟨_, _, -, _, _, -, _, c₁, -, h⟩ := h
  have hbody := endReadOnError_run_ok h
  rw [bind_run_ok] at hbody
  obtain ⟨asks, c₂, himport, hbody⟩ := hbody
  simp only [bind_run_ok, ask_run_ok, pure_run_ok] at hbody
  obtain ⟨a, c₃, -, _, _, ⟨-, rfl⟩, rs', _, ⟨hrs, rfl⟩, v', _, ⟨-, rfl⟩, he, rfl⟩ := hbody
  obtain ⟨-, rfl⟩ := Prod.mk.inj he
  refine (forall₂_trans (importQueries_run_ok himport) (mapM_eq_ok_iff.mp hrs)).imp ?_
  rintro item r ⟨⟨q, request⟩, ⟨hq, hrequest⟩, hr⟩
  exact ⟨q, hq, hrequest ▸ hr⟩

theorem evaluates_of_mem_runBatch {items : List BatchItem} {v : Version} {rs : List Response}
    (h : runBatch items c = .ok (v, rs) c') :
    ∀ r ∈ rs, ∃ q request, c'.evaluate q request = .ok r := by
  have hall := runBatch_evaluates h
  intro r hr
  obtain ⟨i, hi, rfl⟩ := List.getElem_of_mem hr
  obtain ⟨q, -, hq⟩ := hall.get (hall.length_eq ▸ hi) hi
  exact ⟨q, _, hq⟩

theorem runBatch_shows {items : List BatchItem} {v : Version} {rs : List Response}
    (h : runBatch items c = .ok (v, rs) c') :
    ∀ r ∈ rs, ∀ e ∈ r.envelope?, c'.context.Shows e := by
  intro r hr
  obtain ⟨q, request, hq⟩ := evaluates_of_mem_runBatch h r hr
  exact evaluate_shows hq

end Connection
end SnapshotStore
