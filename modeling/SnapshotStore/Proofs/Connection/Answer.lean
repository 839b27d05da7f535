import SnapshotStore.Proofs.Changes
import SnapshotStore.Proofs.Connection.Step
import SnapshotStore.Proofs.Outcome
import SnapshotStore.Proofs.Complaints

/-!
Answers: what a request yields when it is put to one version directly, and how a context that
reads the version comes to the same.
-/

namespace SnapshotStore

/-! What was found -/

namespace Request

/-- What was found is in the table. -/
def Found.In (t : Table) : Found → Prop
  | .row index? => ∀ i ∈ index?, i < t.size
  | .view v => v.table = t.key ∧ v.schemaEpoch = t.schemaEpoch
  | .count _ | .value _ => True

/-- What was found in a table of a version, rows and views in envelopes. -/
def Found.response (store : String) (v : Version) (t : Table) : Found → Response
  | .row index? => .row (index?.map fun index => ⟨.row (.ofRow t index), v, store, .move⟩)
  | .view w => .view ⟨.view w, v, store, .move⟩
  | .count n => .count n
  | .value x => .value x

/-- The answer of a version that the request is put to directly. -/
def answer (r : Request) (q : Query) (store : String) (v : Version) (g : Group) :
    Except Error Response :=
  match g.table? q.table with
  | some t => (r.evaluateOn q t).map (·.response store v t)
  | none => .error (.schemaChanged "Query" (TableKey.text q.table))

end Request

theorem Query.check_eq_ok {q : Query} {t : Table} (h : q.check t = .ok ()) :
    t.key = q.table ∧ t.schemaEpoch = q.schemaEpoch := by
  unfold check at h
  split at h
  · simp at h
  next hkey =>
    split at h
    · simp at h
    next hepoch => exact ⟨Decidable.not_not.mp hkey, Decidable.not_not.mp hepoch⟩

/-- On a table that it suits, a query is checked by its predicate alone. -/
theorem Query.check_of_suits {q : Query} {t : Table} (hkey : t.key = q.table)
    (hepoch : t.schemaEpoch = q.schemaEpoch) : q.check t = q.predicate.check t := by
  rw [check, if_neg (not_not.mpr hkey), if_neg (not_not.mpr hepoch)]

theorem Query.check_predicate {q : Query} {t : Table} (h : q.check t = .ok ()) :
    q.predicate.check t = .ok () := by
  obtain ⟨hkey, hepoch⟩ := check_eq_ok h
  rwa [check_of_suits hkey hepoch] at h

theorem View.ofQuery_eq_ok {q : Query} {t : Table} {w : Window} {v : View}
    (h : View.ofQuery t q w = .ok v) : v.table = t.key ∧ v.schemaEpoch = t.schemaEpoch := by
  simp only [View.ofQuery, bind_eq_ok, pure_eq_ok] at h
  obtain ⟨rows, -, rfl⟩ := h
  exact ⟨rfl, rfl⟩

namespace Request
variable {r : Request} {q : Query} {t : Table} {f : Found}

/-- Every request starts with the check of its query. -/
theorem evaluateOn_check (h : r.evaluateOn q t = .ok f) : q.check t = .ok () := by
  cases r with
  | find | findAll | findAllSorted | distinct | count | aggregate =>
      simp only [evaluateOn, bind_eq_ok] at h
      obtain ⟨u, hu, -⟩ := h
      exact hu

theorem evaluateOn_error {e : Error} (h : q.check t = .error e) :
    r.evaluateOn q t = .error e := by
  cases r with
  | find | findAll | findAllSorted | distinct | count | aggregate =>
      rw [evaluateOn, h]
      rfl

/-- Rows that a query finds can always be sorted. -/
theorem evaluateOn_sorted {start stop limit : Int} {keys : List (Int × Bool)}
    (h : (Request.findAllSorted start stop limit keys).evaluateOn q t = .ok f) :
    ∃ w ks v, View.ofQuery t q w = .ok v ∧
      f = .view { v with rows := SortKey.sort t ks v.rows, sortKeys? := some ks } := by
  simp only [evaluateOn, bind_eq_ok, pure_eq_ok] at h
  obtain ⟨_, -, w, -, ks, -, v, hv, _, -, rfl⟩ := h
  have ha : v.isAttached t = true := by simp [View.isAttached, View.ofQuery_eq_ok hv]
  exact ⟨w, ks, v, hv, by rw [View.sort_of_within ha (View.ofQuery_within hv)]⟩

theorem evaluateOn_in (h : r.evaluateOn q t = .ok f) : f.In t := by
  cases r with
  | find start =>
      simp only [evaluateOn, Query.find, bind_eq_ok, pure_eq_ok] at h
      obtain ⟨_, -, i, -, _, ⟨_, -, rfl⟩, rfl⟩ := h
      intro i hi
      exact Query.matching_lt (List.mem_of_mem_head? hi)
  | findAll start stop limit =>
      simp only [evaluateOn, bind_eq_ok, pure_eq_ok] at h
      obtain ⟨_, -, w, -, v, hv, rfl⟩ := h
      exact View.ofQuery_eq_ok hv
  | findAllSorted start stop limit keys =>
      obtain ⟨w, ks, v, hv, rfl⟩ := evaluateOn_sorted h
      have hshape := View.ofQuery_eq_ok hv
      exact hshape
  | distinct column =>
      simp only [evaluateOn, View.distinct, bind_eq_ok, pure_eq_ok] at h
      obtain ⟨_, -, c, -, _, -, v, hv, _, ⟨_, -, _, -, cells, -, rfl⟩, rfl⟩ := h
      have hshape := View.ofQuery_eq_ok hv
      exact hshape
  | count start stop limit =>
      simp only [evaluateOn, bind_eq_ok, pure_eq_ok] at h
      obtain ⟨_, -, w, -, n, -, rfl⟩ := h
      trivial
  | aggregate kind column =>
      simp only [evaluateOn, bind_eq_ok, pure_eq_ok] at h
      obtain ⟨_, -, c, -, x, -, rfl⟩ := h
      trivial

variable {g : Group} {store : String} {v : Version}

/-- A version that does not have the table of the query with its columns has no answer. -/
theorem answer_of_not_keeps (hg : g.Numbered) (h : ¬g.keeps q.table q.schemaEpoch) :
    r.answer q store v g = .error (.schemaChanged "Query"
      (((g.table? q.table).map (·.name)).getD (TableKey.text q.table))) := by
  unfold answer
  cases ht : g.table? q.table with
  | none => rfl
  | some t =>
      have hkey : t.key = q.table := (hg.tables q.table t ht).1.key
      have hepoch : t.schemaEpoch ≠ q.schemaEpoch := fun he => h (Group.keeps_iff.mpr ⟨t, ht, he⟩)
      have hcheck : q.check t = .error (.schemaChanged "Query" t.name) := by
        rw [Query.check, if_neg (Decidable.not_not.mpr hkey), if_pos hepoch]
      simp only [evaluateOn_error hcheck]
      rfl

theorem answer_eq_ok {x : Response} : r.answer q store v g = .ok x ↔
    ∃ t f, g.table? q.table = some t ∧ t.schemaEpoch = q.schemaEpoch ∧
      r.evaluateOn q t = .ok f ∧ x = f.response store v t := by
  unfold answer
  constructor
  · intro h
    split at h
    next t ht =>
      obtain ⟨f, hf, rfl⟩ := map_eq_ok.mp h
      exact ⟨t, f, ht, (Query.check_eq_ok (evaluateOn_check hf)).2, hf, rfl⟩
    next => simp at h
  · rintro ⟨t, f, ht, -, hf, rfl⟩
    simp only [ht]
    exact map_eq_ok.mpr ⟨f, hf, rfl⟩

theorem answer_complains (r : Request) (q : Query) (store : String) (v : Version) (g : Group) :
    Complains (r.answer q store v g) := by
  unfold answer
  split
  next t _ => exact (r.evaluateOn_complains q t).map _
  next => exact .error rfl

end Request

/-! A context that reads the version -/

namespace Connection
variable {c : Connection} {v : Version} {g : Group} {t : Table}

theorem enclose_of_check {p : Payload} (hc : c.context.state = .reading v g)
    (hp : p.check g = .ok ()) (policy : HandoverPolicy) :
    c.enclose p policy = .ok ⟨p, v, c.store.id, policy⟩ := by
  simp only [enclose, hc, hp]
  rfl

/-- What was found in a table that the context reads can be handed back. -/
theorem handBack_eq (hc : c.context.state = .reading v g) (ht : g.table? t.key = some t)
    (hsize : t.rowIds.length = t.rows.length) {f : Request.Found} (hf : f.In t) :
    c.handBack t f = .ok (f.response c.store.id v t) := by
  cases f with
  | row index? =>
      cases index? with
      | none => rfl
      | some i =>
          have hlt : i < t.rows.length := hf i rfl
          have hp : (Payload.row (.ofRow t i)).check g = .ok () := by
            obtain ⟨id, hid⟩ : ∃ id, t.rowId? i = some id :=
              ⟨_, List.getElem?_eq_getElem (hsize.symm ▸ hlt)⟩
            have hsuits : (Payload.row (.ofRow t i)).suits t = true := by
              simp [Payload.suits, Payload.schemaEpoch, RowLocator.indexIn?, RowLocator.ofRow,
                Table.findRow?, hid]
            change (if (g.table? t.key).any (Payload.row (.ofRow t i)).suits then _ else _) = _
            rw [ht, Option.any_some, hsuits, if_pos rfl]
          simp only [handBack, enclose_of_check hc hp]
          rfl
  | view w =>
      obtain ⟨hkey, hepoch⟩ := hf
      have hp : (Payload.view w).check g = .ok () := by
        simp [Payload.check, Payload.table, Payload.suits, Payload.schemaEpoch, hkey, hepoch, ht]
      simp only [handBack, enclose_of_check hc hp]
      rfl
  | count n | value x => rfl

/-- A context that reads a version with the table of the query gives the version's answer. -/
theorem evaluate_eq {q : Query} (hc : c.context.state = .reading v g) (hg : g.Numbered)
    (ht : g.table? q.table = some t) (r : Request) :
    c.evaluate q r = r.answer q c.store.id v g := by
  obtain ⟨hkey, -, hsize⟩ := (hg.tables q.table t ht).1
  have hrequire : g.requireTable q.table = .ok t := by simp only [Group.requireTable, ht]
  simp only [evaluate, Context.group_of_reading hc, hrequire, Request.answer, ht, bind, Except.bind]
  cases hf : r.evaluateOn q t with
  | error e => rfl
  | ok f => exact handBack_eq hc (hkey ▸ ht) hsize (Request.evaluateOn_in hf)

end Connection
end SnapshotStore
