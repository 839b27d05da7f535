import SnapshotStore.Proofs.Exports

/-!
A batch against its parts. The worker of a batch prepares all queries before it evaluates the
first, and moves on only once; still it comes to what a run of each item from where it started
comes to.
-/

namespace SnapshotStore

/-! What a version answers to an item -/

/-- The version gives the answer to the request of the item, put to its query directly. -/
def BatchItem.Yields (store : String) (v : Version) (g : Group) (item : BatchItem)
    (x : Response) : Prop :=
  ∃ q, item.envelope.payload = .query q ∧ item.request.answer q store v g = .ok x

namespace Request
variable {asks : List (Query × Request)} {store : String} {v : Version} {g : Group}
  {xs : List Response}

/-- Whatever was found, it is handed back with the version it was found in. -/
theorem Found.response_version (f : Found) (t : Table) :
    ∀ e ∈ (f.response store v t).envelope?, e.version = v := by
  cases f with
  | row index? => cases index? <;> simp [Found.response, Response.envelope?]
  | view w => simp [Found.response, Response.envelope?]
  | count n | value x => simp [Found.response, Response.envelope?]

theorem answer_version {r : Request} {q : Query} {x : Response}
    (h : r.answer q store v g = .ok x) : ∀ e ∈ x.envelope?, e.version = v := by
  obtain ⟨t, f, -, -, -, rfl⟩ := answer_eq_ok.mp h
  exact f.response_version t

/-- A query that gets an answer is one that the check before the answers lets pass. -/
theorem checkKept_of_answer (hg : g.Numbered) {r : Request} {q : Query} {x : Response}
    (h : r.answer q store v g = .ok x) : q.checkKept g = .ok () := by
  unfold Query.checkKept
  by_cases hk : g.keeps q.table q.schemaEpoch
  · exact if_pos hk
  · rw [answer_of_not_keeps hg hk] at h
    simp at h

theorem answers_eq_ok (hg : g.Numbered) : answers asks store v g = .ok xs ↔
    List.Forall₂ (fun ask x => ask.2.answer ask.1 store v g = .ok x) asks xs := by
  simp only [answers, bind_eq_ok, mapM_eq_ok_iff]
  constructor
  · rintro ⟨-, -, hanswers⟩
    exact hanswers
  · intro hanswers
    refine ⟨⟨⟩, forM_eq_ok.mpr fun ask hask => ?_, hanswers⟩
    obtain ⟨x, hx⟩ := exists_forall₂_iff.mp ⟨xs, hanswers⟩ ask hask
    exact checkKept_of_answer hg hx

end Request

namespace Connection
variable {ch : Chronicle} {c : Connection} {items : List BatchItem} {v u : Version} {gl : Group}

theorem Asks.answers_iff {asks : List (Query × Request)} {xs : List Response}
    (h : Asks items asks) (store : String) (g : Group) :
    List.Forall₂ (fun ask x => ask.2.answer ask.1 store v g = .ok x) asks xs ↔
      List.Forall₂ (BatchItem.Yields store v g) items xs := by
  rw [Asks, ← List.forall₂_eq_eq_eq, List.forall₂_map_left_iff, List.forall₂_map_right_iff] at h
  induction h generalizing xs with
  | nil => simp
  | @cons item ask items asks hitem _ ih =>
      obtain ⟨hquery, hrequest⟩ := Prod.mk.inj hitem
      have hyields : ∀ x, ask.2.answer ask.1 store v g = .ok x ↔ item.Yields store v g x := by
        intro x
        simp only [BatchItem.Yields, hquery, hrequest, Payload.query.injEq, exists_eq_left']
      simp only [List.forall₂_cons_left_iff, hyields, ih]

/-! Parts and wholes -/

/-- A run is good if the version of the export is still kept and the latest version has an
answer. -/
theorem runQuery_eq_ok (hc : c.Ready ch) {item : BatchItem} {q : Query}
    (he : item.envelope.Genuine ch c.store.id q)
    (hgl : Version.nth? ch.groups c.store.latest = some gl) {x : Response} :
    (∃ c', runQuery item.envelope item.request c = .ok (u, x) c') ↔
      (c.close.snapshots.get? item.envelope.version).isSome ∧ u = c.store.latest ∧
        item.Yields c.store.id c.store.latest gl x := by
  by_cases kept : (c.close.snapshots.get? item.envelope.version).isSome
  · rw [(runQuery_of_kept hc he kept hgl item.request).ok_iff, and_iff_right kept]
    simp only [map_eq_ok, BatchItem.Yields, he.query, Payload.query.injEq, exists_eq_left',
      Prod.mk.injEq]
    constructor
    · rintro ⟨y, hy, rfl, rfl⟩
      exact ⟨rfl, hy⟩
    · rintro ⟨rfl, hx⟩
      exact ⟨x, hx, rfl, rfl⟩
  · obtain ⟨e, c₁, herror, -⟩ :=
      runQuery_of_not_kept hc he (Option.not_isSome_iff_eq_none.mp kept) item.request
    simp [herror, kept]

theorem runBatch_eq_ok (hc : c.Ready ch) (hne : items ≠ []) (h : Uniform ch c.store.id v items)
    (hgl : Version.nth? ch.groups c.store.latest = some gl) {xs : List Response} :
    (∃ c', runBatch items c = .ok (u, xs) c') ↔ (c.close.snapshots.get? v).isSome ∧
      u = c.store.latest ∧
        List.Forall₂ (BatchItem.Yields c.store.id c.store.latest gl) items xs := by
  by_cases kept : (c.close.snapshots.get? v).isSome
  · obtain ⟨asks, hasks, hrun⟩ := runBatch_of_kept hc hne h kept hgl
    rw [hrun.ok_iff, and_iff_right kept, ← hasks.answers_iff,
      ← Request.answers_eq_ok (hc.chronicle.numbered hgl), map_eq_ok]
    simp only [Prod.mk.injEq]
    constructor
    · rintro ⟨ys, hys, rfl, rfl⟩
      exact ⟨rfl, hys⟩
    · rintro ⟨rfl, hxs⟩
      exact ⟨xs, hxs, rfl, rfl⟩
  · obtain ⟨e, c₁, herror, -⟩ :=
      runBatch_of_not_kept hc hne h (Option.not_isSome_iff_eq_none.mp kept)
    simp [herror, kept]

/-- A batch comes to what the runs of its items come to, each on its own. -/
theorem runBatch_eq_ok_iff_runs (hc : c.Ready ch) (hne : items ≠ [])
    (h : Uniform ch c.store.id v items)
    (hgl : Version.nth? ch.groups c.store.latest = some gl) {xs : List Response} :
    (∃ c', runBatch items c = .ok (u, xs) c') ↔ List.Forall₂
      (fun item x => ∃ c', runQuery item.envelope item.request c = .ok (u, x) c') items xs := by
  have hruns : ∀ item ∈ items, ∀ x,
      (∃ c', runQuery item.envelope item.request c = .ok (u, x) c') ↔
        ((c.close.snapshots.get? v).isSome ∧ u = c.store.latest) ∧
          item.Yields c.store.id c.store.latest gl x := by
    intro item hitem x
    obtain ⟨rfl, q, hq⟩ := h item hitem
    rw [runQuery_eq_ok hc hq hgl, and_assoc]
  obtain ⟨first, hfirst⟩ := List.exists_mem_of_ne_nil items hne
  rw [runBatch_eq_ok hc hne h hgl, forall₂_congr_of_mem hruns, List.forall₂_and_left, ← and_assoc]
  exact and_congr_left' ⟨fun hkept item _ => hkept, fun hall => hall first hfirst⟩

end Connection

namespace World
variable {settings : Settings} {w : World} {ch : Chronicle}

/-- A batch of queries from one version is good exactly if every one of its items is when it is
run on its own from where the worker stands. Then each item has the answer it would have on its
own, and all answers are from the latest version. -/
theorem Reachable.batch_eq_parts {c : Context} {v : Version} {items : List BatchItem}
    (h : Reachable settings w ch) (hw : c.isWriting = false) (hne : items ≠ [])
    (hitems : ∀ item ∈ items, Exported settings w ch item.envelope ∧ item.envelope.isQuery ∧
      item.envelope.version = v) :
    ((∃ u xs c', Connection.runBatch items ⟨w.store, c⟩ = .ok (u, xs) c') ↔
      ∀ item ∈ items, ∃ u x c',
        Connection.runQuery item.envelope item.request ⟨w.store, c⟩ = .ok (u, x) c') ∧
    ∀ u xs c', Connection.runBatch items ⟨w.store, c⟩ = .ok (u, xs) c' →
      u = w.store.latest ∧
      List.Forall₂ (fun item x => ∃ c',
        Connection.runQuery item.envelope item.request ⟨w.store, c⟩ = .ok (u, x) c') items xs ∧
      ∀ x ∈ xs, ∀ e ∈ x.envelope?, e.version = u := by
  have hs := h.sound
  obtain ⟨g, hg⟩ := hs.store.latest_kept
  have hlatest := hs.store.snapshot hg
  have huniform : Connection.Uniform ch w.store.id v items := fun item hitem => by
    obtain ⟨hexported, hquery, hversion⟩ := hitems item hitem
    obtain ⟨q, hq⟩ := Envelope.isQuery_iff.mp hquery
    exact ⟨hversion, q, hexported.genuine hq⟩
  have hready := hs.ready hw
  have hparts : ∀ u xs, (∃ c', Connection.runBatch items ⟨w.store, c⟩ = .ok (u, xs) c') ↔
      List.Forall₂ (fun item x => ∃ c',
        Connection.runQuery item.envelope item.request ⟨w.store, c⟩ = .ok (u, x) c') items xs :=
    fun _ _ => Connection.runBatch_eq_ok_iff_runs hready hne huniform hlatest
  have hversions : ∀ item ∈ items, ∀ u x,
      (∃ c', Connection.runQuery item.envelope item.request ⟨w.store, c⟩ = .ok (u, x) c') →
        u = w.store.latest := by
    intro item hitem u x hrun
    obtain ⟨-, q, hq⟩ := huniform item hitem
    exact ((Connection.runQuery_eq_ok hready hq hlatest).mp hrun).2.1
  constructor
  · constructor
    · rintro ⟨u, xs, hbatch⟩ item hitem
      obtain ⟨x, hx⟩ := exists_forall₂_iff.mp ⟨xs, (hparts u xs).mp hbatch⟩ item hitem
      exact ⟨u, x, hx⟩
    · intro hruns
      obtain ⟨xs, hxs⟩ := exists_forall₂_iff.mpr fun item hitem => by
        obtain ⟨u, x, hx⟩ := hruns item hitem
        obtain rfl := hversions item hitem u x hx
        exact ⟨x, hx⟩
      exact ⟨w.store.latest, xs, (hparts _ xs).mpr hxs⟩
  · intro u xs c' hbatch
    have hok := (Connection.runBatch_eq_ok hready hne huniform hlatest).mp ⟨c', hbatch⟩
    obtain ⟨-, rfl, hyields⟩ := hok
    refine ⟨rfl, (hparts _ xs).mp ⟨c', hbatch⟩, fun x hx => ?_⟩
    obtain ⟨item, q, -, hanswer⟩ := exists_forall₂_iff.mp ⟨items, hyields.flip⟩ x hx
    exact Request.answer_version hanswer

/-- A worker that reads the version of the export counts the row that was added since, and finds
it, in one batch as in two runs. -/
theorem batch_of_count_and_find : ∃ w ch e c, Exported {} w ch e ∧ w.context? 3 = some c ∧
    c.reads e.version ∧ e.version = 2 ∧ ∃ row c',
      Connection.runBatch [⟨e, .count 0 (-1) (-1)⟩, ⟨e, .find 0⟩] ⟨w.store, c⟩ =
        .ok (3, [.count 1, .row (some row)]) c' ∧
      List.Forall₂ (fun (item : BatchItem) x => ∃ c',
        Connection.runQuery item.envelope item.request ⟨w.store, c⟩ = .ok (3, x) c')
        [⟨e, .count 0 (-1) (-1)⟩, ⟨e, .find 0⟩] [.count 1, .row (some row)] := by
  have ho : Store.openNew "store" {} = .ok _ := rfl
  have he := exported_of_runs ho
    [.connect, .connect, .connect, .transact 1 .beginWrite, .edit 1 (.addTable "t"),
      .transact 1 .commit, .transact 2 (.beginRead none)]
    [.transact 3 (.beginRead none), .transact 1 .beginWrite, .edit 1 (.addRow 1),
      .transact 1 .commit]
    2 (.query ⟨1, 0, .all⟩) .copy rfl rfl rfl
  refine ⟨_, _, _, _, he, rfl, rfl, rfl, _, _, rfl, ?_⟩
  refine ((he.reachable.batch_eq_parts (v := 2) rfl (List.cons_ne_nil _ _) ?_).2 3 _ _ rfl).2.1
  intro item hitem
  obtain rfl | hitem := List.mem_cons.mp hitem
  · exact ⟨he, rfl, rfl⟩
  · obtain rfl := List.mem_singleton.mp hitem
    exact ⟨he, rfl, rfl⟩

end World
end SnapshotStore
