import SnapshotStore.Proofs.Handle
import SnapshotStore.Proofs.Service.Lasting
import SnapshotStore.Proofs.Service.Target

/-!
Handle identity. While its session stays open, a handle stands for what was named when it was
issued, unless that was given up with the write in which it came to be; then the handle can
only come to stand for something newer.
-/

namespace SnapshotStore

namespace Workspace
variable {w : Workspace} {c : Call} {kind : HandleKind} {x : Subject} {out : Outcome}
  {w' : Workspace} {h : UInt64}

/-- Every object is in a slot whose number fits a handle. -/
def Addressable (w : Workspace) : Prop :=
  ∀ kind slot, ((w.shelf kind).held slot).isSome → slot < 0x100000000

theorem Stocked.generation_lt (hw : w.Stocked) (kind : HandleKind) (slot : Nat) :
    (w.shelf kind).generation slot < 0x1000000 := by
  cases kind with
  | table => exact (Arena.generation_bounds hw.tables.tidy slot).2
  | row => exact (Arena.generation_bounds hw.rows.tidy slot).2
  | query => exact (Arena.generation_bounds hw.queries.tidy slot).2
  | view => exact (Arena.generation_bounds hw.views.tidy slot).2
  | linkList => exact (Arena.generation_bounds hw.lists.tidy slot).2
  | envelope => exact (Arena.generation_bounds hw.envelopes.tidy slot).2

theorem Names.kind_ne (hx : w.Names c kind x) : kind ≠ .envelope := by
  cases hx <;> simp

theorem call_tableName (hc : call (.tableName h) w = .ok out w') :
    ∃ t, w.session.table h = .ok t ∧ out.reply = .text t.name := by
  obtain ⟨operation, hplan, hp⟩ := call_ok_iff.mp hc
  simp only [Session.plan, Session.planRead, bind_eq_ok, pure_eq_ok] at hplan
  obtain ⟨t, ht, _, rfl, rfl⟩ := hplan
  simp only [Operation.perform, bind_run_ok, pure_run_ok, pass_run_ok, Except.ok.injEq] at hp
  obtain ⟨_, _, -, _, _, ⟨rfl, -⟩, rfl, -⟩ := hp
  exact ⟨t, ht, rfl⟩

end Workspace

namespace Service
variable {settings : Settings} {s s₁ s₂ : Service} {b b₂ : Notebook} {n : Nat}
  {session session₁ session₂ : Session} {c : Call} {kind : HandleKind} {x y : Subject}
  {out : Outcome} {raw : UInt64} {slot g : Nat} {spared : Prop} {l : Label}

/-- The handle of a mark still stands for the subject of the label, if for anything. -/
theorem Kept.marked (hk : Kept settings s b) (hs : s.sessions.get? n = some session)
    (hm : Marks (s.workspace session) b spared n kind slot g l) (hkind : kind ≠ .envelope)
    (hslot : slot < 0x100000000) (hg : g < 0x1000000)
    (hy : session.Targets kind (Handle.ofParts kind slot g).encode y) :
    y = l.subject ∧ ∃ l', b.label? n (Handle.ofParts kind slot g).encode = some l' ∧
      l.Ages spared l' ∧ l'.Timely b.chronicle.now ∧
      session.context.group = .ok (b.edition n session).group ∧
      ∃ i, (b.edition n session).group.sight? y = some i ∧ l'.Tells (b.edition n session) i := by
  have hn := fun g => hk.numbered hs g
  obtain ⟨k, o, g', hmeets⟩ := Workspace.meets_of_targets (w := s.workspace session)
    (hk.stocked n session hs) hn hy
  -- The handle leads back to the slot and the generation that it was made from.
  obtain ⟨hk₁, hk₂, hk₃⟩ := Handle.ofParts_fields kind hslot hg
  have hdecode := Handle.decode?_encode (Handle.ofParts kind slot g)
  obtain rfl := Option.some.inj (hdecode.symm.trans hmeets.decode)
  have hheld := hmeets.held
  have hgen := (Shelf.agrees _ _ o hheld).symm.trans hmeets.generation
  rw [hk₂] at hheld hgen
  rw [hk₃] at hgen
  obtain ⟨hvisible, -⟩ := hk.sound.visible (world_context? hs) hmeets.group
  obtain ⟨i, hi⟩ := Option.isSome_iff_exists.mp hmeets.seen
  obtain ⟨hsubject, htimely, htells⟩ := hk.meets hs hmeets hkind hi
  rw [hk₂] at hsubject htimely htells
  rcases hm with hlt | ⟨-, -, hages⟩
  · exact absurd hgen (Nat.ne_of_gt hlt)
  · refine ⟨hsubject.symm.trans hages.subject, _, ?_, hages, htimely, ?_, i, ?_, htells⟩
    · rw [Notebook.label?, hdecode, Option.map_some, hk₁, hk₂]
    · exact hmeets.group.trans (congrArg Except.ok hvisible.symm)
    · exact (congrArg (Group.sight? · y) hvisible).trans hi

/-- The handle of a new object marks it. -/
theorem Kept.issued_marks (hk : Kept settings s b) (hs : s.sessions.get? n = some session)
    (named : (s.workspace session).Names c kind x) (issued : s.call n c = some (.ok out, s₁))
    (hs₁ : s₁.sessions.get? n = some session₁) (room : (s₁.workspace session₁).Addressable)
    (spared : Prop) : ∃ slot g l, out.reply = .handle (Handle.ofParts kind slot g).encode ∧
      slot < 0x100000000 ∧ g < 0x1000000 ∧
      l = .of ((s.observe b (.call n c)).edition n session₁)
        (s.observe b (.call n c)).chronicle.now x ∧
      Marks (s₁.workspace session₁) (s.observe b (.call n c)) spared n kind slot g l := by
  obtain ⟨raw, slot, o, session', hreply, rfl, hs', ho, hlabel⟩ := hk.issue hs named issued
  obtain rfl := Option.some.inj (hs₁.symm.trans hs')
  obtain ⟨w', -, -, hmake, -⟩ := call_eq_ok hs issued
  have hk₁ := hmake ▸ hk.call n c
  have hgen := Shelf.agrees _ slot o ho
  have hheld := Option.isSome_iff_exists.mpr ⟨o, ho⟩
  refine ⟨slot, o.generation, _, hreply, room kind slot hheld, ?_, hlabel, ?_⟩
  · exact hgen ▸ (hk₁.stocked n session₁ hs₁).generation_lt kind slot
  · exact .inr ⟨hgen.symm, hheld, .refl _ _⟩

/-- While its session stays open, every call on a handle that succeeds acts on what was named
when the handle was issued. If that was given up with the write in which it came to be, the
call acts on something newer; without such a rollback nothing is. -/
theorem Reachable.handle_identity {moves : List Move} (h : Reachable settings s b)
    (hs : s.sessions.get? n = some session) (named : (s.workspace session).Names c kind x)
    (issued : s.call n c = some (.ok out, s₁)) (hs₁ : s₁.sessions.get? n = some session₁)
    (room : (s₁.workspace session₁).Addressable) (lasts : Lasts n s₁ moves)
    (ran : s₁.run (s.observe b (.call n c)) moves = (s₂, b₂))
    (hs₂ : s₂.sessions.get? n = some session₂) : ∃ raw, out.reply = .handle raw ∧
      ∀ c₂ out₂ s₃, c₂.target? = some (kind, raw) → s₂.call n c₂ = some (.ok out₂, s₃) →
        session₂.Targets kind raw x ∧
        session₂.context.group = .ok (b₂.edition n session₂).group ∧
        (c₂ = .tableName raw → ∃ name, out₂.reply = .text name ∧
          (b₂.edition n session₂).group.sight? x = some (.table name)) ∧
        ∃ l, b₂.label? n raw = some l ∧
          ((∀ m ∈ moves, m.Spares n) → l.lost = false) ∧
          if l.lost then
            ((s.observe b (.call n c)).edition n session₁).births x <
              (b₂.edition n session₂).births x
          else
            (b₂.edition n session₂).births x =
                ((s.observe b (.call n c)).edition n session₁).births x ∧
              (b₂.edition n session₂).group.sight? x =
                ((s.observe b (.call n c)).edition n session₁).group.sight? x := by
  have hk := h.kept
  have hkind := named.kind_ne
  obtain ⟨slot, g, l₁, hreply, hslot, hg, rfl, hm⟩ :=
    hk.issued_marks hs named issued hs₁ room (∀ m ∈ moves, m.Spares n)
  obtain ⟨w', -, -, hmake, -⟩ := call_eq_ok hs issued
  have hk₁ : Kept settings s₁ (s.observe b (.call n c)) := hmake ▸ hk.call n c
  obtain ⟨session', hs', hm₂⟩ := hk₁.lasts hs₁ lasts hkind id hm
  have hk₂ := hk₁.run moves
  rw [ran] at hs' hm₂ hk₂
  obtain rfl := Option.some.inj (hs₂.symm.trans hs')
  refine ⟨_, hreply, fun c₂ out₂ s₃ ht hc₂ => ?_⟩
  obtain ⟨w₂, hw₂, -⟩ := call_eq_ok hs₂ hc₂
  obtain ⟨operation, hplan, -⟩ := Workspace.call_ok_iff.mp hw₂
  obtain ⟨y, hy⟩ := Session.plan_targets ht hplan
  obtain ⟨rfl, l, hl, hages, htimely, hgroup, i, hi, htells⟩ :=
    hk₂.marked hs₂ hm₂ hkind hslot hg hy
  refine ⟨hy, hgroup, ?_, l, hl, fun hspares => hages.spared hspares, ?_⟩
  · rintro rfl
    obtain ⟨t, htable, hreply₂⟩ := Workspace.call_tableName hw₂
    obtain ⟨rfl, -⟩ := Prod.mk.inj (Option.some.inj ht)
    have hkey := (hk₂.marked hs₂ hm₂ hkind hslot hg (.table htable)).1
    simp only [Label.of] at hkey
    obtain ⟨g', hg', ht'⟩ := Session.table_seen (fun g => hk₂.numbered hs₂ g) htable
    obtain rfl := Except.ok.inj (hgroup.symm.trans hg')
    exact ⟨t.name, hreply₂, hkey ▸ Group.sight?_table ht'⟩
  · unfold Label.Tells at htells
    rw [hages.subject] at htells
    split at htells
    next hlost =>
      rw [if_pos hlost]
      have hbirth := htimely.birth
      rw [hages.birth] at hbirth
      exact Nat.lt_of_lt_of_le hbirth htells
    next hlost =>
      rw [if_neg hlost]
      obtain ⟨hbirth, hsight⟩ := htells
      refine ⟨hbirth.trans hages.birth, ?_⟩
      rw [hi, ← hsight, hages.sight]
      rfl

/-- A table that its session publishes, before it catches up with another session. -/
theorem handle_identity_across_commits : ∃ (b : Notebook) (session : Session) (l : Label),
    session.Targets .table 0x100000100000000 (.table 1) ∧
    (b.edition 1 session).group.sight? (.table 1) = some (.table "x") ∧
    b.label? 1 0x100000100000000 = some l ∧ l.lost = false := by
  have h := unused_reachable [.openSession 1, .openSession 2, .call 1 (.transact .beginWrite)]
  obtain ⟨raw, hraw, huse⟩ := h.handle_identity (n := 1) (c := .addTable "x") rfl
    (.newTable rfl rfl) rfl rfl
    (by
      intro kind slot hheld
      cases kind <;> rcases slot with _ | slot <;>
        first | exact of_decide_eq_true rfl | exact absurd hheld Bool.false_ne_true)
    (show Lasts 1 _ [.call 1 (.transact .commitAndRead), .call 2 (.transact .beginWrite),
        .call 2 (.addTable "y"), .call 2 (.transact .commit),
        .call 1 (.transact (.advance none))] by
      refine ⟨id, ?_, id, ?_, id, ?_, id, ?_, id, ?_, trivial⟩ <;>
        · rintro session session' ⟨⟩ ⟨⟩ kind slot
          cases kind <;> exact Nat.le_refl _)
    rfl rfl
  obtain rfl := Reply.handle.inj hraw
  obtain ⟨htarget, -, hname, l, hl, hspared, -⟩ := huse (.tableName _) _ _ rfl rfl
  obtain ⟨name, hreply, hsight⟩ := hname rfl
  obtain rfl := Reply.text.inj hreply
  exact ⟨_, _, l, htarget, hsight, hl, hspared (by simp [Move.Spares])⟩

/-- The exception. A table is given up with the write in which it was created, and the next one
gets its key: the handle of the first table has the name of the second. -/
theorem renamed_by_rollback : ∃ s b s' b' raw,
    Reachable {} s b ∧
    s.run b [.call 1 (.transact .rollbackAndRead), .call 1 (.transact .promote),
      .call 1 (.addTable "y")] = (s', b') ∧
    Lasts 1 s [.call 1 (.transact .rollbackAndRead), .call 1 (.transact .promote),
      .call 1 (.addTable "y")] ∧
    (s.call 1 (.tableName raw)).map (·.1) = some (.ok ⟨.text "x", none⟩) ∧
    (s'.call 1 (.tableName raw)).map (·.1) = some (.ok ⟨.text "y", none⟩) := by
  have h := unused_reachable [.openSession 1, .call 1 (.transact .beginWrite),
    .call 1 (.addTable "x")]
  refine ⟨_, _, _, _, 0x100000100000000, h, rfl, ?_, rfl, rfl⟩
  refine ⟨id, ?_, id, ?_, id, ?_, trivial⟩
  · rintro session session' ⟨⟩ ⟨⟩ kind slot
    cases kind <;> exact Nat.le_refl _
  · rintro session session' ⟨⟩ ⟨⟩ kind slot
    cases kind <;> exact Nat.le_refl _
  · rintro session session' ⟨⟩ ⟨⟩ kind slot
    cases kind <;> rcases slot with _ | _ | slot <;> exact Nat.le_refl _

end Service
end SnapshotStore
