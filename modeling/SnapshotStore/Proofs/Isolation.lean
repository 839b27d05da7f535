import SnapshotStore.Connections
import SnapshotStore.Proofs.World

/-!
Snapshot isolation. Contexts that share a store take turns in any order; every one reads
exactly what was committed as its version, and the versions are a chain of commits in which
each repeats the edits of its own writer on the version before.
-/

namespace SnapshotStore
namespace Connections

/-- What can happen next among contexts that share a store. -/
inductive Move
  | connect
  | disconnect (id : ContextId)
  | transact (id : ContextId) (t : Transition)
  | edit (id : ContextId) (e : Edit)
  | compact

/-- The contexts after a move. A move of a context that is not there changes nothing. -/
def make (cs : Connections) : Move → Connections
  | .connect => cs.connect.2
  | .disconnect id => cs.disconnect id
  | .transact id t => ((cs.act id t.perform).map (·.2)).getD cs
  | .edit id e => ((cs.act id (Connection.edit e)).map (·.2)).getD cs
  | .compact => { cs with store := cs.store.compact.2 }

/-- The chronicle after a move, from what the context answers to it. -/
def note (ch : Chronicle) (cs : Connections) : Move → Chronicle
  | .transact id t =>
    match cs.act id t.perform with
    | some (.ok _, _) => ch.note id t.deed
    | _ => ch
  | .edit id e =>
    match cs.contexts.get? id with
    | some c => if c.isWriting then ch.note id (.edit e) else ch
    | none => ch
  | _ => ch

def run (cs : Connections) (ch : Chronicle) : List Move → Connections × Chronicle
  | [] => (cs, ch)
  | m :: moves => run (cs.make m) (note ch cs m) moves

/-- Contexts as a world, each as its own author. -/
def world (cs : Connections) : World := ⟨cs.store, cs.contexts.get?⟩

def Keyed (cs : Connections) : Prop := ∀ id c, cs.contexts.get? id = some c → c.id = id

variable {settings : Settings} {cs : Connections} {ch : Chronicle}

theorem world_put (cs : Connections) (c : Connection) :
    (cs.put c).world = cs.world.set c.context.id c.store (some c.context) := by
  simp only [world, put, World.set, World.mk.injEq, true_and]
  funext k
  rw [NatMap.get?_insert]

theorem Keyed.put (h : cs.Keyed) (c : Connection) : (cs.put c).Keyed := by
  intro id c' hc'
  simp only [Connections.put, NatMap.get?_insert] at hc'
  split at hc'
  next hid => exact hid ▸ Option.some.inj hc' ▸ rfl
  next => exact h id c' hc'

theorem act_eq {α : Type} {id : ContextId} {c : Context} (a : Action α)
    (hc : cs.contexts.get? id = some c) :
    cs.act id a = some (match a ⟨cs.store, c⟩ with
      | .ok x c => (.ok x, cs.put c)
      | .error e c => (.error e, cs.put c)) := by
  unfold act Connections.get?
  rw [hc]
  rfl

theorem step_put (hk : cs.Keyed) {id : ContextId} {c : Context}
    (hc : cs.contexts.get? id = some c) {d : Deed} {c' : Connection}
    (hs : Connection.Step ⟨cs.store, c⟩ d c') :
    (cs.put c').Keyed ∧ World.Path cs.world ch (cs.put c').world (ch.note id d) := by
  refine ⟨hk.put c', ?_⟩
  have hid : c'.context.id = id := hs.id.trans (hk id c hc)
  rw [world_put, hid]
  exact World.Path.refl.step (.act hc hs)

/-- The next identity is free. -/
theorem vacant (hk : cs.Keyed) (hr : World.Reachable settings cs.world ch) :
    cs.contexts.get? cs.store.nextContext = none := by
  cases hc : cs.contexts.get? cs.store.nextContext with
  | none => rfl
  | some c =>
      have hlt := hr.sound.ids _ c hc
      rw [hk _ c hc] at hlt
      exact absurd hlt (Nat.lt_irrefl _)

theorem make_path (hk : cs.Keyed) (hr : World.Reachable settings cs.world ch) (m : Move) :
    (cs.make m).Keyed ∧ World.Path cs.world ch (cs.make m).world (note ch cs m) := by
  have hstay : World.Path cs.world ch cs.world ch := .refl
  cases m with
  | connect =>
      have hput : (cs.make .connect) = cs.put (Connection.new cs.store) := rfl
      rw [hput]
      refine ⟨hk.put _, ?_⟩
      rw [world_put]
      exact hstay.step (.join (vacant hk hr))
  | disconnect id =>
      simp only [make, disconnect, Connections.get?, note]
      cases hc : cs.contexts.get? id with
      | none => exact ⟨hk, hstay⟩
      | some c =>
          refine ⟨?_, ?_⟩
          · intro k d hd
            simp only [Option.map_some, NatMap.get?_erase] at hd
            split at hd
            · simp at hd
            · exact hk k d hd
          · have hw : (Connections.mk (Connection.mk cs.store c).close
                (cs.contexts.erase id)).world =
                  cs.world.set id (Connection.mk cs.store c).close none := by
              simp only [world, World.set, World.mk.injEq, true_and]
              funext k
              rw [NatMap.get?_erase]
            simp only [Option.map_some, hw]
            exact hstay.step (.leave hc)
  | transact id t =>
      cases hc : cs.contexts.get? id with
      | none => simpa [make, note, act, Connections.get?, hc] using ⟨hk, hstay⟩
      | some c =>
          have hd := Connection.perform_does t ⟨cs.store, c⟩
          simp only [make, note, act_eq _ hc]
          cases ht : t.perform ⟨cs.store, c⟩ with
          | ok x c' =>
              rw [ht] at hd
              exact step_put hk hc hd
          | error e c' =>
              rw [ht] at hd
              exact step_put hk hc hd
  | edit id e =>
      cases hc : cs.contexts.get? id with
      | none => simpa [make, note, act, Connections.get?, hc] using ⟨hk, hstay⟩
      | some c =>
          simp only [make, note, act_eq _ hc, hc]
          cases hw : c.isWriting with
          | false =>
              simp only [Connection.edit_refused _ e hw]
              exact step_put hk hc (.stay _)
          | true =>
              obtain ⟨base, g, hs⟩ := (Connection.isWriting_iff c).mp hw
              rcases Connection.edit_writing cs.store e hs with ⟨x, hx⟩ | ⟨x, hx⟩
              · simp only [hx]
                exact step_put hk hc (.edit e hs)
              · simp only [hx]
                exact step_put hk hc (.edit e hs)
  | compact => exact ⟨hk, hstay.step (.compact cs.world 0)⟩

theorem run_path (hk : cs.Keyed) (hr : World.Reachable settings cs.world ch)
    (moves : List Move) : (run cs ch moves).1.Keyed ∧
      World.Path cs.world ch (run cs ch moves).1.world (run cs ch moves).2 := by
  induction moves generalizing cs ch with
  | nil => exact ⟨hk, .refl⟩
  | cons m moves ih =>
      obtain ⟨hk', hp⟩ := make_path hk hr m
      obtain ⟨hkeyed, hrest⟩ := ih hk' (hr.path hp)
      exact ⟨hkeyed, hp.trans hrest⟩

theorem run_reachable (hk : cs.Keyed) (hr : World.Reachable settings cs.world ch)
    (moves : List Move) : (run cs ch moves).1.Keyed ∧
      World.Reachable settings (run cs ch moves).1.world (run cs ch moves).2 := by
  obtain ⟨hkeyed, hp⟩ := run_path hk hr moves
  exact ⟨hkeyed, hr.path hp⟩

theorem note_versions (ch : Chronicle) (cs : Connections) (m : Move) :
    ∃ more, (note ch cs m).versions = ch.versions ++ more := by
  cases m with
  | connect | disconnect id | compact => exact ⟨[], (List.append_nil _).symm⟩
  | transact id t =>
      simp only [note]
      split
      · exact ch.note_versions id t.deed
      · exact ⟨[], (List.append_nil _).symm⟩
  | edit id e =>
      simp only [note]
      split
      · split
        · exact ch.note_versions id _
        · exact ⟨[], (List.append_nil _).symm⟩
      · exact ⟨[], (List.append_nil _).symm⟩

theorem run_versions (cs : Connections) (ch : Chronicle) (moves : List Move) :
    ∃ more, (run cs ch moves).2.versions = ch.versions ++ more := by
  induction moves generalizing cs ch with
  | nil => exact ⟨[], (List.append_nil _).symm⟩
  | cons m moves ih =>
      obtain ⟨more, hm⟩ := note_versions ch cs m
      obtain ⟨rest, hr⟩ := ih (cs.make m) (note ch cs m)
      exact ⟨more ++ rest, by rw [run, hr, hm, List.append_assoc]⟩

/-- What a store and its contexts owe to everybody who looks at them. -/
structure Isolated (cs : Connections) (ch : Chronicle) : Prop where
  /-- There is one version for each commit, after the first. -/
  latest : cs.store.latest = ch.groups.length ∧ ch.groups.length = ch.commits.length + 1
  /-- What was committed as a version stays what it is, whatever happens next. -/
  lasting : ∀ moves, ∃ later, (run cs ch moves).2.groups = ch.groups ++ later
  /-- A version that can still be had is the group that was committed. -/
  snapshots : ∀ v g, cs.store.snapshot v = .ok g → Version.nth? ch.groups v = some g
  /-- A reader sees the group that was committed as its version. -/
  readers : ∀ id c v g, cs.contexts.get? id = some c → c.state = .reading v g →
    c.group = .ok g ∧ Version.nth? ch.groups v = some g
  /-- Every version is the one before with the edits of its writer repeated in order. -/
  chain : ∀ v g g', Version.nth? ch.groups v = some g →
    Version.nth? ch.groups (v + 1) = some g' → ∃ edits, ch.commits[v - 1]? = some edits ∧
      g' = { g with revision := v + 1 }.editAll edits
  /-- A writer sees its own edits on the latest version. -/
  writers : ∀ id c base g, cs.contexts.get? id = some c → c.state = .writing base g →
    base = cs.store.latest ∧ ∃ g₀, Version.nth? ch.groups base = some g₀ ∧
      g = { g₀ with revision := base + 1 }.editAll (ch.drafts id).edits
  /-- A writer can commit, and makes the next version. -/
  commits : ∀ id c base g, cs.contexts.get? id = some c → c.state = .writing base g →
    (∃ cs', cs.act id Connection.commit = some (.ok (base + 1), cs')) ∧
    ∃ cs', cs.act id Connection.commitAndRead = some (.ok (base + 1), cs')

theorem chain_of_sound (h : ch.Sound) {v : Nat} {g g' : Group}
    (hg : Version.nth? ch.groups v = some g) (hg' : Version.nth? ch.groups (v + 1) = some g') :
    ∃ edits, ch.commits[v - 1]? = some edits ∧
      g' = { g with revision := v + 1 }.editAll edits := by
  obtain ⟨E, hE, rfl⟩ := Chronicle.edition_of_group hg
  obtain ⟨E', hE', rfl⟩ := Chronicle.edition_of_group hg'
  exact (h.chain v E E' hE hE').2

theorem isolated_of_sound (h : World.Sound settings cs.world ch) : cs.Isolated ch := by
  have hlatest : ch.groups.length = cs.store.latest := h.store.latest
  refine ⟨⟨hlatest.symm, ?_⟩, ?_, ?_, ?_, ?_, ?_, ?_⟩
  · simpa [Chronicle.groups] using h.chronicle.commits.symm
  · intro moves
    obtain ⟨later, hl⟩ := run_versions cs ch moves
    exact ⟨later.map (·.group), by simp [Chronicle.groups, hl]⟩
  · exact fun v g hv => h.store.snapshot (Store.snapshot_eq_ok.mp hv)
  · intro id c v g hc hstate
    have hs := h.stands id c hc
    simp only [Context.Stands, hstate] at hs
    obtain ⟨E, hE, rfl⟩ := hs
    refine ⟨by simp [Context.group, hstate], ?_⟩
    rw [Chronicle.groups, Version.nth?_map, hE, Option.map_some]
  · exact fun v g g' => chain_of_sound h.chronicle
  · intro id c base g hc hstate
    have hs := h.stands id c hc
    simp only [Context.Stands, hstate] at hs
    obtain ⟨-, rfl, rfl, hd, -⟩ := hs
    refine ⟨?_, ch.latest.group, ?_, hd.replay⟩
    · rw [← hlatest, Chronicle.groups, List.length_map]
    · rw [Chronicle.groups, Version.nth?_map, h.chronicle.latest, Option.map_some]
  · intro id c base g hc hstate
    obtain ⟨s, hs⟩ := (h.publishable hc).commit_ok hstate false
    obtain ⟨s', hs'⟩ := (h.publishable hc).commit_ok hstate true
    obtain ⟨c₁, h₁⟩ := Connection.commit_ok hstate hs
    obtain ⟨c₂, h₂⟩ := Connection.commitAndRead_ok hstate hs'
    change Connection.commit ⟨cs.store, c⟩ = _ at h₁
    change Connection.commitAndRead ⟨cs.store, c⟩ = _ at h₂
    exact ⟨⟨cs.put c₁, by rw [act_eq _ hc, h₁]⟩, cs.put c₂, by rw [act_eq _ hc, h₂]⟩

/-- However the moves of contexts interleave, they are isolated from each other. -/
theorem snapshot_isolation {name : String} {s : Store} (h : Store.openNew name settings = .ok s)
    (moves : List Move) :
    (run (.new s) .opened moves).1.Isolated (run (.new s) .opened moves).2 := by
  have hk : (Connections.new s).Keyed := fun id c hc => by simp [new] at hc
  have hw : (Connections.new s).world = ⟨s, fun _ => none⟩ := rfl
  obtain ⟨-, hr⟩ := run_reachable hk (hw ▸ World.Reachable.opened h) moves
  exact isolated_of_sound hr.sound

/-- Two writers in turn and a reader who stays on the first version. -/
theorem isolated_reader_and_writers : ∃ cs ch, Isolated cs ch ∧
    ch.commits = [[.addTable "a"], [.addTable "b"]] ∧
    (cs.contexts.get? 1).map (·.state) = some (.reading 1 .empty) ∧
    (ch.groups.map fun g => g.allTables.map (·.name)) = [[], ["a"], ["a", "b"]] := by
  have ho : Store.openNew "store" {} = .ok
      ⟨"store", {}, NatMap.empty.insert 1 .empty, ∅, ∅, 1, none, 1, {}⟩ := rfl
  have h := snapshot_isolation ho [.connect, .connect, .connect, .transact 1 (.beginRead none),
    .transact 2 .beginWrite, .transact 3 .beginWrite, .edit 2 (.addTable "a"),
    .transact 2 .commit, .transact 3 .beginWrite, .edit 3 (.addTable "b"),
    .transact 3 .commitAndRead]
  exact ⟨_, _, h, rfl, rfl, rfl⟩

end Connections
end SnapshotStore
