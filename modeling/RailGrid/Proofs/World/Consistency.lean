import RailGrid.Proofs.Save.Formats
import RailGrid.Proofs.TileMap.Mutators
import RailGrid.Proofs.World.Course

/-!
# The map of an application is consistent

The map that a plugin makes has edges in range and as many tiles as they ask for. An edit keeps them,
and what is loaded in place of the map is checked or is the standard map, whatever the bytes were. So
the map of every application that was built with the map and driven by any course of actions is
consistent, also where actions were refused half way.
-/

namespace RailGrid

open Save ResourceFamily

namespace Registry

variable {σ ι : Type} [ResourceFamily ι] [Store σ ι] {r : Registry ι} {s : σ} {P : σ → Prop}

/-- What loading any one resource from any bytes keeps is kept by loading a whole save. -/
theorem loadAll_induction {saved : SaveMap}
    (hset : ∀ s i bs, P s → P (Store.set s i (some ((saveable i).load bs).1))) (hs : P s) :
    P (r.loadAll saved s).1 := by
  have hfold (entries : List ι) (p : σ × List Notice) (hp : P p.1) :
      P (entries.foldl (loadOne saved) p).1 := by
    induction entries generalizing p with
    | nil => exact hp
    | cons i entries ih =>
      refine ih _ ?_
      unfold loadOne
      cases saved[resourceKey i]? with
      | none => exact hp
      | some bs => exact hset p.1 i bs hp
  exact hfold r.entries (s, []) hs

/-- What resetting any one resource keeps is kept by resetting all. -/
theorem resetAll_induction (hset : ∀ s i, P s → P (Store.set s i (some (saveable i).initial)))
    (hs : P s) : P (r.resetAll s) := by
  have hfold (entries : List ι) (s : σ) (hs : P s) :
      P (entries.foldl (fun s i => Store.set s i (some (saveable i).initial)) s) := by
    induction entries generalizing s with
    | nil => exact hs
    | cons i entries ih => exact ih _ (hset s i hs)
  exact hfold r.entries s hs

end Registry

namespace World

/-- The world has a map, and the map is consistent. -/
def HasConsistentMap (w : World) : Prop := ∃ m, w.map = some m ∧ m.Consistent

variable {w : World} {r : Resource}

/-- Another resource is no part of the map. -/
theorem HasConsistentMap.set_of_ne {v : Option r.Value} (hr : r ≠ .tileMap)
    (h : w.HasConsistentMap) : (w.set r v).HasConsistentMap := by
  cases r with
  | tileMap => exact absurd rfl hr
  | mapConfig | sim | interactive | speedLimit => exact h

theorem hasConsistentMap_set {m : TileMap} (hm : m.Consistent) :
    (w.set .tileMap (some m)).HasConsistentMap := ⟨m, rfl, hm⟩

theorem HasConsistentMap.loadAll {registry : Registry Resource} {saved : SaveMap}
    (h : w.HasConsistentMap) : (registry.loadAll saved w).1.HasConsistentMap := by
  refine Registry.loadAll_induction (fun s i bs hs => ?_) h
  by_cases hi : i = .tileMap
  · subst hi
    exact hasConsistentMap_set (TileMap.consistent_load bs)
  · exact hs.set_of_ne hi

theorem HasConsistentMap.resetAll {registry : Registry Resource} (h : w.HasConsistentMap) :
    (registry.resetAll w).HasConsistentMap := by
  refine Registry.resetAll_induction (fun s i hs => ?_) h
  by_cases hi : i = .tileMap
  · subst hi
    exact hasConsistentMap_set TileMap.standard_consistent
  · exact hs.set_of_ne hi

end World

namespace TileMap

theorem consistent_of_ofLogs {logX logY : UInt32} {m : TileMap} (h : ofLogs logX logY = .ok m) :
    m.Consistent := by
  obtain ⟨hrange, rfl⟩ := ofLogs_eq_ok_iff.mp h
  exact ⟨hrange.1, hrange.2, Array.size_replicate⟩

end TileMap

namespace App

/-- The world of the application has a consistent map. -/
def Sound (a : App) : Prop := a.world.HasConsistentMap

variable {E : App → Prop}

/-! ### Actions -/

theorem keeps_insert_of_ne {r : Resource} {v : r.Value} (hr : r ≠ .tileMap) :
    Keeps Sound (insert r v) :=
  keeps_modify fun _ h => h.set_of_ne hr

/-- A consistent map makes the application sound, whatever it was before. -/
theorem ensures_insert_map {m : TileMap} {P : App → Prop} (hm : m.Consistent) :
    Ensures P (insert .tileMap m) (fun _ => Sound) E :=
  ensures_insert.of_imp fun _ _ => World.hasConsistentMap_set hm

theorem consistent_of_sound {a : App} {m : TileMap} (ha : a.Sound)
    (hm : a.world.get? .tileMap = some m) : m.Consistent := by
  obtain ⟨n, hn, hconsistent⟩ := ha
  have heq : n = m := Option.some.inj (hn.symm.trans hm)
  exact heq ▸ hconsistent

/-- Every action keeps the map consistent. -/
theorem keeps_step (x : Action) : Keeps Sound x.step :=
  keeps_step_of
    (fun _ _ _ _ ha hm =>
      World.hasConsistentMap_set (TileMap.consistent_edit_iff.mpr (consistent_of_sound ha hm)))
    (fun _ => keeps_insert_of_ne (by decide)) (fun _ => keeps_insert_of_ne (by decide))
    (fun _ _ => keeps_modify fun _ h => h.loadAll) (keeps_modify fun _ h => h.resetAll)

/-! ### Plugins -/

theorem keeps_register {r : Resource} : Keeps Sound (register r) :=
  ensures_register (fun _ _ h _ => h) fun _ _ h => h

theorem keeps_addRandom : Keeps Sound addRandom :=
  keeps_addRandom_of (fun _ _ _ _ h => h) (fun _ h _ => h)
    (fun _ => keeps_insert_of_ne (by decide)) (fun _ => keeps_insert_of_ne (by decide))
    fun _ _ h _ => h

/-- Whatever was there before, the plugin for the map makes a consistent one or is refused. -/
theorem ensures_addMap : Ensures (fun _ => True) addMap (fun _ => Sound) (fun _ => True) := by
  refine ensures_true.bind fun _ => ensures_true.bind fun c => ensures_true.bind fun _ =>
    ensures_true.bind fun _ => ensures_true.bind fun _ => ensures_ofMap.bind fun m => ?_
  refine Ensures.of_fact (fun a ha => TileMap.consistent_of_ofLogs ha.2) fun hm => ?_
  exact (ensures_insert_map hm).bind fun _ =>
    keeps_register.ensures.bind fun _ => keeps_register.ensures

/-- A plugin that brings the map makes the application sound. -/
theorem ensures_addPlugin {p : Plugin} (hp : p ≠ .random) :
    Ensures (fun _ => True) (addPlugin p) (fun _ => Sound) (fun _ => True) := by
  cases p with
  | everything =>
    exact ensures_true.bind fun _ => ensures_addMap.bind fun _ => keeps_addRandom.ensures
  | map => exact ensures_addMap
  | random => exact absurd rfl hp

/-- A sound application stays sound under any plugin that is accepted. -/
theorem ensures_addPlugin_of_sound {p : Plugin} :
    Ensures Sound (addPlugin p) (fun _ => Sound) (fun _ => True) := by
  by_cases hp : p = .random
  · subst hp
    exact keeps_addRandom.ensures
  · exact (ensures_addPlugin hp).of_imp fun _ _ => trivial

theorem ensures_forM_addPlugin_of_sound (plugins : List Plugin) :
    Ensures Sound (plugins.forM addPlugin) (fun _ => Sound) (fun _ => True) := by
  induction plugins with
  | nil =>
    have hnone : Keeps Sound (([] : List Plugin).forM addPlugin) := keeps_pure
    exact hnone.ensures
  | cons p plugins ih => exact ensures_addPlugin_of_sound.bind fun _ => ih

/-- Plugins one after the other make the application sound once one of them brings the map. -/
theorem ensures_forM_addPlugin {plugins : List Plugin} {p : Plugin} (hp : p ≠ .random)
    (hmem : p ∈ plugins) :
    Ensures (fun _ => True) (plugins.forM addPlugin) (fun _ => Sound) (fun _ => True) := by
  induction plugins with
  | nil => cases hmem
  | cons q plugins ih =>
    cases hmem with
    | head => exact (ensures_addPlugin hp).bind fun _ => ensures_forM_addPlugin_of_sound plugins
    | tail _ hmem => exact ensures_true.bind fun _ => ih hmem

theorem sound_of_build {config : Option MapConfig} {plugins : List Plugin} {a : App} {p : Plugin}
    (hbuild : build config plugins = .ok a) (hp : p ≠ .random) (hmem : p ∈ plugins) : a.Sound :=
  of_build ((ensures_forM_addPlugin hp hmem).of_imp fun _ _ => trivial) hbuild

/-! ### Runs -/

/-- The map of an application that was built with one is consistent after any course of actions,
any bytes are loaded as a consistent map, and the test for consistency always gives an answer. -/
theorem consistent_throughout :
    (∀ (config : Option MapConfig) (plugins : List Plugin) (a : App),
      build config plugins = .ok a → .map ∈ plugins ∨ .everything ∈ plugins →
      ∀ actions : List Action, ∃ m, (a.course actions).world.map = some m ∧
        m.isConsistent = .ok true ∧ (6 ≤ m.logX ∧ m.logX ≤ 11) ∧ (6 ≤ m.logY ∧ m.logY ≤ 11) ∧
        m.size = 2 ^ (m.logX.toNat + m.logY.toNat)) ∧
    (∀ bs, (Saveable.tileMap.load bs).1.isConsistent = .ok true) ∧
    ∀ m : TileMap, m.isConsistent = .ok (decide m.Consistent) := by
  refine ⟨?_, ?_, TileMap.isConsistent_eq⟩
  · intro config plugins a hbuild hmap actions
    have hbuilt : a.Sound := hmap.elim
      (sound_of_build hbuild (p := .map) (by decide))
      (sound_of_build hbuild (p := .everything) (by decide))
    obtain ⟨m, hm, hconsistent⟩ := course_induction keeps_step hbuilt actions
    have htest : m.isConsistent = .ok true := by
      rw [TileMap.isConsistent_eq, decide_eq_true hconsistent]
    exact ⟨m, hm, htest, hconsistent⟩
  · intro bs
    rw [TileMap.isConsistent_eq, decide_eq_true (TileMap.consistent_load bs)]

/-- A map stays consistent through an edit that is refused half way on an overwritten tile, bytes
that are no map, and a reset. -/
theorem consistent_throughout_corrupt :
    let config : Option MapConfig := some { bitsX := 6, bitsY := 7 }
    let actions : List Action := [.edit ⟨5⟩ (.overwrite { m5 := 0xFF }),
      .edit ⟨5⟩ (.makeDepot ⟨0x40⟩ .northEast .rail),
      .loadAll ((∅ : SaveMap).insert "tile_map" [0xFF, 0xFF]), .resetAll]
    ∃ a, build config [.random, .map] = .ok a ∧
      ∃ m, (a.course actions).world.map = some m ∧ m.isConsistent = .ok true := by
  intro config actions
  have hbuild : ∃ a, build config [.random, .map] = .ok a := ⟨_, rfl⟩
  obtain ⟨a, ha⟩ := hbuild
  obtain ⟨m, hm, hconsistent, -⟩ :=
    consistent_throughout.1 config [.random, .map] a ha (.inl (by decide)) actions
  exact ⟨a, ha, m, hm, hconsistent⟩

end App
end RailGrid
