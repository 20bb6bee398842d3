import RailGrid.Proofs.TileMap.Coordinates
import RailGrid.Proofs.World.Consistency

/-!
# The options keep in step with the map

The options of a world and its map are saved, loaded, reset and defaulted each on its own, and yet the
options always tell the edges of the map: the plugins make the map from the options, an edit keeps the
edges, both defaults are of one size, and a complete save of a world in which the two are in step
brings back both, whatever the size of the map that it is loaded over.
-/

namespace RailGrid

open Save ResourceFamily

namespace Registry

variable {σ ι : Type} [ResourceFamily ι] [Store σ ι] [LawfulStore σ ι] {r s : Registry ι} {v w : σ}
  {i : ι}

/-- A resource that has bytes and comes back from them is loaded into any other store. -/
theorem get?_loadAll_saveAll {a : Value i} (hr : r.keys.Nodup) (hs : s.keys.Nodup)
    (hir : i ∈ r.entries) (his : i ∈ s.entries) (ha : Store.get? v i = some a)
    (hsome : ((saveable i).save a).isSome) (hrestores : (saveable i).Restores a) :
    Store.get? (r.loadAll (s.saveAll v) w).1 i = some a := by
  obtain ⟨bs, hsave⟩ := Option.isSome_iff_exists.mp hsome
  have hload : ((saveable i).load bs).1 = a := by
    unfold Saveable.Restores at hrestores
    rwa [hsave] at hrestores
  rw [get?_loadAll hr hir, getElem?_saveAll hs his,
    bytesOf?_eq_some_iff.mpr ⟨a, ha, hsave⟩, Option.map_some, hload, Option.some_or]

/-- The map and its options belong to a save, and no two resources share a key. -/
structure SavesMap (r : Registry Resource) : Prop where
  /-- No key comes twice. -/
  nodup_keys : r.keys.Nodup
  /-- The map is registered. -/
  map_mem : .tileMap ∈ r.entries
  /-- The options are registered. -/
  config_mem : .mapConfig ∈ r.entries

/-- A registry that saves the map does so after further registrations. -/
theorem SavesMap.of_register? {r s : Registry Resource} {i : Resource} (hr : r.SavesMap)
    (h : r.register? i = some s) : s.SavesMap := by
  have hentries {j : Resource} (hj : j ∈ r.entries) : j ∈ s.entries :=
    entries_of_register? h ▸ List.mem_append_left _ hj
  exact ⟨nodup_keys_of_register? hr.nodup_keys h, hentries hr.map_mem, hentries hr.config_mem⟩

end Registry

namespace World

/-- The map is consistent, and its edges are the ones that the options ask for. -/
def InStep (w : World) : Prop :=
  ∃ m c, w.map = some m ∧ w.config = some c ∧ m.Consistent ∧ c.bitsX = m.logX ∧ c.bitsY = m.logY

variable {v w : World} {m : TileMap} {r s : Registry Resource}

/-- The streams and the speed limit are no part of it. -/
theorem InStep.set_of_ne {i : Resource} {x : Option i.Value} (hmap : i ≠ .tileMap)
    (hconfig : i ≠ .mapConfig) (h : w.InStep) : (w.set i x).InStep := by
  cases i with
  | tileMap => exact absurd rfl hmap
  | mapConfig => exact absurd rfl hconfig
  | sim | interactive | speedLimit => exact h

/-- A map that was made from the options is in step with them. -/
theorem inStep_of_ofLogs {c : MapConfig} (hc : w.config = some c)
    (hm : TileMap.ofLogs c.bitsX c.bitsY = .ok m) : (w.set .tileMap (some m)).InStep := by
  have hconsistent := TileMap.consistent_of_ofLogs hm
  obtain ⟨-, rfl⟩ := TileMap.ofLogs_eq_ok_iff.mp hm
  exact ⟨_, c, rfl, hc, hconsistent, rfl, rfl⟩

/-- An edit keeps the edges of the map. -/
theorem InStep.edit {t : TileIndex} {e : Edit} (h : w.InStep) (hm : w.map = some m) :
    (w.set .tileMap (some (m.edit t e).2)).InStep := by
  obtain ⟨n, c, hn, hc, hconsistent, hx, hy⟩ := h
  cases hn.symm.trans hm
  exact ⟨_, c, rfl, hc, TileMap.consistent_edit_iff.mpr hconsistent,
    hx.trans TileMap.logX_edit.symm, hy.trans TileMap.logY_edit.symm⟩

/-- The two defaults are in step. -/
theorem inStep_resetAll (hr : r.SavesMap) : (r.resetAll w).InStep := by
  have hmap : Store.get? (r.resetAll w) Resource.tileMap = some TileMap.standard :=
    Registry.get?_resetAll hr.nodup_keys hr.map_mem
  have hconfig : Store.get? (r.resetAll w) Resource.mapConfig = some ({} : MapConfig) :=
    Registry.get?_resetAll hr.nodup_keys hr.config_mem
  exact ⟨.standard, {}, hmap, hconfig, TileMap.standard_consistent, rfl, rfl⟩

/-- A complete save brings its map and its options into any world. -/
theorem InStep.loadAll (h : v.InStep) (hr : r.SavesMap) (hs : s.SavesMap) :
    (r.loadAll (s.saveAll v) w).1.InStep := by
  obtain ⟨m, c, hm, hc, hconsistent, hx, hy⟩ := h
  have hmap : Store.get? (r.loadAll (s.saveAll v) w).1 Resource.tileMap = some m :=
    Registry.get?_loadAll_saveAll hr.nodup_keys hs.nodup_keys hr.map_mem hs.map_mem hm rfl
      (Saveable.restores_tileMap hconsistent)
  have hconfig : Store.get? (r.loadAll (s.saveAll v) w).1 Resource.mapConfig = some c :=
    Registry.get?_loadAll_saveAll hr.nodup_keys hs.nodup_keys hr.config_mem hs.config_mem hc rfl
      (Saveable.restores_mapConfig c)
  exact ⟨m, c, hmap, hconfig, hconsistent, hx, hy⟩

end World

namespace App

/-- The options and the map are in step, and a save takes both. -/
structure InStep (a : App) : Prop where
  /-- The options tell the edges of the map. -/
  world : a.world.InStep
  /-- The map and its options are registered. -/
  registry : a.registry.SavesMap

variable {a : App}

/-! ### Actions -/

theorem keeps_insert_inStep {r : Resource} {v : r.Value} (hmap : r ≠ .tileMap)
    (hconfig : r ≠ .mapConfig) : Keeps InStep (insert r v) :=
  keeps_modify fun _ h => ⟨h.world.set_of_ne hmap hconfig, h.registry⟩

/-- Every action but a load keeps the options in step with the map. -/
theorem keeps_step_inStep {x : Action} (hx : ∀ saved, x ≠ .loadAll saved) :
    Keeps InStep x.step :=
  keeps_step_of (fun _ _ _ _ ha hm => ⟨ha.world.edit hm, ha.registry⟩)
    (fun _ => keeps_insert_inStep (by decide) (by decide))
    (fun _ => keeps_insert_inStep (by decide) (by decide)) (fun saved h => absurd h (hx saved))
    (keeps_modify fun _ ha => ⟨World.inStep_resetAll ha.registry, ha.registry⟩)

/-! ### Plugins -/

/-- The plugin for the map makes it from the options and registers both. -/
theorem ensures_addMap_inStep :
    Ensures (fun a => a.registry = {}) addMap (fun _ => InStep) (fun _ => True) := by
  refine (keeps_enter fun _ _ h => h).ensures.bind fun _ =>
    (ensures_initConfig fun _ h _ => h).bind fun c => keeps_ofMap.ensures.bind fun _ =>
      keeps_ofMap.ensures.bind fun _ => (keeps_notify fun _ _ h => h).ensures.bind fun _ =>
        (ensures_ofMap.mono (fun _ _ h => h) fun _ _ => trivial).bind fun m => ?_
  have hinsert : Ensures (fun a => (a.registry = {} ∧ a.world.config = some c) ∧
        TileMap.ofLogs c.bitsX c.bitsY = .ok m) (insert .tileMap m)
      (fun _ a => a.registry = {} ∧ a.world.InStep) (fun _ => True) :=
    ensures_insert.of_imp fun a ⟨⟨hregistry, hc⟩, hm⟩ =>
      ⟨hregistry, World.inStep_of_ofLogs hc hm⟩
  have hmap : Ensures (fun a => a.registry = {} ∧ a.world.InStep) (register .tileMap)
      (fun _ a => a.registry = ⟨[.tileMap]⟩ ∧ a.world.InStep) (fun _ => True) :=
    ensures_register (fun a registry ⟨hempty, hworld⟩ hr => by
      rw [hempty] at hr
      exact ⟨(Option.some.inj hr).symm, hworld⟩) fun _ _ _ => trivial
  have hsaves : (⟨[.tileMap, .mapConfig]⟩ : Registry Resource).SavesMap :=
    ⟨by decide, by decide, by decide⟩
  have hconfig : Ensures (fun a => a.registry = ⟨[.tileMap]⟩ ∧ a.world.InStep)
      (register .mapConfig) (fun _ => InStep) (fun _ => True) :=
    ensures_register (fun a registry ⟨hone, hworld⟩ hr => by
      rw [hone] at hr
      cases Option.some.inj hr
      exact ⟨hworld, hsaves⟩) fun _ _ _ => trivial
  exact hinsert.bind fun _ => hmap.bind fun _ => hconfig

/-- The plugin for the streams finds the options and leaves them alone. -/
theorem keeps_addRandom_inStep : Keeps InStep addRandom := by
  have hfound (a : App) (ha : a.InStep) (hnone : a.world.config = none) :
      InStep { a with world := a.world.set .mapConfig (some {}) } := by
    obtain ⟨m, c, -, hc, -⟩ := ha.world
    cases hnone.symm.trans hc
  exact keeps_addRandom_of (fun _ _ _ _ ha => ⟨ha.world, ha.registry⟩) hfound
    (fun _ => keeps_insert_inStep (by decide) (by decide))
    (fun _ => keeps_insert_inStep (by decide) (by decide))
    fun _ _ ha hr => ⟨ha.world, ha.registry.of_register? hr⟩

theorem inStep_of_build {config : Option MapConfig} (h : build config [.everything] = .ok a) :
    a.InStep := by
  have hempty : Keeps (fun a => a.registry = {}) (enter .everything) := keeps_enter fun _ _ h => h
  have hstart : Ensures (fun a => a = { world := { config } }) (enter .everything)
      (fun _ a => a.registry = {}) (fun _ => True) :=
    hempty.ensures.of_imp fun a ha => by rw [ha]
  have heverything : Ensures (fun a => a = { world := { config } }) (addPlugin .everything)
      (fun _ => InStep) (fun _ => True) :=
    hstart.bind fun _ => ensures_addMap_inStep.bind fun _ => keeps_addRandom_inStep.ensures
  exact of_build (heverything.bind fun _ => keeps_pure.ensures) h

/-! ### Reachable applications -/

/-- The applications that are reached from built ones, of whatever size, by actions and by loading
complete saves of reached ones. -/
inductive Reached : App → Prop where
  /-- An application was built with all plugins. -/
  | build {config : Option MapConfig} {a : App} (h : build config [.everything] = .ok a) : Reached a
  /-- An action other than a load was made, or refused. -/
  | act {a : App} {x : Action} (ha : Reached a) (hx : ∀ saved, x ≠ .loadAll saved) :
    Reached (a.act x)
  /-- What another application saved was loaded. -/
  | load {a b c : App} {saved : SaveMap} (ha : Reached a) (hb : Reached b)
    (hsave : App.saveAll.run.run b = (.ok saved, c)) : Reached (a.act (.loadAll saved))

/-- Loading is the one action that needs to know where its bytes come from. -/
theorem inStep_of_reached (h : Reached a) : a.InStep := by
  induction h with
  | build h => exact inStep_of_build h
  | act _ hx ih => exact (keeps_step_inStep hx).act ih
  | load _ _ hsave iha ihb =>
    cases hsave
    exact ⟨ihb.world.loadAll iha.registry ihb.registry, iha.registry⟩

/-- In every application that is reached, the options tell the edges of the map and so the number
of its tiles. -/
theorem dimensions_of_reached (h : Reached a) :
    ∃ c m sx sy, a.world.config = some c ∧ a.world.map = some m ∧
      (c.bitsX = m.logX ∧ c.bitsY = m.logY) ∧
      (m.sizeX = .ok sx ∧ sx.toNat = 2 ^ c.bitsX.toNat) ∧
      (m.sizeY = .ok sy ∧ sy.toNat = 2 ^ c.bitsY.toNat) ∧
      m.size = 2 ^ (c.bitsX.toNat + c.bitsY.toNat) := by
  obtain ⟨m, c, hm, hc, hconsistent, hx, hy⟩ := (inStep_of_reached h).world
  refine ⟨c, m, 1 <<< m.logX, 1 <<< m.logY, hc, hm, ⟨hx, hy⟩, ?_⟩
  rw [hx, hy]
  exact ⟨⟨TileMap.sizeX_eq hconsistent.logX_lt, TileMap.toNat_sizeX hconsistent.logX_lt⟩,
    ⟨TileMap.sizeY_eq hconsistent.logY_lt, TileMap.toNat_sizeY hconsistent.logY_lt⟩,
    hconsistent.2.2⟩

/-- A reset application of one size is in step after it loads what one of another size saved, on
whose map an edit was refused. -/
theorem dimensions_of_reached_narrow :
    let wide : Option MapConfig := some { bitsX := 7, bitsY := 6 }
    let narrow : Option MapConfig := some { bitsX := 6, bitsY := 8 }
    let edit : Action := .edit ⟨5⟩ (.makeDepot ⟨0x40⟩ .northEast .rail)
    ∃ a b saved, build wide [.everything] = .ok a ∧ build narrow [.everything] = .ok b ∧
      App.saveAll.run.run (b.act edit) = (.ok saved, b.act edit) ∧
      ∃ c m, ((a.act .resetAll).act (.loadAll saved)).world.config = some c ∧
        ((a.act .resetAll).act (.loadAll saved)).world.map = some m ∧
        m.size = 2 ^ (c.bitsX.toNat + c.bitsY.toNat) := by
  intro wide narrow edit
  have hwide : ∃ a, build wide [.everything] = .ok a := ⟨_, rfl⟩
  have hnarrow : ∃ b, build narrow [.everything] = .ok b := ⟨_, rfl⟩
  obtain ⟨a, ha⟩ := hwide
  obtain ⟨b, hb⟩ := hnarrow
  have hreset : Reached (a.act .resetAll) := .act (.build ha) fun _ => nofun
  have hedited : Reached (b.act edit) := .act (.build hb) fun _ => nofun
  obtain ⟨c, m, _, _, hc, hm, -, -, -, hsize⟩ :=
    dimensions_of_reached (.load hreset hedited rfl)
  exact ⟨a, b, _, ha, hb, rfl, c, m, hc, hm, hsize⟩

end App

end RailGrid
