import RailGrid.Proofs.TileMap.Coordinates
import RailGrid.Proofs.TileMap.Rebuilding
import RailGrid.Proofs.World.Consistency
import RailGrid.Proofs.World.Registration

/-!
# Starting up

The plugins for the map and for the streams may be added in either order, or both at once. Each
looks for the options, or puts the standard ones there, so that both see the same; the one makes the
map or is refused, the other starts the streams. Resetting brings about what they make without any
options.
-/

namespace RailGrid

open Step

/-- The options that a world is started from: its own, or the standard ones. -/
def World.options (w : World) : MapConfig := w.config.getD {}

namespace MapConfig

/-- There is a map with the edges that are asked for. -/
def InRange (c : MapConfig) : Prop :=
  (6 ≤ c.bitsX ∧ c.bitsX ≤ 11) ∧ (6 ≤ c.bitsY ∧ c.bitsY ≤ 11)

instance (c : MapConfig) : Decidable c.InRange := inferInstanceAs (Decidable (_ ∧ _))

/-- What the map is refused for if there is none. -/
def fault (c : MapConfig) : MapFault :=
  if 32 ≤ c.bitsX ∨ 32 ≤ c.bitsY then .overflow .shiftLeft
  else .sizeOutOfRange c.bitsX c.bitsY

theorem inRange_iff {c : MapConfig} :
    c.InRange ↔ TileMap.LogInRange c.bitsX ∧ TileMap.LogInRange c.bitsY := Iff.rfl

theorem message_fault (c : MapConfig) : c.fault.message =
    if 32 ≤ c.bitsX ∨ 32 ≤ c.bitsY then "attempt to shift left with overflow"
    else s!"map size 2^{c.bitsX} x 2^{c.bitsY} out of range" := by
  unfold fault
  split <;> rfl

end MapConfig

namespace App

variable {a b : App} {m : TileMap} {fault : WorldFault} {config : Option MapConfig}
  {plugins : List Plugin}

/-- The application with a map made from its options. -/
def withMap (a : App) (m : TileMap) : App where
  world := { a.world with config := some a.world.options, map := some m }
  registry := ⟨a.registry.entries ++ [.tileMap, .mapConfig]⟩
  hasEntropy := a.hasEntropy
  plugins := a.plugins ++ [.map]
  notices := a.notices ++ [.creatingMap (1 <<< a.world.options.bitsX) (1 <<< a.world.options.bitsY)]

/-- The application with streams started from its options. -/
def withStreams (a : App) : App where
  world := { a.world with
    config := some a.world.options
    sim := some (Streams.ofSeed a.world.options.seed).sim
    interactive := some (Streams.ofSeed a.world.options.seed).interactive }
  registry := ⟨a.registry.entries ++ [.sim, .interactive]⟩
  hasEntropy := true
  plugins := a.plugins ++ [.random]
  notices := a.notices ++ [.seeding a.world.options.seed]

theorem run_initConfig : initConfig.run.run a = (.ok a.world.options,
    { a with world := { a.world with config := some a.world.options } }) := by
  have hget : (get : AppM App).run.run a = (.ok a, a) := rfl
  rw [initConfig, run_bind_of_ok hget, World.options]
  cases hc : a.world.config with
  | none => rfl
  | some c =>
    have hworld : { a.world with config := some c } = a.world := by rw [← hc]
    rw [Option.getD_some, hworld]
    rfl

/-- The plugin for the map makes the map that the options ask for. -/
theorem run_addMap (hplugin : .map ∉ a.plugins) (hmap : .tileMap ∉ a.registry.entries)
    (hconfig : .mapConfig ∉ a.registry.entries)
    (hm : TileMap.ofLogs a.world.options.bitsX a.world.options.bitsY = .ok m) :
    addMap.run.run a = (.ok (), a.withMap m) := by
  obtain ⟨⟨hx, hy⟩, -⟩ := TileMap.ofLogs_eq_ok_iff.mp hm
  rw [addMap, run_bind_of_ok (run_enter_of_fresh hplugin), buildMap,
    run_bind_of_ok run_initConfig]
  dsimp only
  rw [Word.shiftLeft_eq_ok hx.lt_32, Word.shiftLeft_eq_ok hy.lt_32, hm, TileMap.ofWord,
    TileMap.ofWord, run_bind_of_ok run_ofMap, run_bind_of_ok run_ofMap,
    run_bind_of_ok run_notify, run_bind_of_ok run_ofMap, run_bind_of_ok run_insert]
  exact run_register_register hmap hconfig (by decide)

/-- The plugin for the streams starts them from the seed in the options. -/
theorem run_addRandom (hplugin : .random ∉ a.plugins) (hsim : .sim ∉ a.registry.entries)
    (hinteractive : .interactive ∉ a.registry.entries) :
    addRandom.run.run a = (.ok (), a.withStreams) := by
  have hentropy {b : App} : (modify fun a => { a with hasEntropy := true } : AppM Unit).run.run b =
      (.ok (), { b with hasEntropy := true }) := rfl
  rw [addRandom, run_bind_of_ok (run_enter_of_fresh hplugin), buildRandom,
    run_bind_of_ok run_initConfig, run_bind_of_ok hentropy, run_bind_of_ok run_notify]
  dsimp only
  rw [run_bind_of_ok run_insert, run_bind_of_ok run_insert]
  exact run_register_register hsim hinteractive (by decide)

/-- The map and its options are not in the way of the streams. -/
theorem run_addRandom_withMap (hplugin : .random ∉ a.plugins) (hempty : a.registry.entries = []) :
    addRandom.run.run (a.withMap m) = (.ok (), (a.withMap m).withStreams) := by
  have hentries : (a.withMap m).registry.entries = [.tileMap, .mapConfig] :=
    congrArg (· ++ [Resource.tileMap, Resource.mapConfig]) hempty
  have hplugins : Plugin.random ∉ a.plugins ++ [.map] := by
    rw [List.mem_append, List.mem_singleton]
    exact not_or.mpr ⟨hplugin, by decide⟩
  refine run_addRandom hplugins ?_ ?_
  · rw [hentries]
    decide
  · rw [hentries]
    decide

/-- The plugin for the map is refused if there is no such map: before it announces an edge that does
not fit into a word, and after it has announced the others. -/
theorem run_addMap_of_not_inRange (hplugin : .map ∉ a.plugins)
    (hrange : ¬ a.world.options.InRange) :
    ∃ b, addMap.run.run a = (.error (.map a.world.options.fault), b) := by
  rw [addMap, run_bind_of_ok (run_enter_of_fresh hplugin), buildMap,
    run_bind_of_ok run_initConfig, MapConfig.fault]
  dsimp only
  by_cases hx : 32 ≤ a.world.options.bitsX
  · rw [if_pos (.inl hx), Word.shiftLeft_eq_error hx, TileMap.ofWord]
    exact ⟨_, run_bind_of_error run_ofMap_error⟩
  rw [Word.shiftLeft_eq_ok (UInt32.not_le.mp hx), TileMap.ofWord, run_bind_of_ok run_ofMap]
  by_cases hy : 32 ≤ a.world.options.bitsY
  · rw [if_pos (.inr hy), Word.shiftLeft_eq_error hy, TileMap.ofWord]
    exact ⟨_, run_bind_of_error run_ofMap_error⟩
  rw [if_neg (not_or.mpr ⟨hx, hy⟩), Word.shiftLeft_eq_ok (UInt32.not_le.mp hy), TileMap.ofWord,
    run_bind_of_ok run_ofMap, run_bind_of_ok run_notify, TileMap.ofLogs_eq_error hrange]
  exact ⟨_, run_bind_of_error run_ofMap_error⟩

/-! ### Orders of the plugins -/

/-- The ways to add the plugins for the map and for the streams once each. -/
def startOrders : List (List Plugin) := [[.map, .random], [.random, .map], [.everything]]

/-- The application that a start makes `m` in, but for what was noted on the way. -/
structure Started (config : Option MapConfig) (m : TileMap) (a : App) : Prop where
  /-- The options are kept, and the map and the streams are made from them. -/
  world : a.world =
    { map := some m
      config := some (config.getD {})
      sim := some (Streams.ofSeed (config.getD {}).seed).sim
      interactive := some (Streams.ofSeed (config.getD {}).seed).interactive }
  /-- Each of the four resources is registered once. -/
  registry : a.registry.entries.Perm [.tileMap, .mapConfig, .sim, .interactive]

theorem build_eq_ok (h : (plugins.forM addPlugin).run.run { world := { config } } = (.ok (), b)) :
    build config plugins = .ok b := by
  rw [build, h]
  rfl

theorem build_eq_error
    (h : (plugins.forM addPlugin).run.run { world := { config } } = (.error fault, b)) :
    build config plugins = .error fault := by
  rw [build, h]
  rfl

/-- In every order the plugins make the same of options that ask for a map that there is. -/
theorem exists_build (config : Option MapConfig) (hplugins : plugins ∈ startOrders)
    (hm : TileMap.ofLogs (config.getD {}).bitsX (config.getD {}).bitsY = .ok m) :
    ∃ a, build config plugins = .ok a ∧ Started config m a := by
  let s : App := { world := { config } }
  simp only [startOrders, List.mem_cons, List.not_mem_nil, or_false] at hplugins
  rcases hplugins with rfl | rfl | rfl
  · have hmap : addMap.run.run s = (.ok (), s.withMap m) := run_addMap nofun nofun nofun hm
    have hrandom : addRandom.run.run (s.withMap m) = (.ok (), (s.withMap m).withStreams) :=
      run_addRandom_withMap nofun rfl
    exact ⟨_, build_eq_ok ((run_bind_of_ok hmap).trans (run_bind_of_ok hrandom)), rfl, .refl _⟩
  · have hrandom : addRandom.run.run s = (.ok (), s.withStreams) := run_addRandom nofun nofun nofun
    have hmap : addMap.run.run s.withStreams = (.ok (), s.withStreams.withMap m) :=
      run_addMap (by decide : Plugin.map ∉ [Plugin.random])
        (by decide : Resource.tileMap ∉ [Resource.sim, Resource.interactive])
        (by decide : Resource.mapConfig ∉ [Resource.sim, Resource.interactive]) hm
    have hentries : [Resource.sim, .interactive, .tileMap, .mapConfig].Perm
        [.tileMap, .mapConfig, .sim, .interactive] := by decide
    exact ⟨_, build_eq_ok ((run_bind_of_ok hrandom).trans (run_bind_of_ok hmap)), rfl, hentries⟩
  · let t : App := { s with plugins := [.everything] }
    have henter : (enter .everything).run.run s = (.ok (), t) := run_enter_of_fresh nofun
    have hmap : addMap.run.run t = (.ok (), t.withMap m) :=
      run_addMap (by decide : Plugin.map ∉ [Plugin.everything]) nofun nofun hm
    have hrandom : addRandom.run.run (t.withMap m) = (.ok (), (t.withMap m).withStreams) :=
      run_addRandom_withMap (by decide : Plugin.random ∉ [Plugin.everything]) rfl
    have heverything : (addPlugin .everything).run.run s = (.ok (), (t.withMap m).withStreams) :=
      (run_bind_of_ok henter).trans ((run_bind_of_ok hmap).trans hrandom)
    exact ⟨_, build_eq_ok (run_bind_of_ok heverything), rfl, .refl _⟩

/-- In every order the plugin for the map is the one that refuses options for no map. -/
theorem build_of_not_inRange (config : Option MapConfig) (hplugins : plugins ∈ startOrders)
    (hrange : ¬ (config.getD {}).InRange) :
    build config plugins = .error (.map (config.getD {}).fault) := by
  let s : App := { world := { config } }
  simp only [startOrders, List.mem_cons, List.not_mem_nil, or_false] at hplugins
  rcases hplugins with rfl | rfl | rfl
  · obtain ⟨b, hmap⟩ := run_addMap_of_not_inRange (a := s) nofun hrange
    exact build_eq_error (run_bind_of_error hmap)
  · have hrandom : addRandom.run.run s = (.ok (), s.withStreams) := run_addRandom nofun nofun nofun
    obtain ⟨b, hmap⟩ := run_addMap_of_not_inRange (a := s.withStreams)
      (by decide : Plugin.map ∉ [Plugin.random]) hrange
    exact build_eq_error ((run_bind_of_ok hrandom).trans (run_bind_of_error hmap))
  · let t : App := { s with plugins := [.everything] }
    have henter : (enter .everything).run.run s = (.ok (), t) := run_enter_of_fresh nofun
    obtain ⟨b, hmap⟩ := run_addMap_of_not_inRange (a := t)
      (by decide : Plugin.map ∉ [Plugin.everything]) hrange
    have heverything : (addPlugin .everything).run.run s =
        (.error (.map (config.getD {}).fault), b) :=
      (run_bind_of_ok henter).trans (run_bind_of_error hmap)
    exact build_eq_error (run_bind_of_error heverything)

/-! ### What a start leaves -/

namespace Started

/-- The keys of the four resources are registered, each once. -/
theorem keys (h : Started config m a) :
    a.registry.keys.Perm ["tile_map", "map_config", "sim_random", "interactive_random"] :=
  h.registry.map resourceKey

/-- Resetting a started application leaves the world of one that was started without options. -/
theorem resetAll (h : Started config m a) (hb : Started none .standard b) :
    a.registry.resetAll a.world = b.world := by
  have hnodup : a.registry.keys.Nodup := h.keys.nodup_iff.mpr (by decide)
  rw [hb.world]
  apply LawfulStore.ext
  intro r
  cases r with
  | speedLimit =>
    have hentry : Resource.speedLimit ∉ a.registry.entries :=
      mt h.registry.mem_iff.mp (by decide)
    rw [Registry.get?_resetAll_of_not_mem hentry, h.world]
    rfl
  | tileMap | mapConfig | sim | interactive =>
    rw [Registry.get?_resetAll hnodup (h.registry.mem_iff.mpr (by decide))]
    rfl

end Started

end App

namespace TileMap

variable {m : TileMap} {t : TileIndex} {logX logY : UInt32}

/-- The tiles of a fresh map are clear, lie at height zero and belong to nobody. -/
theorem ask_of_ofLogs (hm : ofLogs logX logY = .ok m) (ht : m.Valid t) :
    m.ask t Tile.kind = .ok .clear ∧ (m.tile t).map Tile.height = .ok 0 ∧
      m.ask t Tile.owner = .ok .nobody := by
  have hblank := tile_of_ofLogs hm ht
  have hkind : Tile.blank.kind = .ok .clear := Tile.kind_eq_ok_iff.mpr (by decide)
  have howned : ({} : Tile).requireOwned = .ok () := if_neg (by decide)
  refine ⟨ask_of_tile hblank hkind, ?_, ask_of_tile hblank (Tile.owner_put howned (by decide))⟩
  rw [hblank]
  exact congrArg Except.ok (by decide)

end TileMap

namespace App

/-- The plugins, in whatever order, are refused just when the options ask for an edge that no map
has, with the report of the first check that fails. Otherwise the options stay as they are, the map
is a fresh one with the edges that they ask for, the streams start from their seed and each of the
four resources is registered once; and a reset leaves the world that the plugins make, in whatever
order, without any options. -/
theorem build_startOrders (c : MapConfig) {plugins : List Plugin}
    (hplugins : plugins ∈ startOrders) :
    (¬ c.InRange → ∃ f, build (some c) plugins = .error f ∧ f.message =
      if 32 ≤ c.bitsX ∨ 32 ≤ c.bitsY then "attempt to shift left with overflow"
      else s!"map size 2^{c.bitsX} x 2^{c.bitsY} out of range") ∧
    (c.InRange → ∃ a m sx sy, build (some c) plugins = .ok a ∧
      a.world.config = some c ∧ a.world.map = some m ∧ m.isConsistent = .ok true ∧
      (m.sizeX = .ok sx ∧ sx.toNat = 2 ^ c.bitsX.toNat) ∧
      (m.sizeY = .ok sy ∧ sy.toNat = 2 ^ c.bitsY.toNat) ∧
      m.size = 2 ^ (c.bitsX.toNat + c.bitsY.toNat) ∧
      (∀ t, m.Valid t → m.ask t Tile.kind = .ok .clear ∧ (m.tile t).map Tile.height = .ok 0 ∧
        m.ask t Tile.owner = .ok .nobody) ∧
      a.world.sim = some ⟨c.seed, c.seed⟩ ∧
      a.world.interactive = some ⟨c.seed * 0x1234567, c.seed * 0x1234567⟩ ∧
      a.registry.keys.Perm ["tile_map", "map_config", "sim_random", "interactive_random"] ∧
      ∀ others ∈ startOrders, ∃ b, build none others = .ok b ∧
        (a.act .resetAll).world = b.world) := by
  refine ⟨fun hrange => ⟨_, build_of_not_inRange (some c) hplugins hrange,
    c.message_fault⟩, fun hrange => ?_⟩
  obtain ⟨hx, hy⟩ := MapConfig.inRange_iff.mp hrange
  have hm := TileMap.ofLogs_eq_ok_iff.mpr ⟨⟨hx, hy⟩, rfl⟩
  have hconsistent := TileMap.consistent_of_ofLogs hm
  obtain ⟨a, hbuild, hstarted⟩ := exists_build (some c) hplugins hm
  refine ⟨a, _, _, _, hbuild, ?_, ?_, ?_, ⟨TileMap.sizeX_eq hx.lt_32, TileMap.toNat_sizeX hx.lt_32⟩,
    ⟨TileMap.sizeY_eq hy.lt_32, TileMap.toNat_sizeY hy.lt_32⟩, hconsistent.2.2,
    fun t ht => TileMap.ask_of_ofLogs hm ht, ?_, ?_, hstarted.keys, fun others hothers => ?_⟩
  · rw [hstarted.world]
    rfl
  · rw [hstarted.world]
  · rw [TileMap.isConsistent_eq, decide_eq_true hconsistent]
  · rw [hstarted.world]
    rfl
  · rw [hstarted.world]
    rfl
  · obtain ⟨b, hb, hstandard⟩ := exists_build none hothers TileMap.ofLogs_standardLog
    exact ⟨b, hb, hstarted.resetAll hstandard⟩

/-- A narrow map is made also where the streams come first, and reset to the standard one; an edge
too long for a word is refused before one that is merely too long or too short. -/
theorem build_startOrders_narrow :
    let c : MapConfig := { bitsX := 7, bitsY := 6, seed := 555 }
    let wide : MapConfig := { bitsX := 5, bitsY := 32 }
    [Plugin.random, Plugin.map] ∈ startOrders ∧ c.InRange ∧
      (∃ a m, build (some c) [.random, .map] = .ok a ∧ a.world.map = some m ∧ m.size = 2 ^ 13 ∧
        a.world.interactive = some ⟨0x7777764D, 0x7777764D⟩ ∧
        ∃ b, build none [.map, .random] = .ok b ∧ (a.act .resetAll).world = b.world) ∧
      ¬ wide.InRange ∧ ∃ f, build (some wide) [.everything] = .error f ∧
        f.message = "attempt to shift left with overflow" := by
  intro c wide
  have hlast : [Plugin.random, Plugin.map] ∈ startOrders := by decide
  have hrange : c.InRange := by decide
  have hwide : ¬ wide.InRange := by decide
  obtain ⟨a, m, -, -, hbuild, -, hmap, -, -, -, hsize, -, -, hinteractive, -, hreset⟩ :=
    (build_startOrders c hlast).2 hrange
  have hat : [Plugin.everything] ∈ startOrders := by decide
  obtain ⟨f, hrefused, hmessage⟩ := (build_startOrders wide hat).1 hwide
  exact ⟨hlast, hrange, ⟨a, m, hbuild, hmap, hsize, hinteractive.trans (by decide),
    hreset [.map, .random] (by decide)⟩, hwide, f, hrefused, hmessage⟩

end App

end RailGrid
