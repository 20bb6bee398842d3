import RailGrid.Save.Registry

/-!
# The resources of a world

A world holds at most one of each resource: the map, the options it was made from, the two random
streams, and a speed limit. As a store of saveable resources it obeys the laws of stores.
-/

namespace RailGrid

/-- A resource of a world. -/
inductive Resource where
  | tileMap | mapConfig | sim | interactive | speedLimit
  deriving DecidableEq, Repr

namespace Resource

/-- The type of a resource's values. -/
abbrev Value : Resource → Type
  | tileMap => TileMap
  | mapConfig => MapConfig
  | sim | interactive => Generator
  | speedLimit => SpeedLimit

/-- How a resource is saved. -/
def saveable : (r : Resource) → Saveable r.Value
  | tileMap => .tileMap
  | mapConfig => .mapConfig
  | sim => .stream "sim_random"
  | interactive => .stream "interactive_random"
  | speedLimit => .speedLimit

instance : ResourceFamily Resource where
  Value := Value
  saveable := saveable

/-- No two resources of a world share a key. -/
theorem resourceKey_injective {q r : Resource} (h : resourceKey q = resourceKey r) : q = r := by
  cases q <;> cases r <;> first | rfl | exact absurd h (by decide)

/-- All resources. -/
def all : List Resource := [tileMap, mapConfig, sim, interactive, speedLimit]

/-- The resource with the given key. -/
def ofKey? (key : String) : Option Resource := all.find? fun r => resourceKey r == key

end Resource

/-- The resources that are present. -/
structure World where
  /-- The map. -/
  map : Option TileMap := none
  /-- The options of the map. -/
  config : Option MapConfig := none
  /-- The simulation stream. -/
  sim : Option Generator := none
  /-- The interactive stream. -/
  interactive : Option Generator := none
  /-- The speed limit. -/
  speed : Option SpeedLimit := none
  deriving DecidableEq

namespace World

/-- The value of a resource, if it is present. -/
def get? (w : World) : (r : Resource) → Option r.Value
  | .tileMap => w.map
  | .mapConfig => w.config
  | .sim => w.sim
  | .interactive => w.interactive
  | .speedLimit => w.speed

/-- The world with the value of a resource replaced, or taken away. -/
def set (w : World) : (r : Resource) → Option r.Value → World
  | .tileMap, v => { w with map := v }
  | .mapConfig, v => { w with config := v }
  | .sim, v => { w with sim := v }
  | .interactive, v => { w with interactive := v }
  | .speedLimit, v => { w with speed := v }

instance : Store World Resource where
  get? := get?
  set := set

instance : LawfulStore World Resource where
  get?_set_self w r v := by cases r <;> rfl
  get?_set_of_ne w r s v h := by cases r <;> cases s <;> simp_all [Store.get?, Store.set, get?, set]
  ext w v h := by
    cases w
    cases v
    have h₁ := h .tileMap
    have h₂ := h .mapConfig
    have h₃ := h .sim
    have h₄ := h .interactive
    have h₅ := h .speedLimit
    simp only [Store.get?, get?] at h₁ h₂ h₃ h₄ h₅
    simp only [h₁, h₂, h₃, h₄, h₅]

end World

end RailGrid
