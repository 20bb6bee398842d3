import RailGrid.Random.Entropy
import RailGrid.Random.Streams
import RailGrid.TileMap.Grid
import RailGrid.TileMap.Mutators
import RailGrid.World.Basic

/-!
# The application around a world

An application is built by plugins, which make resources and register them for saving, and then
driven by single steps. Notices are collected on the way. A step that is refused keeps what it did
before the refusal.
-/

namespace RailGrid

/-- A part of the program that sets up its resources. -/
inductive Plugin where
  /-- The map and the random streams. -/
  | everything
  /-- The map and its options. -/
  | map
  /-- The random streams. -/
  | random
  deriving DecidableEq, Repr

/-- The name of a plugin in reports. -/
def Plugin.name : Plugin → String
  | everything => "railsim::RailSimPlugin"
  | map => "railsim::map::MapPlugin"
  | random => "railsim::random::RandomPlugin"

/-- Why a step was refused. -/
inductive WorldFault where
  /-- A plugin was added a second time. -/
  | pluginAddedTwice (p : Plugin)
  /-- A key was registered a second time. -/
  | keyRegisteredTwice (key : String)
  /-- The world does not have the resource. -/
  | missing (r : Resource)
  /-- The map refused. -/
  | map (f : MapFault)
  deriving DecidableEq, Repr

/-- The report of a refused step. -/
def WorldFault.message : WorldFault → String
  | pluginAddedTwice p =>
    s!"Error adding plugin {p.name}: : plugin was already added in application"
  | keyRegisteredTwice key => s!"save key '{key}' registered twice"
  | missing r => s!"Requested resource {resourceKey r} does not exist in the world"
  | map f => f.message

/-- A world, with what is known about it beside its resources. -/
structure App where
  /-- The resources. -/
  world : World := {}
  /-- The resources that belong to a save. -/
  registry : Registry Resource := {}
  /-- Whether a source of unpredictable bytes has been chosen. -/
  hasEntropy : Bool := false
  /-- The plugins that were added. -/
  plugins : List Plugin := []
  /-- The notices so far, in order. -/
  notices : List Notice := []
  deriving DecidableEq

/-- A step of an application. -/
abbrev AppM := Step App WorldFault

namespace App

/-- Adds a notice. -/
def notify (n : Notice) : AppM Unit := modify fun a => { a with notices := a.notices ++ [n] }

/-- The value of a resource that must be there. -/
def require (r : Resource) : AppM r.Value := do
  match (← get).world.get? r with
  | some v => return v
  | none => throw (.missing r)

/-- Puts a value into the world, in place of the one that is there. -/
def insert (r : Resource) (v : r.Value) : AppM Unit :=
  modify fun a => { a with world := a.world.set r (some v) }

/-- Takes a resource out of the world; tells whether it was there. -/
def remove (r : Resource) : AppM Bool :=
  modifyGet fun a => ((a.world.get? r).isSome, { a with world := a.world.set r none })

/-- The outcome of a request on the map as a step. -/
def ofMap {α : Type} : Except MapFault α → AppM α
  | .ok a => return a
  | .error f => throw (.map f)

/-- Registers a resource for saving; a key that is taken keeps its first resource. -/
def register (r : Resource) : AppM Unit := do
  match (← get).registry.register? r with
  | some registry => modify fun a => { a with registry }
  | none =>
    notify (.keyTaken (resourceKey r))
    throw (.keyRegisteredTwice (resourceKey r))

/-- The map options of the world, put there if there are none. -/
def initConfig : AppM MapConfig := do
  match (← get).world.config with
  | some c => return c
  | none =>
    insert .mapConfig {}
    return {}

/-- Makes the map that the options ask for. -/
def buildMap : AppM Unit := do
  let c ← initConfig
  let sizeX ← ofMap (TileMap.ofWord (Word.shiftLeft 1 c.bitsX))
  let sizeY ← ofMap (TileMap.ofWord (Word.shiftLeft 1 c.bitsY))
  notify (.creatingMap sizeX sizeY)
  insert .tileMap (← ofMap (TileMap.ofLogs c.bitsX c.bitsY))
  register .tileMap
  register .mapConfig

/-- Starts the random streams from the seed in the options. -/
def buildRandom : AppM Unit := do
  let c ← initConfig
  modify fun a => { a with hasEntropy := true }
  notify (.seeding c.seed)
  let streams := Streams.ofSeed c.seed
  insert .sim streams.sim
  insert .interactive streams.interactive
  register .sim
  register .interactive

/-- Notes that a plugin is added, which can be done once. -/
def enter (p : Plugin) : AppM Unit := do
  if p ∈ (← get).plugins then throw (.pluginAddedTwice p)
  modify fun a => { a with plugins := a.plugins ++ [p] }

/-- Adds the plugin for the map. -/
def addMap : AppM Unit := do
  enter .map
  buildMap

/-- Adds the plugin for the random streams. -/
def addRandom : AppM Unit := do
  enter .random
  buildRandom

/-- Adds a plugin. -/
def addPlugin : Plugin → AppM Unit
  | .map => addMap
  | .random => addRandom
  | .everything => do
    enter .everything
    addMap
    addRandom

/-- An application built by the given plugins, in order, from options if there are any. -/
def build (config : Option MapConfig) (plugins : List Plugin) : Except WorldFault App :=
  let (result, app) := (plugins.forM addPlugin).run.run { world := { config } }
  result.map fun _ => app

/-- Saves the registered resources. -/
def saveAll : AppM SaveMap := do
  let a ← get
  return a.registry.saveAll a.world

/-- Replaces the registered resources that were saved. -/
def loadAll (saved : SaveMap) : AppM Unit :=
  modify fun a =>
    let (world, notices) := a.registry.loadAll saved a.world
    { a with world, notices := a.notices ++ notices }

/-- Replaces the registered resources by their defaults. -/
def resetAll : AppM Unit := modify fun a => { a with world := a.registry.resetAll a.world }

/-- Asks the simulation stream. -/
def askSim {α : Type} (request : Generator → α × Generator) : AppM α := do
  let (a, g) := request (← require .sim)
  insert .sim g
  return a

/-- Asks the interactive stream. -/
def askInteractive {α : Type} (request : Generator → α × Generator) : AppM α := do
  let (a, g) := request (← require .interactive)
  insert .interactive g
  return a

/-- Starts both streams anew from a seed. -/
def reseed (seed : UInt32) : AppM Unit := do
  discard (require .sim)
  discard (require .interactive)
  insert .sim (Streams.ofSeed seed).sim
  insert .interactive (Streams.ofSeed seed).interactive

/-- Asks a question of the map. -/
def askMap {α : Type} (question : TileMap → Except MapFault α) : AppM α := do
  ofMap (question (← require .tileMap))

/-- Makes an edit on the map of the world. -/
def editMap (t : TileIndex) (e : Edit) : AppM Unit := do
  let (result, m) := (← require .tileMap).edit t e
  insert .tileMap m
  ofMap result

end App

end RailGrid
