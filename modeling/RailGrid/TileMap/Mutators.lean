import RailGrid.Step
import RailGrid.TileMap.Access

/-!
# Requests that change a map

Every edit is a sequence of questions to single tiles and of writes to single tiles, each of which
names its tile. The questions come before the writes that depend on them, but some edits write before
their last question, and what they wrote stays when that is refused.
-/

namespace RailGrid

open Enumeration

/-- A request on a map, which may be refused part way. -/
abbrev MapM := Step TileMap MapFault

namespace MapM

/-- Asks a question of the record of a tile. -/
def ask {α : Type} (t : TileIndex) (question : Tile → Except TileFault α) : MapM α :=
  ExceptT.mk fun m => (m.ask t question, m)

/-- Rewrites the record of a tile. -/
def update (t : TileIndex) (f : Tile → Tile) : MapM Unit :=
  ExceptT.mk fun m =>
    match m.tile t with
    | .ok x => (.ok (), m.setTile t (f x))
    | .error e => (.error e, m)

/-- Rewrites the record of a tile that passes a check. -/
def updateChecked (t : TileIndex) (check : Tile → Except TileFault Unit) (f : Tile → Tile) :
    MapM Unit := do
  ask t check
  update t f

/-! ### What every tile has -/

/-- Makes the tile one of another kind. -/
def setKind (t : TileIndex) (k : TileKind) : MapM Unit := update t (·.put .kind (code k))

/-- Sets the height, which has to fit into the record. -/
def setHeight (t : TileIndex) (h : UInt8) : MapM Unit := do
  unless h < 16 do throw (.heightTooLarge h)
  update t (·.put .height h)

/-- Gives the tile to an owner that fits into the record. -/
def setOwner (t : TileIndex) (o : Owner) : MapM Unit := do
  ask t Tile.requireOwned
  unless o.Fits do throw (.tile t (.ownerTooWide o))
  update t (·.put .owner o.number)

/-- Makes the tile clear land that belongs to nobody, at the height it has. -/
def makeClear (t : TileIndex) : MapM Unit := do
  let h ← ask t fun x => return x.height
  update t fun _ => {}
  setHeight t h
  setOwner t .nobody

/-! ### Tracks and facilities -/

/-- Sets the rail type. -/
def setRailType (t : TileIndex) (r : RailType) : MapM Unit := update t (·.put .railType (code r))

/-- Sets the rail type of the track that crosses the road. -/
def setCrossingRailType (t : TileIndex) (r : RailType) : MapM Unit :=
  updateChecked t Tile.requireCrossing (·.put .crossingRailType (code r))

/-- Sets the rail type of the track on the bridge. -/
def setBridgeRailType (t : TileIndex) (r : RailType) : MapM Unit :=
  updateChecked t Tile.requireBridge (·.put .bridgeRailType (code r))

/-- Replaces the tracks. -/
def setTracks (t : TileIndex) (s : TrackSet) : MapM Unit :=
  updateChecked t Tile.requireTracks (·.put .tracks s.bits)

/-- Gives the waypoint a look of its own, or takes it away. -/
def setCustomSprite (t : TileIndex) (custom : Bool) : MapM Unit :=
  updateChecked t Tile.requireWaypoint (·.put .customSprite custom.toUInt8)

/-! ### Signals -/

/-- Sets the role of the signals. -/
def setSignalKind (t : TileIndex) (k : SignalKind) : MapM Unit :=
  updateChecked t Tile.requireSignals (·.put .signalKind (code k))

/-- Sets the construction of the signals. -/
def setSignalStyle (t : TileIndex) (s : SignalStyle) : MapM Unit :=
  updateChecked t Tile.requireSignals (·.put .signalStyle (code s))

/-- Puts signals on a tile of plain track. -/
def addSignals (t : TileIndex) (k : SignalKind) (s : SignalStyle) : MapM Unit := do
  updateChecked t Tile.requirePlain (·.put .railTag (code RailTag.signals))
  setSignalKind t k
  setSignalStyle t s

/-- Takes the signals from a signal tile. -/
def removeSignals (t : TileIndex) : MapM Unit :=
  updateChecked t Tile.requireSignals Tile.stripped

/-! ### Building -/

/-- Makes the tile an empty railway tile. -/
def makeRailway (t : TileIndex) (o : Owner) (r : RailType) : MapM Unit := do
  setKind t .railway
  setOwner t o
  update t (Tile.emptied r)

/-- Makes the tile plain track. -/
def makeTrack (t : TileIndex) (o : Owner) (s : TrackSet) (r : RailType) : MapM Unit := do
  makeRailway t o r
  update t (Tile.asTrack s)

/-- Makes the tile a depot that opens to an edge. -/
def makeDepot (t : TileIndex) (o : Owner) (d : Direction) (r : RailType) : MapM Unit := do
  makeRailway t o r
  update t (Tile.asDepot d)

/-- Makes the tile a waypoint along an axis. -/
def makeWaypoint (t : TileIndex) (o : Owner) (a : Axis) (r : RailType) (index : UInt16) :
    MapM Unit := do
  makeRailway t o r
  update t (Tile.asWaypoint a index)

/-- Lays out the tile for the given content. -/
def setRail (t : TileIndex) : RailTile → MapM Unit
  | .track o r s => makeTrack t o s r
  | .signals o r s kind style => do
    makeTrack t o s r
    addSignals t kind style
  | .depot o r d => makeDepot t o d r
  | .waypoint o r a index custom => do
    makeWaypoint t o a r index
    if custom then setCustomSprite t true

/-- Makes an edit on a tile. -/
def perform (t : TileIndex) : Edit → MapM Unit
  | .setKind k => setKind t k
  | .setHeight h => setHeight t h
  | .setOwner o => setOwner t o
  | .makeClear => makeClear t
  | .setRailType r => setRailType t r
  | .setCrossingRailType r => setCrossingRailType t r
  | .setBridgeRailType r => setBridgeRailType t r
  | .setTracks s => setTracks t s
  | .setCustomSprite custom => setCustomSprite t custom
  | .setSignalKind k => setSignalKind t k
  | .setSignalStyle s => setSignalStyle t s
  | .addSignals k s => addSignals t k s
  | .removeSignals => removeSignals t
  | .makeTrack o s r => makeTrack t o s r
  | .makeDepot o d r => makeDepot t o d r
  | .makeWaypoint o a r index => makeWaypoint t o a r index
  | .setRail r => setRail t r
  | .overwrite x => update t fun _ => x

end MapM

/-- Makes an edit on a tile: the outcome and the map it leaves. -/
def TileMap.edit (m : TileMap) (t : TileIndex) (e : Edit) : Except MapFault Unit × TileMap :=
  (MapM.perform t e).run.run m

end RailGrid
