import RailGrid.Rail.View

/-!
# Edits

The changes that can be asked for on one tile, as data: a course of edits can be stored, filtered by
tile and replayed. `Edit.change` says what each one does to a record.
-/

namespace RailGrid

/-- A change asked for on one tile. -/
inductive Edit where
  /-- Makes the tile one of another kind. -/
  | setKind (k : TileKind)
  /-- Sets the height. -/
  | setHeight (h : UInt8)
  /-- Gives the tile to an owner. -/
  | setOwner (o : Owner)
  /-- Makes the tile clear land. -/
  | makeClear
  /-- Sets the rail type. -/
  | setRailType (r : RailType)
  /-- Sets the rail type of a level crossing. -/
  | setCrossingRailType (r : RailType)
  /-- Sets the rail type on a bridge. -/
  | setBridgeRailType (r : RailType)
  /-- Replaces the tracks. -/
  | setTracks (s : TrackSet)
  /-- Gives a waypoint a look of its own, or takes it away. -/
  | setCustomSprite (custom : Bool)
  /-- Sets the role of the signals. -/
  | setSignalKind (k : SignalKind)
  /-- Sets the construction of the signals. -/
  | setSignalStyle (s : SignalStyle)
  /-- Puts signals on plain track. -/
  | addSignals (k : SignalKind) (s : SignalStyle)
  /-- Takes the signals away. -/
  | removeSignals
  /-- Makes the tile plain track. -/
  | makeTrack (o : Owner) (s : TrackSet) (r : RailType)
  /-- Makes the tile a depot. -/
  | makeDepot (o : Owner) (d : Direction) (r : RailType)
  /-- Makes the tile a waypoint. -/
  | makeWaypoint (o : Owner) (a : Axis) (r : RailType) (index : UInt16)
  /-- Lays out the tile for a content. -/
  | setRail (r : RailTile)
  /-- Replaces the whole record. -/
  | overwrite (x : Tile)
  deriving DecidableEq, Repr

/-- What an edit does to a record. -/
def Edit.change : Edit → Change
  | setKind k => .setKind k
  | setHeight h => .setHeight h
  | setOwner o => .setOwner o
  | makeClear => .makeClear
  | setRailType r => .setRailType r
  | setCrossingRailType r => .setCrossingRailType r
  | setBridgeRailType r => .setBridgeRailType r
  | setTracks s => .setTracks s
  | setCustomSprite custom => .setCustomSprite custom
  | setSignalKind k => .setSignalKind k
  | setSignalStyle s => .setSignalStyle s
  | addSignals k s => .addSignals k s
  | removeSignals => .removeSignals
  | makeTrack o s r => .makeTrack o s r
  | makeDepot o d r => .makeDepot o d r
  | makeWaypoint o a r index => .makeWaypoint o a r index
  | setRail r => .setRail r
  | overwrite x => .always fun _ => x

end RailGrid
