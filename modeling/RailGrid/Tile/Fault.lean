import RailGrid.Rail.Kind

/-!
# Why a tile refuses a request

Every request on a tile record names what it needs of the record. When that is missing the request
is refused with one of these causes. The reports name the tile, which only the map knows.
-/

namespace RailGrid

/-- The position of a tile in its map. -/
structure TileIndex where
  /-- The number of tiles before it. -/
  number : UInt32
  deriving DecidableEq, Repr

/-- The text of a tile index in reports. -/
def TileIndex.text (t : TileIndex) : String := s!"TileIndex({t.number})"

/-- The text of an owner in reports. -/
def Owner.text (o : Owner) : String := s!"Owner({o.number})"

/-- Why a request on a tile was refused. -/
inductive TileFault where
  /-- The stored kind is none of the known ones. -/
  | corruptKind (bits : UInt8)
  /-- Tiles of this kind keep no owner. -/
  | storesNoOwner
  /-- The owner does not fit into the record. -/
  | ownerTooWide (owner : Owner)
  /-- The stored rail type is none of the known ones. -/
  | invalidRailType (bits : UInt8)
  /-- The tile is not a railway tile. -/
  | notRailway
  /-- The tile is not a road tile, so no rail crosses it. -/
  | notCrossing
  /-- The tile is neither tunnel nor bridge. -/
  | notBridge
  /-- Railway tiles with this tag store no tracks. -/
  | storesNoTracks (tag : RailTag)
  /-- The railway tile carries no facility. -/
  | notFacility (tag : RailTag)
  /-- The tile is not a depot. -/
  | notDepot
  /-- The tile is not a waypoint. -/
  | notWaypoint
  /-- The railway tile has no signals. -/
  | noSignals (tag : RailTag)
  /-- Signals cannot be added to the railway tile. -/
  | takesNoSignals (tag : RailTag)
  deriving DecidableEq, Repr

namespace TileFault

/-- The report that a tag is not the one a request needs. -/
def mismatch (claim : String) (found needed : RailTag) : String :=
  s!"assertion `left == right` failed: {claim}" ++
    s!"\n  left: {Enumeration.name found}\n right: {Enumeration.name needed}"

/-- The report of a refused request on the tile at `t`. -/
def message (t : TileIndex) : TileFault → String
  | corruptKind bits => s!"{t.text} has corrupt tile type {bits}"
  | storesNoOwner => s!"{t.text}: houses and industries store no owner"
  | ownerTooWide o => s!"{o.text} does not fit in {Owner.width} bits"
  | invalidRailType bits => s!"{t.text} has invalid rail type {bits}"
  | notRailway => s!"{t.text} is not a railway tile"
  | notCrossing => s!"{t.text} is not a level crossing"
  | notBridge => s!"{t.text} is not a bridge"
  | storesNoTracks tag => s!"{t.text} is a {Enumeration.name tag} rail tile without track bits"
  | notFacility tag => mismatch s!"{t.text} is not a depot or waypoint" tag .facility
  | notDepot => s!"{t.text} is not a rail depot"
  | notWaypoint => s!"{t.text} is not a rail waypoint"
  | noSignals tag => mismatch s!"{t.text} has no signals" tag .signals
  | takesNoSignals tag => mismatch s!"{t.text} cannot take signals" tag .plain

end TileFault

end RailGrid
