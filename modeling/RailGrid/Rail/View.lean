import RailGrid.Rail.Build

/-!
# Railway tiles as values

`RailTile` is a railway tile taken apart: each form carries just the items that it has. A record is
read into it by its tag, and written from it by the constructors. Owner and rail type are read
before the tag is looked at, so a record with an invalid rail type is refused whatever its tag.
-/

namespace RailGrid

/-- The content of a railway tile. -/
inductive RailTile where
  /-- Track alone. -/
  | track (owner : Owner) (railType : RailType) (tracks : TrackSet)
  /-- Track with signals. -/
  | signals (owner : Owner) (railType : RailType) (tracks : TrackSet) (kind : SignalKind)
    (style : SignalStyle)
  /-- A depot that opens to an edge. -/
  | depot (owner : Owner) (railType : RailType) (direction : Direction)
  /-- A waypoint along an axis. -/
  | waypoint (owner : Owner) (railType : RailType) (axis : Axis) (index : UInt16)
    (customSprite : Bool)
  deriving DecidableEq, Repr

namespace RailTile

/-- The owner of the tile. -/
def owner : RailTile → Owner
  | track o _ _ | signals o _ _ _ _ | depot o _ _ | waypoint o _ _ _ _ => o

/-- The rail type of the tile. -/
def railType : RailTile → RailType
  | track _ r _ | signals _ r _ _ _ | depot _ r _ | waypoint _ r _ _ _ => r

/-- The tracks a train can use; a facility has the straight track along its axis. -/
def tracks : RailTile → TrackSet
  | track _ _ s | signals _ _ s _ _ => s
  | depot _ _ d => .single (.along d.axis)
  | waypoint _ _ a _ _ => .single (.along a)

end RailTile

/-- The content of the tile; `none` when it is no railway tile or its layout is not assigned. -/
def Tile.rail (x : Tile) : Except TileFault (Option RailTile) := do
  unless x.isKind .railway do return none
  let owner ← x.owner
  let railType ← x.railType
  match ← x.railTag with
  | .plain => return some (.track owner railType (← x.tracks))
  | .signals =>
    return some (.signals owner railType (← x.tracks) (← x.signalKind) (← x.signalStyle))
  | .unused => return none
  | .facility =>
    match ← x.facility with
    | none => return none
    | some .depot => return some (.depot owner railType (← x.depotDirection))
    | some .waypoint =>
      return some
        (.waypoint owner railType (← x.waypointAxis) (← x.waypointIndex) (← x.hasCustomSprite))

/-- Lays out the tile for the given content. -/
def Change.setRail : RailTile → Change
  | .track o r s => makeTrack o s r
  | .signals o r s kind style => do
    makeTrack o s r
    addSignals kind style
  | .depot o r d => makeDepot o d r
  | .waypoint o r a index custom => do
    makeWaypoint o a r index
    if custom then setCustomSprite true

end RailGrid
