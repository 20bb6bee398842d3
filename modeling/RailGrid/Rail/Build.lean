import RailGrid.Rail.Facilities
import RailGrid.Rail.Signals

/-!
# Building railway tiles

The constructors lay out a railway tile anew, whatever was there before: only the height and the
bits beside the owner survive. The tile is a railway tile before its owner is set, so that houses
and industries can be built over, and stays one when the owner is refused.
-/

namespace RailGrid

open Enumeration

namespace Tile

/-- The record with nothing stored about its railway but the rail type. -/
def emptied (r : RailType) (x : Tile) : Tile := { x with m2 := 0, m3 := code r, m4 := 0, m5 := 0 }

/-- The record of a railway tile with plain track stored. -/
def asTrack (s : TrackSet) (x : Tile) : Tile :=
  { x with m5 := RailTag.plain.toByte }.put .tracks s.bits

/-- The record of a railway tile with a depot stored. -/
def asDepot (d : Direction) (x : Tile) : Tile :=
  ({ x with m5 := RailTag.facility.toByte }.put .facility (code Facility.depot)).put
    .depotDirection (code d)

/-- The record of a railway tile with a waypoint stored. -/
def asWaypoint (a : Axis) (index : UInt16) (x : Tile) : Tile :=
  ({ x with m2 := index, m5 := RailTag.facility.toByte }.put .facility
    (code Facility.waypoint)).put .waypointAxis (code a)

end Tile

namespace Change

/-- Makes the tile an empty railway tile. -/
def makeRailway (o : Owner) (r : RailType) : Change := do
  setKind .railway
  setOwner o
  always (Tile.emptied r)

/-- Makes the tile plain track. -/
def makeTrack (o : Owner) (s : TrackSet) (r : RailType) : Change := do
  makeRailway o r
  always (Tile.asTrack s)

/-- Makes the tile a depot that opens to an edge. -/
def makeDepot (o : Owner) (d : Direction) (r : RailType) : Change := do
  makeRailway o r
  always (Tile.asDepot d)

/-- Makes the tile a waypoint along an axis. -/
def makeWaypoint (o : Owner) (a : Axis) (r : RailType) (index : UInt16) : Change := do
  makeRailway o r
  always (Tile.asWaypoint a index)

variable {x : Tile} {o : Owner} {r : RailType}

/-- Only the height and the bits beside the owner are left of the old record. -/
theorem on_makeRailway_of_fits (ho : o.Fits) : (makeRailway o r).on x =
    (.ok (), { (x.put .kind (code TileKind.railway)).put .owner o.number with
      m2 := 0, m3 := code r, m4 := 0, m5 := 0 }) := by
  have howned := Tile.requireOwned_put_kind (x := x) (k := .railway) (by decide) (by decide)
  rw [makeRailway, setKind, on_seq_of_ok on_always,
    on_seq_of_ok (on_setOwner_of_fits howned ho), on_always, Tile.emptied]

/-- An owner too wide for the record is refused after the tile has become a railway tile. -/
theorem on_makeRailway_of_not_fits (ho : ¬ o.Fits) : (makeRailway o r).on x =
    (.error (.ownerTooWide o), x.put .kind (code TileKind.railway)) := by
  have howned := Tile.requireOwned_put_kind (x := x) (k := .railway) (by decide) (by decide)
  rw [makeRailway, setKind, on_seq_of_ok on_always,
    on_seq_of_error (on_setOwner_of_not_fits howned ho)]

end Change

end RailGrid
