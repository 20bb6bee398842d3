import RailGrid.Rail.Track
import RailGrid.Tile.Land

/-!
# Tracks on railway tiles

The tag of a railway tile and the requests that every railway tile answers, with the rail types of
bridges and of level crossings, which lie on other kinds of tile. The tag is looked at before the
bits that depend on it.
-/

namespace RailGrid.Tile

open Enumeration

/-- Passes on railway tiles. -/
def requireRailway (x : Tile) : Except TileFault Unit :=
  if x.isKind .railway then .ok () else .error .notRailway

/-- What the railway tile carries. -/
def railTag (x : Tile) : Except TileFault RailTag := do
  x.requireRailway
  return .ofByte x.m5

/-- The rail type stored in a field. -/
def railTypeIn (x : Tile) (f : Field) : Except TileFault RailType :=
  match ofCode? (x.get f) with
  | some r => .ok r
  | none => .error (.invalidRailType (x.get f))

/-- The rail type of the tile. -/
def railType (x : Tile) : Except TileFault RailType := x.railTypeIn .railType

/-- Passes on tiles that can hold a level crossing. -/
def requireCrossing (x : Tile) : Except TileFault Unit :=
  if x.isKind .road then .ok () else .error .notCrossing

/-- The rail type of the track that crosses the road. -/
def crossingRailType (x : Tile) : Except TileFault RailType := do
  x.requireCrossing
  x.railTypeIn .crossingRailType

/-- Passes on tunnels and bridges. -/
def requireBridge (x : Tile) : Except TileFault Unit :=
  if x.isKind .tunnelBridge then .ok () else .error .notBridge

/-- The rail type of the track on the bridge. -/
def bridgeRailType (x : Tile) : Except TileFault RailType := do
  x.requireBridge
  x.railTypeIn .bridgeRailType

/-- Passes on railway tiles that store a set of tracks. -/
def requireTracks (x : Tile) : Except TileFault Unit := do
  let tag ← x.railTag
  unless tag.hasTracks do throw (.storesNoTracks tag)

/-- The tracks of a plain or signal tile. -/
def tracks (x : Tile) : Except TileFault TrackSet := do
  x.requireTracks
  return TrackSet.truncate ⟨x.get .tracks⟩

variable {x : Tile}

theorem railTag_of_railway (h : x.isKind .railway = true) : x.railTag = .ok (.ofByte x.m5) := by
  rw [railTag, requireRailway, if_pos h]
  rfl

theorem railTag_of_not_railway (h : x.isKind .railway = false) :
    x.railTag = .error .notRailway := by
  rw [railTag, requireRailway, h]
  rfl

end RailGrid.Tile

namespace RailGrid.Change

open Enumeration

/-- Sets the rail type; no kind of tile refuses this. -/
def setRailType (r : RailType) : Change := always (·.put .railType (code r))

/-- Sets the rail type of the track that crosses the road. -/
def setCrossingRailType (r : RailType) : Change :=
  guarded Tile.requireCrossing (·.put .crossingRailType (code r))

/-- Sets the rail type of the track on the bridge. -/
def setBridgeRailType (r : RailType) : Change :=
  guarded Tile.requireBridge (·.put .bridgeRailType (code r))

/-- Replaces the tracks of a plain or signal tile by the six low bits of a set. -/
def setTracks (s : TrackSet) : Change :=
  guarded Tile.requireTracks (·.put .tracks s.bits)

end RailGrid.Change
