import RailGrid.Rail.Tracks

/-!
# Depots and waypoints

The facilities that can stand on a railway tile. A depot opens to one edge, a waypoint lies along an
axis, has a number, and may have a look of its own. Either has a single straight track.
-/

namespace RailGrid.Tile

open Enumeration

/-- The facility on the railway tile; `none` when the stored bits name none. -/
def facility (x : Tile) : Except TileFault (Option Facility) := do
  let tag ← x.railTag
  unless tag = .facility do throw (.notFacility tag)
  return Facility.ofByte? x.m5

/-- Asks whether the given facility stands on the tile; no question is put that the answers so far
would let the tile refuse. -/
def testFacility (f : Facility) (x : Tile) : Except TileFault Bool := do
  unless x.isKind .railway do return false
  unless (← x.railTag) = .facility do return false
  return (← x.facility) == some f

/-- The given facility stands on the tile. -/
def hasFacility (x : Tile) (f : Facility) : Bool :=
  match x.facility with
  | .ok g => g == some f
  | .error _ => false

/-- The tile is a depot. -/
def isDepot (x : Tile) : Bool := x.hasFacility .depot

/-- The tile is a waypoint. -/
def isWaypoint (x : Tile) : Bool := x.hasFacility .waypoint

/-- Passes on tiles with the given facility. -/
def requireFacility (x : Tile) (f : Facility) (fault : TileFault) : Except TileFault Unit := do
  unless ← x.testFacility f do throw fault

/-- Passes on depots. -/
def requireDepot (x : Tile) : Except TileFault Unit := x.requireFacility .depot .notDepot

/-- Passes on waypoints. -/
def requireWaypoint (x : Tile) : Except TileFault Unit := x.requireFacility .waypoint .notWaypoint

/-- The edge to which the depot opens. -/
def depotDirection (x : Tile) : Except TileFault Direction := do
  x.requireDepot
  return ofCodeD (x.get .depotDirection) .northEast

/-- The axis along which the waypoint lies. -/
def waypointAxis (x : Tile) : Except TileFault Axis := do
  x.requireWaypoint
  return ofCodeD (x.get .waypointAxis) .x

/-- The track of the waypoint. -/
def waypointTrack (x : Tile) : Except TileFault Track := do
  return .along (← x.waypointAxis)

/-- The track of the waypoint as a set. -/
def waypointTracks (x : Tile) : Except TileFault TrackSet := do
  return .single (← x.waypointTrack)

/-- The number of the waypoint. -/
def waypointIndex (x : Tile) : Except TileFault UInt16 := do
  x.requireWaypoint
  return x.m2

/-- Whether the waypoint has a look of its own. -/
def hasCustomSprite (x : Tile) : Except TileFault Bool := do
  x.requireWaypoint
  return x.get .customSprite == 1

variable {x : Tile} {f : Facility} {fault : TileFault}

/-- The question for a facility is never refused. -/
theorem testFacility_eq : x.testFacility f = .ok (x.hasFacility f) := by
  unfold testFacility hasFacility facility
  cases h : x.isKind .railway with
  | false =>
    rw [railTag_of_not_railway h]
    rfl
  | true =>
    rw [railTag_of_railway h]
    by_cases htag : RailTag.ofByte x.m5 = .facility
    · simp only [htag, bind, Except.bind, pure, Except.pure, if_true]
    · simp only [htag, bind, Except.bind, pure, Except.pure, if_true, if_false, throw, throwThe,
        MonadExceptOf.throw]

theorem requireFacility_eq_ok_iff :
    x.requireFacility f fault = .ok () ↔ x.hasFacility f = true := by
  rw [requireFacility, testFacility_eq]
  cases x.hasFacility f <;> simp [bind, Except.bind, pure, Except.pure]

end RailGrid.Tile

namespace RailGrid.Change

/-- Gives the waypoint a look of its own, or takes it away. -/
def setCustomSprite (custom : Bool) : Change :=
  guarded Tile.requireWaypoint (·.put .customSprite custom.toUInt8)

end RailGrid.Change
