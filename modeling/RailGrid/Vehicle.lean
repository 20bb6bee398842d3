import RailGrid.Flags
import RailGrid.Tile.Fault

/-!
# Vehicles

Vehicles as far as depots need them: where they are, their status flags, and what only road vehicles
have. Whether a vehicle is in a depot is asked of road vehicles only.
-/

namespace RailGrid

/-- The type of a vehicle. -/
inductive VehicleType where
  | train | road | ship | aircraft | special | disaster
  deriving DecidableEq, Repr

instance : Enumeration VehicleType where
  members := [.train, .road, .ship, .aircraft, .special, .disaster]
  name
    | .train => "Train"
    | .road => "Road"
    | .ship => "Ship"
    | .aircraft => "Aircraft"
    | .special => "Special"
    | .disaster => "Disaster"
  mem_members a := by cases a <;> decide
  nodup_names := by decide
  length_members_le := by decide

/-- The status flags of a vehicle. -/
structure VehicleStatus where
  /-- One bit for each flag. -/
  bits : UInt8 := 0
  deriving DecidableEq, Repr

namespace VehicleStatus

/-- The names of the status flags. -/
def flags : FlagTable where
  singles := [⟨"HIDDEN", 0x01⟩, ⟨"STOPPED", 0x02⟩, ⟨"UNCLICKABLE", 0x04⟩,
    ⟨"DEFAULT_PALETTE", 0x08⟩, ⟨"TRAIN_SLOWING", 0x10⟩, ⟨"SHADOW", 0x20⟩,
    ⟨"AIRCRAFT_BROKEN", 0x40⟩, ⟨"CRASHED", 0x80⟩]
  unions := []

/-- Whether the vehicle stands still. -/
def isStopped (s : VehicleStatus) : Bool := s.bits &&& 0x02 == 0x02

end VehicleStatus

/-- What only road vehicles have. -/
structure RoadState where
  /-- The place on the road tile, or that the vehicle is in a depot. -/
  state : UInt8 := 0
  /-- The animation frame. -/
  frame : UInt8 := 0
  /-- For how long the vehicle has been blocked. -/
  blockedCounter : UInt16 := 0
  deriving DecidableEq, Repr

/-- The state of a road vehicle inside a depot. -/
def RoadState.inDepot : UInt8 := 254

/-- A vehicle's type, with what only that type has. -/
inductive VehicleKind where
  | train
  | road (r : RoadState)
  | ship | aircraft | special | disaster
  deriving DecidableEq, Repr

/-- The type alone. -/
def VehicleKind.type : VehicleKind → VehicleType
  | train => .train
  | road _ => .road
  | ship => .ship
  | aircraft => .aircraft
  | special => .special
  | disaster => .disaster

/-- The kind of a vehicle of the given type; road vehicles get the given state. -/
def VehicleKind.ofType (r : RoadState) : VehicleType → VehicleKind
  | .train => train
  | .road => road r
  | .ship => ship
  | .aircraft => aircraft
  | .special => special
  | .disaster => disaster

/-- A vehicle on a tile. -/
structure Vehicle where
  /-- The tile on which it is. -/
  tile : TileIndex
  /-- Its status flags. -/
  status : VehicleStatus := {}
  /-- What it is. -/
  kind : VehicleKind
  deriving DecidableEq, Repr

/-- Why a question about a vehicle was refused. -/
inductive VehicleFault where
  /-- Only road vehicles can answer. -/
  | notRoad (type : VehicleType)
  deriving DecidableEq, Repr

/-- The report of a refused question. -/
def VehicleFault.message : VehicleFault → String
  | notRoad type => s!"{Enumeration.name type} is not a road vehicle"

namespace Vehicle

/-- Whether the road vehicle is inside a depot. -/
def isInDepot (v : Vehicle) : Except VehicleFault Bool :=
  match v.kind with
  | .road r => .ok (r.state == RoadState.inDepot)
  | kind => .error (.notRoad kind.type)

/-- Whether the road vehicle stands still inside a depot. -/
def isStoppedInDepot (v : Vehicle) : Except VehicleFault Bool := do
  return (← v.isInDepot) && v.status.isStopped

end Vehicle

end RailGrid
