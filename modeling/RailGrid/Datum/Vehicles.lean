import RailGrid.Datum.Tiles
import RailGrid.Vehicle

/-!
# Vehicles as data

A vehicle is a record, its kind a choice in which only road vehicles have content, and its status a
text of flags.
-/

namespace RailGrid

open Form

instance : Form VehicleStatus where
  toDatum s := VehicleStatus.flags.toDatum s.bits
  ofDatum? d := (VehicleStatus.flags.ofDatum? d).map VehicleStatus.mk

/-- The names of what only road vehicles have. -/
def RoadState.fieldNames : List String := ["state", "frame", "blocked_ctr"]

instance : Form RoadState where
  toDatum r := .ofFields RoadState.fieldNames
    [toDatum r.state, toDatum r.frame, toDatum r.blockedCounter]
  ofDatum? d := do
    let [state, frame, blocked] ← d.fields? RoadState.fieldNames | none
    return {
      state := ← ofDatum? state, frame := ← ofDatum? frame, blockedCounter := ← ofDatum? blocked }

instance : Form VehicleKind where
  toDatum
    | .road r => .obj [(Enumeration.name VehicleType.road, toDatum r)]
    | kind => .str (Enumeration.name kind.type)
  ofDatum? d := do
    let (name, content) ← d.choice?
    match (← Enumeration.ofName? name : VehicleType) with
    | .road => return .road (← ofDatum? (← content))
    | type =>
      guard (Datum.isNothing content)
      return .ofType {} type

/-- The names of the parts of a vehicle. -/
def Vehicle.fieldNames : List String := ["tile", "status", "kind"]

instance : Form Vehicle where
  toDatum v := .ofFields Vehicle.fieldNames [toDatum v.tile, toDatum v.status, toDatum v.kind]
  ofDatum? d := do
    let [tile, status, kind] ← d.fields? Vehicle.fieldNames | none
    return { tile := ← ofDatum? tile, status := ← ofDatum? status, kind := ← ofDatum? kind }

end RailGrid
