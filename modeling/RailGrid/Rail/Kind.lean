import RailGrid.Enumeration
import RailGrid.Tile.Layout

/-!
# What a railway tile carries

Railway tiles differ by their tag: plain track, track with signals, or a facility in place of
track. The tag is stored in the two top bits of a byte, the facility in the four bits below them,
so that both can also be read from a bare byte.
-/

namespace RailGrid

/-- A type of rail. -/
inductive RailType where
  | rail | electric | monorail | maglev
  deriving DecidableEq, Repr

instance : Enumeration RailType where
  members := [.rail, .electric, .monorail, .maglev]
  name
    | .rail => "Rail"
    | .electric => "Electric"
    | .monorail => "Monorail"
    | .maglev => "Maglev"
  mem_members a := by cases a <;> decide
  nodup_names := by decide
  length_members_le := by decide

/-- What a railway tile carries. -/
inductive RailTag where
  /-- Track alone. -/
  | plain
  /-- Track with signals. -/
  | signals
  /-- No layout is assigned to this tag. -/
  | unused
  /-- A depot or a waypoint. -/
  | facility
  deriving DecidableEq, Repr

instance : Enumeration RailTag where
  members := [.plain, .signals, .unused, .facility]
  name
    | .plain => "Normal"
    | .signals => "Signals"
    | .unused => "Unused"
    | .facility => "DepotWaypoint"
  mem_members a := by cases a <;> decide
  nodup_names := by decide
  length_members_le := by decide

namespace RailTag

/-- Whether tiles with the tag store a set of tracks. -/
def hasTracks : RailTag → Bool
  | plain | signals => true
  | unused | facility => false

/-- The tag in the top bits of a byte. -/
def ofByte (b : UInt8) : RailTag :=
  Enumeration.ofCodeD (Field.railTag.range.readByte b) .facility

/-- The byte that holds the tag and nothing else. -/
def toByte (t : RailTag) : UInt8 := Field.railTag.range.writeByte 0 (Enumeration.code t)

end RailTag

/-- What can stand on a railway tile in place of track. -/
inductive Facility where
  | depot | waypoint
  deriving DecidableEq, Repr

instance : Enumeration Facility where
  members := [.depot, .waypoint]
  name
    | .depot => "Depot"
    | .waypoint => "Waypoint"
  mem_members a := by cases a <;> decide
  nodup_names := by decide
  length_members_le := by decide

/-- The facility in the middle bits of a byte, if one is assigned to them. -/
def Facility.ofByte? (b : UInt8) : Option Facility :=
  Enumeration.ofCode? (Field.facility.range.readByte b)

end RailGrid
