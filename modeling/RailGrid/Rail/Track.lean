import RailGrid.Direction
import RailGrid.Flags

/-!
# Tracks

A tile can carry six pieces of track: two straight ones along the axes and one across each corner.
A set of them is a byte with one bit for each piece; bits above the sixth have no meaning but are
kept until the set is truncated.
-/

namespace RailGrid

/-- One piece of track within a tile. -/
inductive Track where
  /-- Along the x axis. -/
  | x
  /-- Along the y axis. -/
  | y
  | upper | lower | left | right
  deriving DecidableEq, Repr

instance : Enumeration Track where
  members := [.x, .y, .upper, .lower, .left, .right]
  name
    | .x => "X"
    | .y => "Y"
    | .upper => "Upper"
    | .lower => "Lower"
    | .left => "Left"
    | .right => "Right"
  mem_members a := by cases a <;> decide
  nodup_names := by decide
  length_members_le := by decide

/-- The straight track along an axis. -/
def Track.along : Axis → Track
  | .x => .x
  | .y => .y

/-- A set of tracks. -/
structure TrackSet where
  /-- One bit for each track, and possibly bits without a meaning. -/
  bits : UInt8
  deriving DecidableEq, Repr

namespace TrackSet

/-- The names of track sets. -/
def flags : FlagTable where
  singles := [⟨"X", 0x01⟩, ⟨"Y", 0x02⟩, ⟨"UPPER", 0x04⟩, ⟨"LOWER", 0x08⟩, ⟨"LEFT", 0x10⟩,
    ⟨"RIGHT", 0x20⟩]
  unions := [⟨"CROSS", 0x03⟩, ⟨"HORZ", 0x0C⟩, ⟨"VERT", 0x30⟩, ⟨"THREE_WAY_NE", 0x25⟩,
    ⟨"THREE_WAY_SE", 0x2A⟩, ⟨"THREE_WAY_SW", 0x19⟩, ⟨"THREE_WAY_NW", 0x16⟩, ⟨"ALL", 0x3F⟩]

/-- The set of one track. -/
def single (t : Track) : TrackSet := ⟨1 <<< Enumeration.code t⟩

/-- Whether every track of `t` is in `s`. -/
def contains (s t : TrackSet) : Bool := s.bits &&& t.bits == t.bits

/-- The tracks of the set, in the order of their codes. -/
def toList (s : TrackSet) : List Track :=
  Enumeration.members.filter fun t => s.contains (single t)

/-- The set without the bits that have no meaning. -/
def truncate (s : TrackSet) : TrackSet := ⟨s.bits &&& flags.known⟩

end TrackSet

end RailGrid
