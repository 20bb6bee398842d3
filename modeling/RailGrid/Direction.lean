import RailGrid.Enumeration

/-!
# Directions and axes of the tile grid

The four edges of a tile, clockwise from north-east, and the two axes along which they lie.
Crossing an edge moves by one tile along its axis.
-/

namespace RailGrid

/-- An axis of the tile grid. -/
inductive Axis where
  /-- North-east to south-west. -/
  | x
  /-- North-west to south-east. -/
  | y
  deriving DecidableEq, Repr

instance : Enumeration Axis where
  members := [.x, .y]
  name
    | .x => "X"
    | .y => "Y"
  mem_members a := by cases a <;> decide
  nodup_names := by decide
  length_members_le := by decide

/-- The perpendicular axis. -/
def Axis.other : Axis → Axis
  | .x => .y
  | .y => .x

/-- An edge of a tile. -/
inductive Direction where
  /-- Against the x axis. -/
  | northEast
  /-- Along the y axis. -/
  | southEast
  /-- Along the x axis. -/
  | southWest
  /-- Against the y axis. -/
  | northWest
  deriving DecidableEq, Repr

instance : Enumeration Direction where
  members := [.northEast, .southEast, .southWest, .northWest]
  name
    | .northEast => "NorthEast"
    | .southEast => "SouthEast"
    | .southWest => "SouthWest"
    | .northWest => "NorthWest"
  mem_members a := by cases a <;> decide
  nodup_names := by decide
  length_members_le := by decide

namespace Direction

/-- The opposite edge. -/
def reverse : Direction → Direction
  | northEast => southWest
  | southEast => northWest
  | southWest => northEast
  | northWest => southEast

/-- The axis across which the edge leads. -/
def axis : Direction → Axis
  | northEast | southWest => .x
  | southEast | northWest => .y

/-- The change of the x coordinate across the edge. -/
def dx : Direction → Int
  | northEast => -1
  | southWest => 1
  | southEast | northWest => 0

/-- The change of the y coordinate across the edge. -/
def dy : Direction → Int
  | southEast => 1
  | northWest => -1
  | northEast | southWest => 0

@[simp] theorem reverse_reverse (d : Direction) : d.reverse.reverse = d := by
  cases d <;> rfl

@[simp] theorem axis_reverse (d : Direction) : d.reverse.axis = d.axis := by
  cases d <;> rfl

@[simp] theorem dx_reverse (d : Direction) : d.reverse.dx = -d.dx := by
  cases d <;> rfl

@[simp] theorem dy_reverse (d : Direction) : d.reverse.dy = -d.dy := by
  cases d <;> rfl

end Direction

end RailGrid
