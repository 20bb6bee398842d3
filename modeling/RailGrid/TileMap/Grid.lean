import RailGrid.TileMap.Basic

/-!
# Indices and coordinates

An index splits into coordinates by a mask and a shift, and a step across an edge changes one
coordinate by one. All of it is word arithmetic on the exponents of the map, which a map put
together from parts may make fail. Coordinates are compared with the x edge before the y edge is
computed.
-/

namespace RailGrid.TileMap

/-- The outcome of word arithmetic as an outcome on a map. -/
def ofWord {α : Type} : Except Overflow α → Except MapFault α
  | .ok a => .ok a
  | .error o => .error (.overflow o)

/-- The length of the edge along the x axis. -/
def sizeX (m : TileMap) : Except MapFault UInt32 := ofWord (Word.shiftLeft 1 m.logX)

/-- The length of the edge along the y axis. -/
def sizeY (m : TileMap) : Except MapFault UInt32 := ofWord (Word.shiftLeft 1 m.logY)

/-- The index of the tile at the given coordinates. -/
def tileAt (m : TileMap) (x y : UInt32) : Except MapFault TileIndex := do
  unless x < (← m.sizeX) do throw (.outsideMap x y)
  unless y < (← m.sizeY) do throw (.outsideMap x y)
  let row ← ofWord (Word.shiftLeft y m.logX)
  return ⟨← ofWord (Word.add row x)⟩

/-- The x coordinate of an index, which need not be on the map. -/
def tileX (m : TileMap) (t : TileIndex) : Except MapFault UInt32 := do
  return t.number &&& ((← m.sizeX) - 1)

/-- The y coordinate of an index, which need not be on the map. -/
def tileY (m : TileMap) (t : TileIndex) : Except MapFault UInt32 :=
  ofWord (Word.shiftRight t.number m.logX)

/-- The tile across an edge, or `none` at the end of the map. -/
def neighbor? (m : TileMap) (t : TileIndex) (d : Direction) :
    Except MapFault (Option TileIndex) := do
  let some x := Word.move? (← m.tileX t) d.dx | return none
  let some y := Word.move? (← m.tileY t) d.dy | return none
  if x < (← m.sizeX) then
    if y < (← m.sizeY) then
      return some (← m.tileAt x y)
  return none

/-- Walks at most `n` steps in one direction, to the end of the map; yields the last tile and the
number of steps, counted from `done`. -/
def walk (m : TileMap) (d : Direction) (t : TileIndex) (done : Nat) :
    Nat → Except MapFault (TileIndex × Nat)
  | 0 => .ok (t, done)
  | n + 1 =>
    match m.neighbor? t d with
    | .error f => .error f
    | .ok none => .ok (t, done)
    | .ok (some u) => m.walk d u (done + 1) n

end RailGrid.TileMap
