import RailGrid.TileMap.Basic

/-!
# Map options

What is asked for before a game is made: the edges of the map and the seed of the random streams.
Any numbers can be asked for; whether there is such a map shows when it is made.
-/

namespace RailGrid

/-- The options for a new game. -/
structure MapConfig where
  /-- The exponent of the edge along the x axis. -/
  bitsX : UInt32 := TileMap.standardLog
  /-- The exponent of the edge along the y axis. -/
  bitsY : UInt32 := TileMap.standardLog
  /-- The seed of the random streams. -/
  seed : UInt32 := 0
  deriving DecidableEq, Repr, Inhabited

end RailGrid
