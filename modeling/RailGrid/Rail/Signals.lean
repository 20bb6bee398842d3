import RailGrid.Rail.Signal
import RailGrid.Rail.Tracks

/-!
# Signals on railway tiles

Signals turn a tile of plain track into a signal tile and back. The tracks of the tile are kept both
ways, what is stored about the signals only as long as they stand.
-/

namespace RailGrid.Tile

open Enumeration

/-- Passes on signal tiles. -/
def requireSignals (x : Tile) : Except TileFault Unit := do
  let tag ← x.railTag
  unless tag = .signals do throw (.noSignals tag)

/-- Passes on tiles of plain track. -/
def requirePlain (x : Tile) : Except TileFault Unit := do
  let tag ← x.railTag
  unless tag = .plain do throw (.takesNoSignals tag)

/-- The role of the signals. -/
def signalKind (x : Tile) : Except TileFault SignalKind := do
  x.requireSignals
  return ofCodeD (x.get .signalKind) .combo

/-- The construction of the signals. -/
def signalStyle (x : Tile) : Except TileFault SignalStyle := do
  x.requireSignals
  return ofCodeD (x.get .signalStyle) .electric

/-- The record with its signals taken away. -/
def stripped (x : Tile) : Tile := (x.put .signals 0).put .railTag (code RailTag.plain)

end RailGrid.Tile

namespace RailGrid.Change

open Enumeration

/-- Sets the role of the signals. -/
def setSignalKind (k : SignalKind) : Change :=
  guarded Tile.requireSignals (·.put .signalKind (code k))

/-- Sets the construction of the signals. -/
def setSignalStyle (s : SignalStyle) : Change :=
  guarded Tile.requireSignals (·.put .signalStyle (code s))

/-- Puts signals on a tile of plain track. -/
def addSignals (k : SignalKind) (s : SignalStyle) : Change := do
  guarded Tile.requirePlain (·.put .railTag (code RailTag.signals))
  setSignalKind k
  setSignalStyle s

/-- Takes the signals from a signal tile. -/
def removeSignals : Change :=
  guarded Tile.requireSignals Tile.stripped

end RailGrid.Change
