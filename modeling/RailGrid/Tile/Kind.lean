import RailGrid.Enumeration

/-!
# Kinds of tile

What a tile is: open land, railway, road and so on. The kind decides how the rest of a tile's
record is read.
-/

namespace RailGrid

/-- The kind of a tile. -/
inductive TileKind where
  | clear | railway | road | house | trees | station | water | void | industry | tunnelBridge
  | unmovable
  deriving DecidableEq, Repr

instance : Enumeration TileKind where
  members := [.clear, .railway, .road, .house, .trees, .station, .water, .void, .industry,
    .tunnelBridge, .unmovable]
  name
    | .clear => "Clear"
    | .railway => "Railway"
    | .road => "Road"
    | .house => "House"
    | .trees => "Trees"
    | .station => "Station"
    | .water => "Water"
    | .void => "Void"
    | .industry => "Industry"
    | .tunnelBridge => "TunnelBridge"
    | .unmovable => "Unmovable"
  mem_members a := by cases a <;> decide
  nodup_names := by decide
  length_members_le := by decide

end RailGrid
