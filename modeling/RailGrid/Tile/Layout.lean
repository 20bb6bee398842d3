import RailGrid.Owner
import RailGrid.Tile.Record

/-!
# The layout of a tile record

Where each stored item of a tile lies. Some places are shared: which item a place holds is decided
by the kind of the tile and, on railway tiles, by the tag.
-/

namespace RailGrid.Field

/-- The kind of the tile. -/
def kind : Field := { column := .typeHeight, range := ⟨4, 4⟩ }

/-- The height of the tile. -/
def height : Field := { column := .typeHeight, range := ⟨0, 4⟩ }

/-- The owner, where the kind of tile keeps one. -/
def owner : Field := { column := .m1, range := ⟨0, Owner.width⟩ }

/-- The type of rail on the tile. -/
def railType : Field := { column := .m3, range := ⟨0, 4⟩ }

/-- The type of rail on a bridge. -/
def bridgeRailType : Field := { column := .m3, range := ⟨4, 4⟩ }

/-- The type of rail that crosses a road. -/
def crossingRailType : Field := { column := .m4, range := ⟨0, 4⟩ }

/-- What a railway tile carries. -/
def railTag : Field := { column := .m5, range := ⟨6, 2⟩ }

/-- Which facility stands on a railway tile. -/
def facility : Field := { column := .m5, range := ⟨2, 4⟩ }

/-- The tracks of plain and signal tiles. -/
def tracks : Field := { column := .m5, range := ⟨0, 6⟩ }

/-- The edge to which a depot opens. -/
def depotDirection : Field := { column := .m5, range := ⟨0, 2⟩ }

/-- The axis along which a waypoint lies. -/
def waypointAxis : Field := { column := .m5, range := ⟨0, 1⟩ }

/-- Whether a waypoint has a look of its own. -/
def customSprite : Field := { column := .m3, range := ⟨4, 1⟩ }

/-- The role of the signals. -/
def signalKind : Field := { column := .m4, range := ⟨0, 2⟩ }

/-- The construction of the signals. -/
def signalStyle : Field := { column := .m4, range := ⟨2, 1⟩ }

/-- All that is stored about signals. -/
def signals : Field := { column := .m4, range := ⟨0, 3⟩ }

end RailGrid.Field
