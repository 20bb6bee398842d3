import RailGrid.Datum.Form
import RailGrid.MapConfig
import RailGrid.Random.Generator
import RailGrid.TileMap.Basic

/-!
# Tiles and maps as data

Records are written with named fields, indices and owners as plain numbers, and the content of a
railway tile as a choice with its fields. A map is taken as it is given, consistent or not.
-/

namespace RailGrid

open Form

instance : Form TileIndex where
  toDatum t := toDatum t.number
  ofDatum? d := (ofDatum? d).map TileIndex.mk

instance : Form Owner where
  toDatum o := toDatum o.number
  ofDatum? d := (ofDatum? d).map Owner.mk

instance : Form TrackSet where
  toDatum s := TrackSet.flags.toDatum s.bits
  ofDatum? d := (TrackSet.flags.ofDatum? d).map TrackSet.mk

/-- The names of the parts of a record. -/
def Tile.fieldNames : List String := ["type_height", "m1", "m2", "m3", "m4", "m5"]

instance : Form Tile where
  toDatum x := .ofFields Tile.fieldNames
    [toDatum x.typeHeight, toDatum x.m1, toDatum x.m2, toDatum x.m3, toDatum x.m4, toDatum x.m5]
  ofDatum? d := do
    let [a, b, c, e, f, g] ← d.fields? Tile.fieldNames | none
    return {
      typeHeight := ← ofDatum? a, m1 := ← ofDatum? b, m2 := ← ofDatum? c, m3 := ← ofDatum? e,
      m4 := ← ofDatum? f, m5 := ← ofDatum? g }

/-- The names of the options. -/
def MapConfig.fieldNames : List String := ["map_bits_x", "map_bits_y", "seed"]

instance : Form MapConfig where
  toDatum c := .ofFields MapConfig.fieldNames [toDatum c.bitsX, toDatum c.bitsY, toDatum c.seed]
  ofDatum? d := do
    let [x, y, seed] ← d.fields? MapConfig.fieldNames | none
    return { bitsX := ← ofDatum? x, bitsY := ← ofDatum? y, seed := ← ofDatum? seed }

instance : Form Generator where
  toDatum g := .ofFields ["state"] [.arr [toDatum g.first, toDatum g.second]]
  ofDatum? d := do
    let [.arr [a, b]] ← d.fields? ["state"] | none
    return { first := ← ofDatum? a, second := ← ofDatum? b }

/-- The names of the parts of a map. -/
def TileMap.fieldNames : List String := ["log_x", "log_y", "tiles"]

instance : Form TileMap where
  toDatum m := .ofFields TileMap.fieldNames
    [toDatum m.logX, toDatum m.logY, toDatum m.tiles.toList]
  ofDatum? d := do
    let [x, y, tiles] ← d.fields? TileMap.fieldNames | none
    let tiles : List Tile ← ofDatum? tiles
    return { logX := ← ofDatum? x, logY := ← ofDatum? y, tiles := tiles.toArray }

namespace RailTile

/-- The names of the fields of plain track. -/
def trackFields : List String := ["owner", "rail_type", "tracks"]

/-- The names of the fields of track with signals. -/
def signalFields : List String := ["owner", "rail_type", "tracks", "signal_type", "variant"]

/-- The names of the fields of a depot. -/
def depotFields : List String := ["owner", "rail_type", "direction"]

/-- The names of the fields of a waypoint. -/
def waypointFields : List String := ["owner", "rail_type", "axis", "index", "custom_sprite"]

instance : Form RailTile where
  toDatum
    | track o r s =>
      .obj [("Normal", .ofFields trackFields [toDatum o, toDatum r, toDatum s])]
    | signals o r s kind style =>
      .obj [("Signals", .ofFields signalFields
        [toDatum o, toDatum r, toDatum s, toDatum kind, toDatum style])]
    | depot o r d => .obj [("Depot", .ofFields depotFields [toDatum o, toDatum r, toDatum d])]
    | waypoint o r a index custom =>
      .obj [("Waypoint", .ofFields waypointFields
        [toDatum o, toDatum r, toDatum a, toDatum index, toDatum custom])]
  ofDatum? d := do
    let (name, some content) ← d.choice? | none
    match name with
    | "Normal" =>
      let [o, r, s] ← content.namedFields? trackFields | none
      return track (← ofDatum? o) (← ofDatum? r) (← ofDatum? s)
    | "Signals" =>
      let [o, r, s, kind, style] ← content.namedFields? signalFields | none
      return signals (← ofDatum? o) (← ofDatum? r) (← ofDatum? s) (← ofDatum? kind)
        (← ofDatum? style)
    | "Depot" =>
      let [o, r, d] ← content.namedFields? depotFields | none
      return depot (← ofDatum? o) (← ofDatum? r) (← ofDatum? d)
    | "Waypoint" =>
      let [o, r, a, index, custom] ← content.namedFields? waypointFields | none
      return waypoint (← ofDatum? o) (← ofDatum? r) (← ofDatum? a) (← ofDatum? index)
        (← ofDatum? custom)
    | _ => none

end RailTile

end RailGrid
