import RailGrid.Notice
import RailGrid.Save.Format

/-!
# Resources that can be saved

A saveable resource has a key, a way to write a value, unless the value need not be kept, and a way
to read one that never fails: what cannot be read is replaced by the default with a notice. A map is
also replaced when its edges do not fit its tiles.
-/

namespace RailGrid

open Save

/-- How values of a type are saved. -/
structure Saveable (α : Type) where
  /-- The name under which the value is saved. -/
  key : String
  /-- The bytes of a value; none when the value need not be kept. -/
  save : α → Option Bytes
  /-- The value that bytes stand for, and what is to be said about it. -/
  load : Bytes → α × List Notice
  /-- The value without a save. -/
  initial : α

/-- A speed limit; zero stands for none. -/
structure SpeedLimit where
  /-- The limit. -/
  value : UInt16 := 0
  deriving DecidableEq, Repr, Inhabited

namespace Saveable

/-- The value the reader finds in all of the bytes, or else the default with a notice. -/
def readOr {α : Type} (key : String) (r : Reader α) (initial : α) (bs : Bytes) :
    α × List Notice :=
  match r.readAll? bs with
  | some a => (a, [])
  | none => (initial, [.unreadable key bs.length])

/-- A resource that is always written, and read by the given reader. -/
def ofFormat {α : Type} (key : String) (write : α → Bytes) (r : Reader α) (initial : α) :
    Saveable α where
  key
  save a := some (write a)
  load := readOr key r initial
  initial

/-- What the reader takes exactly is loaded without a notice. -/
theorem load_ofFormat {α : Type} {key : String} {write : α → Bytes} {r : Reader α} {initial a : α}
    (h : Reader.Reads r (write a) a) :
    (ofFormat key write r initial).load (write a) = (a, []) := by
  change readOr key r initial (write a) = (a, [])
  rw [readOr, h.readAll?]

/-- The map options. -/
def mapConfig : Saveable MapConfig := ofFormat "map_config" MapConfig.write MapConfig.read {}

/-- A random stream under the given key. -/
def stream (key : String) : Saveable Generator := ofFormat key Generator.write Generator.read {}

/-- The map. -/
def tileMap : Saveable TileMap where
  key := "tile_map"
  save m := some m.write
  load bs :=
    let (m, notices) := readOr "tile_map" TileMap.read .standard bs
    if m.Consistent then (m, notices)
    else (.standard, notices ++ [.inconsistentMap "tile_map"])
  initial := .standard

/-- The speed limit: two bytes, and no save for no limit; anything but two bytes is no limit. -/
def speedLimit : Saveable SpeedLimit where
  key := "speed_limit"
  save s := if s.value = 0 then none else some (toBytes 2 s.value.toNat)
  load bs := (⟨if bs.length = 2 then .ofNat (ofBytes bs) else 0⟩, [])
  initial := {}

end Saveable

end RailGrid
