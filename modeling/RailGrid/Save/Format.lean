import RailGrid.MapConfig
import RailGrid.Random.Generator
import RailGrid.Save.Column

/-!
# The saved form of each value

Options are three columns of one word, a generator is one column of two words. A map is its
exponents, the number of its tiles, and one column for each part of the tile records. What is read is
not checked for consistency here.
-/

namespace RailGrid

open Save

namespace MapConfig

/-- The bytes of the options. -/
def write (c : MapConfig) : Bytes :=
  writeColumn 2 [c.bitsX.toNat] ++ writeColumn 2 [c.bitsY.toNat] ++ writeColumn 2 [c.seed.toNat]

end MapConfig

namespace Save

/-- Reads a column of one 32-bit word. -/
def readWord32 : Reader UInt32 := do
  return .ofNat ((← readColumn 2 1).headD 0)

end Save

namespace MapConfig

/-- Reads options. -/
def read : Reader MapConfig := do
  return { bitsX := ← readWord32, bitsY := ← readWord32, seed := ← readWord32 }

end MapConfig

namespace Generator

/-- The bytes of a generator. -/
def write (g : Generator) : Bytes := writeColumn 2 [g.first.toNat, g.second.toNat]

/-- Reads a generator. -/
def read : Reader Generator := do
  match ← readColumn 2 2 with
  | [a, b] => return ⟨.ofNat a, .ofNat b⟩
  | _ => failure

end Generator

namespace Tile

/-- Puts together records from their columns, as many as the shortest column has. -/
def ofColumns (typeHeight m1 m2 m3 m4 m5 : List Nat) : List Tile :=
  let xs : List Tile := typeHeight.map fun v => { typeHeight := .ofNat v }
  let xs := xs.zipWith (fun x v => { x with m1 := .ofNat v }) m1
  let xs := xs.zipWith (fun x v => { x with m2 := .ofNat v }) m2
  let xs := xs.zipWith (fun x v => { x with m3 := .ofNat v }) m3
  let xs := xs.zipWith (fun x v => { x with m4 := .ofNat v }) m4
  xs.zipWith (fun x v => { x with m5 := .ofNat v }) m5

end Tile

namespace TileMap

/-- The bytes of a map. -/
def write (m : TileMap) : Bytes :=
  let ts := m.tiles.toList
  writeColumn 2 [m.logX.toNat] ++ writeColumn 2 [m.logY.toNat] ++ writeLength m.size ++
    writeColumn 0 (ts.map (·.typeHeight.toNat)) ++ writeColumn 0 (ts.map (·.m1.toNat)) ++
    writeColumn 1 (ts.map (·.m2.toNat)) ++ writeColumn 0 (ts.map (·.m3.toNat)) ++
    writeColumn 0 (ts.map (·.m4.toNat)) ++ writeColumn 0 (ts.map (·.m5.toNat))

/-- Reads a map, consistent or not. -/
def read : Reader TileMap := do
  let logX ← readWord32
  let logY ← readWord32
  let n ← readLength
  let typeHeight ← readColumn 0 n
  let m1 ← readColumn 0 n
  let m2 ← readColumn 1 n
  let m3 ← readColumn 0 n
  let m4 ← readColumn 0 n
  let m5 ← readColumn 0 n
  return { logX, logY, tiles := (Tile.ofColumns typeHeight m1 m2 m3 m4 m5).toArray }

end TileMap

end RailGrid
