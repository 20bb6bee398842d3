import RailGrid.TileMap.Basic

/-!
# The records of a map

A request on a tile of the map is the request on its record. An index off the map is refused before
the record is looked at. A record that is replaced is read back, and the records of the other tiles
are not touched.
-/

namespace RailGrid.TileMap

/-- The map has a tile with this index. -/
def Valid (m : TileMap) (t : TileIndex) : Prop := t.number.toNat < m.size

instance (m : TileMap) (t : TileIndex) : Decidable (m.Valid t) :=
  inferInstanceAs (Decidable (_ < _))

/-- The record of a tile of the map. -/
def get (m : TileMap) (t : TileIndex) (h : m.Valid t) : Tile := m.tiles[t.number.toNat]

/-- The record of a tile. -/
def tile (m : TileMap) (t : TileIndex) : Except MapFault Tile :=
  if h : m.Valid t then .ok (m.get t h) else .error (.offMap t)

/-- The outcome on the record of `t` as an outcome on the map. -/
def ofTile {α : Type} (t : TileIndex) : Except TileFault α → Except MapFault α
  | .ok a => .ok a
  | .error f => .error (.tile t f)

/-- Asks a question of the record of a tile. -/
def ask {α : Type} (m : TileMap) (t : TileIndex) (question : Tile → Except TileFault α) :
    Except MapFault α := do
  ofTile t (question (← m.tile t))

/-- The map with the record of one tile replaced; the same map if it has no such tile. -/
def setTile (m : TileMap) (t : TileIndex) (x : Tile) : TileMap :=
  { m with tiles := m.tiles.setIfInBounds t.number.toNat x }

/-- The tiles that differ from a fresh one, with their positions, in order. -/
def changed (m : TileMap) : List (Nat × Tile) :=
  (m.tiles.toList.zipIdx.filter fun p => p.1 != .blank).map fun p => (p.2, p.1)

variable {m : TileMap} {t u : TileIndex} {x y : Tile}

theorem tile_of_valid (ht : m.Valid t) : m.tile t = .ok (m.get t ht) := dif_pos ht

theorem valid_setTile_iff : (m.setTile t x).Valid u ↔ m.Valid u := by
  rw [Valid, Valid, size, setTile, Array.size_setIfInBounds, size]

theorem tile_of_not_valid (ht : ¬ m.Valid t) : m.tile t = .error (.offMap t) := dif_neg ht

theorem tile_eq_ok_iff : m.tile t = .ok x ↔ ∃ ht : m.Valid t, m.get t ht = x := by
  by_cases ht : m.Valid t
  · rw [tile_of_valid ht, Except.ok.injEq]
    exact ⟨fun h => ⟨ht, h⟩, fun ⟨_, h⟩ => h⟩
  · rw [tile_of_not_valid ht]
    constructor
    · intro h
      cases h
    · rintro ⟨hvalid, -⟩
      exact absurd hvalid ht

theorem setTile_of_valid (ht : m.Valid t) :
    m.setTile t x = { m with tiles := m.tiles.set t.number.toNat x ht } := by
  have hsize : t.number.toNat < m.tiles.size := ht
  simp only [setTile, Array.setIfInBounds_def, dif_pos hsize]

theorem setTile_of_not_valid (ht : ¬ m.Valid t) : m.setTile t x = m := by
  rw [setTile, Array.setIfInBounds_eq_of_size_le (Nat.not_lt.mp ht)]

/-- Writing to a tile the record it has changes nothing. -/
theorem setTile_of_tile (h : m.tile t = .ok x) : m.setTile t x = m := by
  obtain ⟨ht, hx⟩ := tile_eq_ok_iff.mp h
  have hset : m.tiles.set t.number.toNat x ht = m.tiles := by
    rw [← hx]
    exact Array.set_getElem_self ht
  rw [setTile_of_valid ht, hset]

@[simp] theorem setTile_setTile : (m.setTile t x).setTile t y = m.setTile t y := by
  simp only [setTile, Array.setIfInBounds_setIfInBounds]

theorem number_ne (hne : t ≠ u) : t.number.toNat ≠ u.number.toNat := fun h =>
  hne (congrArg TileIndex.mk (UInt32.toNat_inj.mp h))

theorem setTile_comm (hne : t ≠ u) :
    (m.setTile t x).setTile u y = (m.setTile u y).setTile t x := by
  simp only [setTile, Array.setIfInBounds_comm x y (number_ne hne)]

/-- A tile that the map has reads as what was written to it. -/
theorem tile_setTile_self : (m.setTile t x).tile t = (m.tile t).map fun _ => x := by
  by_cases ht : m.Valid t
  · have htile : (m.setTile t x).tile t = .ok x :=
      tile_eq_ok_iff.mpr ⟨valid_setTile_iff.mpr ht, Array.getElem_setIfInBounds_self _⟩
    rw [htile, tile_of_valid ht]
    rfl
  · rw [setTile_of_not_valid ht, tile_of_not_valid ht]
    rfl

theorem tile_setTile_of_tile (hx : m.tile t = .ok x) : (m.setTile t y).tile t = .ok y := by
  rw [tile_setTile_self, hx]
  rfl

theorem tile_setTile_of_ne (hne : t ≠ u) : (m.setTile t x).tile u = m.tile u := by
  by_cases hu : m.Valid u
  · rw [tile_of_valid hu]
    exact tile_eq_ok_iff.mpr
      ⟨valid_setTile_iff.mpr hu, Array.getElem_setIfInBounds_ne hu (number_ne hne)⟩
  · rw [tile_of_not_valid hu]
    exact tile_of_not_valid fun h => hu (valid_setTile_iff.mp h)

end RailGrid.TileMap
