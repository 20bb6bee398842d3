import RailGrid.TileMap.Access
import RailGrid.TileMap.Grid

/-!
# Coordinates on the integer grid

Where the edges of a map fit into the words, an index is a column and a row: its remainder and its
quotient by the edge along the x axis. On a consistent map the tiles are then the pairs of a column
and a row within the edges, and the step across an edge of a tile is the step on the integer grid,
as long as it stays within the edges of the map.
-/

namespace RailGrid

/-- A power of two in the words has its value. -/
theorem Word.toNat_pow {n : UInt32} (h : n < 32) : ((1 : UInt32) <<< n).toNat = 2 ^ n.toNat := by
  have hn : n.toNat < 32 := UInt32.lt_iff_toNat_lt.mp h
  rw [UInt32.toNat_shiftLeft, Nat.mod_eq_of_lt hn, UInt32.toNat_one, Nat.one_shiftLeft,
    Nat.mod_eq_of_lt (Nat.pow_lt_pow_right (by omega) hn)]

theorem Word.toNat_sub_one {x : UInt32} (h : 0 < x.toNat) : (x - 1).toNat = x.toNat - 1 :=
  UInt32.toNat_sub_of_le _ _ (UInt32.le_iff_toNat_le.mpr h)

/-- A move whose end fits into the word is made. -/
theorem Word.exists_move? {x : UInt32} {d : Int} {n : Nat} (h : (n : Int) = x.toNat + d)
    (hn : n < 2 ^ 32) : ∃ y, Word.move? x d = some y ∧ y.toNat = n := by
  have hy : (UInt32.ofNat n).toNat = n := UInt32.toNat_ofNat_of_lt' hn
  exact ⟨.ofNat n, Word.move?_eq_some_iff.mpr (by rw [hy, h]), hy⟩

namespace TileMap

/-- The number of columns. -/
def width (m : TileMap) : Nat := 2 ^ m.logX.toNat

/-- The number of rows. -/
def height (m : TileMap) : Nat := 2 ^ m.logY.toNat

/-- The column of an index, which need not be on the map. -/
def column (m : TileMap) (t : TileIndex) : Nat := t.number.toNat % m.width

/-- The row of an index, which need not be on the map. -/
def row (m : TileMap) (t : TileIndex) : Nat := t.number.toNat / m.width

/-- The integer coordinates lie within the edges of the map. -/
def OnGrid (m : TileMap) (x y : Int) : Prop := (0 ≤ x ∧ x < m.width) ∧ 0 ≤ y ∧ y < m.height

instance (m : TileMap) (x y : Int) : Decidable (m.OnGrid x y) :=
  inferInstanceAs (Decidable (_ ∧ _))

variable {m : TileMap} {t u : TileIndex} {x y w : UInt32} {d : Direction}

theorem width_pos : 0 < m.width := Nat.two_pow_pos _

theorem height_pos : 0 < m.height := Nat.two_pow_pos _

theorem column_lt : m.column t < m.width := Nat.mod_lt _ width_pos

theorem number_eq : t.number.toNat = m.width * m.row t + m.column t :=
  (Nat.div_add_mod _ _).symm

/-- The rows of a map hold the indices below its area. -/
theorem row_lt_iff : m.row t < m.height ↔ t.number.toNat < m.width * m.height := by
  rw [row, Nat.div_lt_iff_lt_mul width_pos, Nat.mul_comm]

/-- An index is its column and its row. -/
theorem ext_place (hcolumn : m.column t = m.column u) (hrow : m.row t = m.row u) : t = u := by
  have hnumber : t.number.toNat = u.number.toNat := by
    rw [number_eq (m := m), hcolumn, hrow, ← number_eq]
  exact congrArg TileIndex.mk (UInt32.toNat_inj.mp hnumber)

/-! ### Coordinates in the words -/

theorem toNat_ofNat_column : (UInt32.ofNat (m.column t)).toNat = m.column t :=
  UInt32.toNat_ofNat_of_lt' (Nat.lt_of_le_of_lt (Nat.mod_le _ _) t.number.toNat_lt)

theorem toNat_ofNat_row : (UInt32.ofNat (m.row t)).toNat = m.row t :=
  UInt32.toNat_ofNat_of_lt' (Nat.lt_of_le_of_lt (Nat.div_le_self _ _) t.number.toNat_lt)

theorem sizeX_eq (hx : m.logX < 32) : m.sizeX = .ok (1 <<< m.logX) := by
  rw [sizeX, Word.shiftLeft_eq_ok hx]
  rfl

theorem sizeY_eq (hy : m.logY < 32) : m.sizeY = .ok (1 <<< m.logY) := by
  rw [sizeY, Word.shiftLeft_eq_ok hy]
  rfl

theorem toNat_sizeX (hx : m.logX < 32) : ((1 : UInt32) <<< m.logX).toNat = m.width :=
  Word.toNat_pow hx

theorem toNat_sizeY (hy : m.logY < 32) : ((1 : UInt32) <<< m.logY).toNat = m.height :=
  Word.toNat_pow hy

/-- The mask leaves the column of an index. -/
theorem tileX_eq (hx : m.logX < 32) : m.tileX t = .ok (.ofNat (m.column t)) := by
  have hedge : 0 < ((1 : UInt32) <<< m.logX).toNat := toNat_sizeX hx ▸ width_pos
  have hmask : t.number &&& ((1 <<< m.logX) - 1) = .ofNat (m.column t) := by
    apply UInt32.toNat_inj.mp
    rw [UInt32.toNat_and, Word.toNat_sub_one hedge, toNat_sizeX hx, toNat_ofNat_column]
    exact Nat.and_two_pow_sub_one_eq_mod _ _
  rw [tileX, sizeX_eq hx, ← hmask]
  rfl

/-- The shift leaves the row of an index. -/
theorem tileY_eq (hx : m.logX < 32) : m.tileY t = .ok (.ofNat (m.row t)) := by
  have hlog : m.logX.toNat < 32 := UInt32.lt_iff_toNat_lt.mp hx
  have hshift : t.number >>> m.logX = .ofNat (m.row t) := by
    apply UInt32.toNat_inj.mp
    rw [UInt32.toNat_shiftRight, Nat.mod_eq_of_lt hlog, Nat.shiftRight_eq_div_pow,
      toNat_ofNat_row]
    rfl
  rw [tileY, Word.shiftRight_eq_ok hx, hshift]
  rfl

/-- A row shifted into place leaves room for the column, also when bits leave the word. -/
theorem toNat_shiftLeft_add_lt (hx : m.logX < 32) (hcolumn : x.toNat < m.width) :
    (y <<< m.logX).toNat + x.toNat < 2 ^ 32 := by
  have hlog : m.logX.toNat < 32 := UInt32.lt_iff_toNat_lt.mp hx
  have hword : (2 : Nat) ^ 32 = 2 ^ (32 - m.logX.toNat) * m.width := by
    rw [width, ← Nat.pow_add, Nat.sub_add_cancel (Nat.le_of_lt hlog)]
  have hrow : (y <<< m.logX).toNat = y.toNat % 2 ^ (32 - m.logX.toNat) * m.width := by
    rw [UInt32.toNat_shiftLeft, Nat.mod_eq_of_lt hlog, Nat.shiftLeft_eq, hword,
      ← Nat.mul_mod_mul_right]
    rfl
  have hfits : y.toNat % 2 ^ (32 - m.logX.toNat) + 1 ≤ 2 ^ (32 - m.logX.toNat) :=
    Nat.mod_lt _ (Nat.two_pow_pos _)
  have hmul := Nat.mul_le_mul_right m.width hfits
  rw [Nat.add_mul, ← hrow, ← hword] at hmul
  omega

/-- The index of coordinates within the edges can always be computed. -/
theorem tileAt_eq (hx : m.logX < 32) (hy : m.logY < 32) : m.tileAt x y =
    if x.toNat < m.width ∧ y.toNat < m.height then .ok ⟨(y <<< m.logX) + x⟩
    else .error (.outsideMap x y) := by
  have hwidth : x < 1 <<< m.logX ↔ x.toNat < m.width := by
    rw [UInt32.lt_iff_toNat_lt, toNat_sizeX hx]
  have hheight : y < 1 <<< m.logY ↔ y.toNat < m.height := by
    rw [UInt32.lt_iff_toNat_lt, toNat_sizeY hy]
  simp only [tileAt, sizeX_eq hx, sizeY_eq hy, bind, Except.bind, hwidth, hheight]
  by_cases hcolumn : x.toNat < m.width
  · by_cases hrow : y.toNat < m.height
    · simp only [hcolumn, hrow, Word.shiftLeft_eq_ok hx, ofWord,
        Word.add_eq_ok (toNat_shiftLeft_add_lt hx hcolumn)]
      rfl
    · simp [hcolumn, hrow, throw, throwThe, MonadExceptOf.throw]
  · simp [hcolumn, throw, throwThe, MonadExceptOf.throw]

/-- Where no bit of a row leaves the word, every column meets every row in one index. -/
theorem exists_tileAt_of_area_le (hx : m.logX < 32) (hy : m.logY < 32)
    (harea : m.width * m.height ≤ 2 ^ 32) (hcolumn : x.toNat < m.width)
    (hrow : y.toNat < m.height) :
    ∃ t, m.tileAt x y = .ok t ∧ m.column t = x.toNat ∧ m.row t = y.toNat := by
  have hlog : m.logX.toNat < 32 := UInt32.lt_iff_toNat_lt.mp hx
  have hbelow : m.width * (y.toNat + 1) ≤ m.width * m.height := Nat.mul_le_mul_left _ hrow
  rw [Nat.mul_add, Nat.mul_one] at hbelow
  have hshift : (y <<< m.logX).toNat = m.width * y.toNat := by
    rw [UInt32.toNat_shiftLeft, Nat.mod_eq_of_lt hlog, Nat.shiftLeft_eq, Nat.mul_comm]
    exact Nat.mod_eq_of_lt (show m.width * y.toNat < 2 ^ 32 by omega)
  have hnumber : ((y <<< m.logX) + x).toNat = m.width * y.toNat + x.toNat := by
    rw [UInt32.toNat_add, hshift, Nat.mod_eq_of_lt (by omega)]
  refine ⟨⟨(y <<< m.logX) + x⟩, ?_, ?_, ?_⟩
  · rw [tileAt_eq hx hy, if_pos ⟨hcolumn, hrow⟩]
  · rw [column, hnumber, Nat.mul_add_mod, Nat.mod_eq_of_lt hcolumn]
  · rw [row, hnumber, Nat.mul_add_div width_pos, Nat.div_eq_of_lt hcolumn, Nat.add_zero]

/-! ### Consistent maps -/

namespace Consistent

variable (hm : m.Consistent)

include hm

theorem logX_lt : m.logX < 32 := hm.1.lt_32

theorem logY_lt : m.logY < 32 := hm.2.1.lt_32

theorem size_eq : m.size = m.width * m.height := by
  rw [hm.2.2, width, height, Nat.pow_add]

/-- All indices of the map are small. -/
theorem size_le : m.width * m.height ≤ 2 ^ 22 := by
  have hx : m.logX.toNat ≤ 11 := UInt32.le_iff_toNat_le.mp hm.1.2
  have hy : m.logY.toNat ≤ 11 := UInt32.le_iff_toNat_le.mp hm.2.1.2
  rw [width, height, ← Nat.pow_add]
  exact Nat.pow_le_pow_right (by decide) (by omega)

/-- The tiles of the map are those in its rows. -/
theorem valid_iff : m.Valid t ↔ m.row t < m.height := by
  rw [Valid, hm.size_eq, row_lt_iff]

theorem area_le : m.width * m.height ≤ 2 ^ 32 := Nat.le_trans hm.size_le (by decide)

/-- Within the edges every column meets every row in one tile, whose index can be computed. -/
theorem exists_tileAt (hcolumn : x.toNat < m.width) (hrow : y.toNat < m.height) :
    ∃ t, m.tileAt x y = .ok t ∧ m.column t = x.toNat ∧ m.row t = y.toNat :=
  exists_tileAt_of_area_le hm.logX_lt hm.logY_lt hm.area_le hcolumn hrow

theorem width_le : m.width ≤ 2 ^ 22 :=
  Nat.le_trans (Nat.le_mul_of_pos_right _ height_pos) hm.size_le

theorem height_le : m.height ≤ 2 ^ 22 :=
  Nat.le_trans (Nat.le_mul_of_pos_left _ width_pos) hm.size_le

/-- A step that stays within the edges is made, and is the step on the integer grid. -/
theorem neighbor?_of_onGrid (hgrid : m.OnGrid (m.column t + d.dx) (m.row t + d.dy)) :
    ∃ u, m.neighbor? t d = .ok (some u) ∧ (m.column u : Int) = m.column t + d.dx ∧
      (m.row u : Int) = m.row t + d.dy := by
  obtain ⟨⟨hx, hxlt⟩, hy, hylt⟩ := hgrid
  have hwidth := hm.width_le
  have hheight := hm.height_le
  obtain ⟨x, hmovex, hx'⟩ := Word.exists_move? (x := .ofNat (m.column t)) (d := d.dx)
    (n := (m.column t + d.dx).toNat) (by rw [toNat_ofNat_column]; omega) (by omega)
  obtain ⟨y, hmovey, hy'⟩ := Word.exists_move? (x := .ofNat (m.row t)) (d := d.dy)
    (n := (m.row t + d.dy).toNat) (by rw [toNat_ofNat_row]; omega) (by omega)
  have hxedge : x.toNat < m.width := by omega
  have hyedge : y.toNat < m.height := by omega
  obtain ⟨u, hu, hcolumn, hrow⟩ := hm.exists_tileAt hxedge hyedge
  refine ⟨u, ?_, by omega, by omega⟩
  simp only [neighbor?, tileX_eq hm.logX_lt, tileY_eq hm.logX_lt, sizeX_eq hm.logX_lt,
    sizeY_eq hm.logY_lt, bind, Except.bind, UInt32.lt_iff_toNat_lt, toNat_sizeX hm.logX_lt,
    toNat_sizeY hm.logY_lt, hmovex, hmovey, hxedge, hyedge, hu, if_true]
  rfl

/-- A step over an edge of the map is not made. -/
theorem neighbor?_of_not_onGrid (hgrid : ¬ m.OnGrid (m.column t + d.dx) (m.row t + d.dy)) :
    m.neighbor? t d = .ok none := by
  simp only [neighbor?, tileX_eq hm.logX_lt, tileY_eq hm.logX_lt, sizeX_eq hm.logX_lt,
    sizeY_eq hm.logY_lt, bind, Except.bind, UInt32.lt_iff_toNat_lt, toNat_sizeX hm.logX_lt,
    toNat_sizeY hm.logY_lt]
  cases hmovex : Word.move? (.ofNat (m.column t)) d.dx with
  | none => rfl
  | some x =>
    cases hmovey : Word.move? (.ofNat (m.row t)) d.dy with
    | none => rfl
    | some y =>
      have hx := Word.move?_eq_some_iff.mp hmovex
      have hy := Word.move?_eq_some_iff.mp hmovey
      rw [toNat_ofNat_column] at hx
      rw [toNat_ofNat_row] at hy
      by_cases hxedge : x.toNat < m.width
      · have hyedge : ¬ y.toNat < m.height := fun hyedge => hgrid ⟨by omega, by omega⟩
        simp only [hxedge, hyedge, if_true, if_false]
        rfl
      · simp only [hxedge, if_false]
        rfl

/-- The neighbour is the tile of the map that lies one step away on the integer grid. -/
theorem neighbor?_eq_some_iff : m.neighbor? t d = .ok (some u) ↔
    m.Valid u ∧ (m.column u : Int) = m.column t + d.dx ∧ (m.row u : Int) = m.row t + d.dy := by
  rw [hm.valid_iff]
  constructor
  · intro h
    by_cases hgrid : m.OnGrid (m.column t + d.dx) (m.row t + d.dy)
    · obtain ⟨v, hv, hcolumn, hrow⟩ := hm.neighbor?_of_onGrid hgrid
      rw [hv] at h
      cases h
      have hylt : (m.row t + d.dy : Int) < m.height := hgrid.2.2
      exact ⟨by omega, hcolumn, hrow⟩
    · rw [hm.neighbor?_of_not_onGrid hgrid] at h
      cases h
  · rintro ⟨hvalid, hcolumn, hrow⟩
    have hlt : m.column u < m.width := column_lt
    have hgrid : m.OnGrid (m.column t + d.dx) (m.row t + d.dy) := ⟨by omega, by omega⟩
    obtain ⟨v, hv, hcolumn', hrow'⟩ := hm.neighbor?_of_onGrid hgrid
    have hplace : v = u := ext_place (m := m) (by omega) (by omega)
    rw [hv, hplace]

/-- A step can be taken back. -/
theorem neighbor?_reverse (ht : m.Valid t) (h : m.neighbor? t d = .ok (some u)) :
    m.neighbor? u d.reverse = .ok (some t) := by
  obtain ⟨-, hcolumn, hrow⟩ := hm.neighbor?_eq_some_iff.mp h
  rw [hm.neighbor?_eq_some_iff, Direction.dx_reverse, Direction.dy_reverse]
  exact ⟨ht, by omega, by omega⟩

end Consistent

end TileMap

end RailGrid
