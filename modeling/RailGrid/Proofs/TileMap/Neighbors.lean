import RailGrid.Proofs.TileMap.Indexing

/-!
# Neighbours

On a consistent map the step across an edge is the step on the integer grid, whatever word the
index is. From a tile of the map it never wraps into another row, and it can be taken back. Off the
map there is one row from which a step leads onto the map, the row behind the last one, and this
step cannot be taken back.
-/

namespace RailGrid.TileMap

variable {m : TileMap} {t u : TileIndex} {d : Direction}

namespace Consistent

variable (hm : m.Consistent)

include hm

theorem not_valid_iff : ¬ m.Valid t ↔ m.height ≤ m.row t := by
  rw [hm.valid_iff, Nat.not_lt]

/-- Off the map only the step back from the row behind the last one leads onto the grid. -/
theorem onGrid_iff_of_not_valid (ht : ¬ m.Valid t) :
    m.OnGrid (m.column t + d.dx) (m.row t + d.dy) ↔ d = .northWest ∧ m.row t = m.height := by
  have hcolumn : m.column t < m.width := column_lt
  have hbehind : m.height ≤ m.row t := hm.not_valid_iff.mp ht
  have hheight : 0 < m.height := height_pos
  cases d <;> simp only [OnGrid, Direction.dx, Direction.dy, reduceCtorEq, false_and, true_and,
    iff_false] <;> omega

/-- A step from off the map leads onto the last row, in the same column. -/
theorem tileAt_last_row_of_not_valid (ht : ¬ m.Valid t) (h : m.neighbor? t d = .ok (some u)) :
    m.tileAt (.ofNat (m.column t)) (1 <<< m.logY - 1) = .ok u := by
  obtain ⟨hu, hcolumn, hrow⟩ := hm.neighbor?_eq_some_iff.mp h
  have hbehind : m.height ≤ m.row t := hm.not_valid_iff.mp ht
  have hlt : m.row u < m.height := hm.valid_iff.mp hu
  have hcolumn' : m.column u = m.column t := by
    cases d <;> simp only [Direction.dx, Direction.dy] at hcolumn hrow <;> omega
  have hedge : 0 < ((1 : UInt32) <<< m.logY).toNat := toNat_sizeY hm.logY_lt ▸ height_pos
  have hlast : .ofNat (m.row u) = (1 : UInt32) <<< m.logY - 1 := by
    apply UInt32.toNat_inj.mp
    rw [toNat_ofNat_row, Word.toNat_sub_one hedge, toNat_sizeY hm.logY_lt]
    cases d <;> simp only [Direction.dy] at hrow <;> omega
  rw [hm.tileAt_eq_ok_iff, tileX_eq hm.logX_lt, tileY_eq hm.logX_lt, hcolumn', hlast]
  exact ⟨hu, rfl, rfl⟩

/-- A step that came from off the map cannot be taken back. -/
theorem neighbor?_reverse_of_not_valid (ht : ¬ m.Valid t) (h : m.neighbor? t d = .ok (some u)) :
    m.neighbor? u d.reverse = .ok none := by
  obtain ⟨-, hcolumn, hrow⟩ := hm.neighbor?_eq_some_iff.mp h
  have hbehind : m.height ≤ m.row t := hm.not_valid_iff.mp ht
  refine hm.neighbor?_of_not_onGrid fun hgrid => ?_
  have hback := hgrid.2.2
  rw [Direction.dy_reverse] at hback
  omega

end Consistent

/-- On a consistent map the neighbour of every index can be computed, and it is a tile of the map. A
tile of the map has the neighbour one step away on the integer grid, if that lies within the edges,
and no other; the step leads back. An index off the map has a neighbour only to the north-west, and
only from the row behind the last one: the tile of the last row in the same column, from which no
step leads back. -/
theorem neighbor_of_consistent (hm : m.Consistent) (t : TileIndex) (d : Direction) :
    ∃ r x y rows, m.neighbor? t d = .ok r ∧ (∀ u, r = some u → m.Valid u) ∧
      m.tileX t = .ok x ∧ m.tileY t = .ok y ∧ m.sizeY = .ok rows ∧
      (m.Valid t →
        (m.OnGrid (x.toNat + d.dx) (y.toNat + d.dy) → ∃ x' y' u,
          ((x'.toNat : Int) = x.toNat + d.dx ∧ (y'.toNat : Int) = y.toNat + d.dy) ∧
          m.tileAt x' y' = .ok u ∧ r = some u ∧ m.neighbor? u d.reverse = .ok (some t)) ∧
        (¬ m.OnGrid (x.toNat + d.dx) (y.toNat + d.dy) → r = none)) ∧
      (¬ m.Valid t →
        (d = .northWest ∧ y = rows → ∃ u,
          m.tileAt x (rows - 1) = .ok u ∧ r = some u ∧ m.neighbor? u d.reverse = .ok none) ∧
        (¬ (d = .northWest ∧ y = rows) → r = none)) := by
  have hrows : m.row t = m.height ↔ UInt32.ofNat (m.row t) = 1 <<< m.logY := by
    rw [← UInt32.toNat_inj, toNat_ofNat_row, toNat_sizeY hm.logY_lt]
  by_cases hgrid : m.OnGrid (m.column t + d.dx) (m.row t + d.dy)
  · obtain ⟨u, hu, hcolumn, hrow⟩ := hm.neighbor?_of_onGrid hgrid
    have hvalid : m.Valid u := (hm.neighbor?_eq_some_iff.mp hu).1
    refine ⟨some u, .ofNat (m.column t), .ofNat (m.row t), 1 <<< m.logY, hu,
      fun v hv => Option.some.inj hv ▸ hvalid, tileX_eq hm.logX_lt, tileY_eq hm.logX_lt,
      sizeY_eq hm.logY_lt, fun ht => ?_, fun ht => ?_⟩
    · rw [toNat_ofNat_column, toNat_ofNat_row]
      refine ⟨fun _ => ⟨.ofNat (m.column u), .ofNat (m.row u), u, ⟨?_, ?_⟩, ?_, rfl,
        hm.neighbor?_reverse ht hu⟩, fun hnot => absurd hgrid hnot⟩
      · rw [toNat_ofNat_column, hcolumn]
      · rw [toNat_ofNat_row, hrow]
      · exact hm.tileAt_eq_ok_iff.mpr ⟨hvalid, tileX_eq hm.logX_lt, tileY_eq hm.logX_lt⟩
    · obtain ⟨hd, hbehind⟩ := (hm.onGrid_iff_of_not_valid ht).mp hgrid
      exact ⟨fun _ => ⟨u, hm.tileAt_last_row_of_not_valid ht hu, rfl,
        hm.neighbor?_reverse_of_not_valid ht hu⟩,
        fun hnot => absurd ⟨hd, hrows.mp hbehind⟩ hnot⟩
  · refine ⟨none, .ofNat (m.column t), .ofNat (m.row t), 1 <<< m.logY,
      hm.neighbor?_of_not_onGrid hgrid, nofun, tileX_eq hm.logX_lt, tileY_eq hm.logX_lt,
      sizeY_eq hm.logY_lt, fun ht => ?_, fun ht => ⟨?_, fun _ => rfl⟩⟩
    · rw [toNat_ofNat_column, toNat_ofNat_row]
      exact ⟨fun h => absurd h hgrid, fun _ => rfl⟩
    · rintro ⟨hd, hy⟩
      exact absurd ((hm.onGrid_iff_of_not_valid ht).mpr ⟨hd, hrows.mpr hy⟩) hgrid

/-- On a map of 64 by 128 tiles the last tile of a row has no neighbour to the south-west, where
the next index lies, and from the row behind the last one a step leads onto the last row. -/
theorem neighbor_of_consistent_edges :
    let m : TileMap := { logX := 6, logY := 7, tiles := .replicate (2 ^ 13) .blank }
    m.Consistent ∧ m.neighbor? ⟨93 * 64 + 63⟩ .southWest = .ok none ∧
      (∃ u, m.tileAt 63 92 = .ok u ∧ m.neighbor? ⟨93 * 64 + 63⟩ .northWest = .ok (some u) ∧
        m.neighbor? u .southEast = .ok (some ⟨93 * 64 + 63⟩)) ∧
      (∃ u, m.tileAt 17 127 = .ok u ∧ m.neighbor? ⟨128 * 64 + 17⟩ .northWest = .ok (some u) ∧
        m.neighbor? u .southEast = .ok none) ∧
      m.neighbor? ⟨129 * 64 + 17⟩ .northWest = .ok none := by
  intro m
  have hm : m.Consistent := ⟨by decide, by decide, Array.size_replicate⟩
  have hsize : m.size = 2 ^ 13 := Array.size_replicate
  have hvalid {v : TileIndex} : m.Valid v ↔ v.number.toNat < 2 ^ 13 := by rw [Valid, hsize]
  have hplace {v : TileIndex} {x y : UInt32} (hx : m.tileX v = .ok x) (hy : m.tileY v = .ok y) :
      .ofNat (v.number.toNat % 64) = x ∧ .ofNat (v.number.toNat / 64) = y := by
    rw [tileX_eq hm.logX_lt] at hx
    rw [tileY_eq hm.logX_lt] at hy
    exact ⟨Except.ok.inj hx, Except.ok.inj hy⟩
  refine ⟨hm, ?_, ?_, ?_, ?_⟩
  · obtain ⟨r, x, y, rows, hr, -, hx, hy, -, hon, -⟩ :=
      neighbor_of_consistent hm ⟨93 * 64 + 63⟩ .southWest
    obtain ⟨rfl, rfl⟩ := hplace hx hy
    rw [hr, (hon (hvalid.mpr (by decide))).2 (by decide)]
  · obtain ⟨r, x, y, rows, hr, -, hx, hy, -, hon, -⟩ :=
      neighbor_of_consistent hm ⟨93 * 64 + 63⟩ .northWest
    obtain ⟨rfl, rfl⟩ := hplace hx hy
    obtain ⟨x', y', u, ⟨hx', hy'⟩, hu, hru, hback⟩ :=
      (hon (hvalid.mpr (by decide))).1 (by decide)
    obtain rfl : x' = 63 := UInt32.toNat_inj.mp (Int.ofNat.inj hx')
    obtain rfl : y' = 92 := UInt32.toNat_inj.mp (Int.ofNat.inj hy')
    exact ⟨u, hu, by rw [hr, hru], hback⟩
  · obtain ⟨r, x, y, rows, hr, -, hx, hy, hrows, -, hoff⟩ :=
      neighbor_of_consistent hm ⟨128 * 64 + 17⟩ .northWest
    obtain ⟨rfl, rfl⟩ := hplace hx hy
    cases hrows
    obtain ⟨u, hu, hru, hback⟩ :=
      (hoff fun h => absurd (hvalid.mp h) (by decide)).1 ⟨rfl, by decide⟩
    rw [show (1 : UInt32) <<< m.logY - 1 = 127 by decide] at hu
    exact ⟨u, hu, by rw [hr, hru], hback⟩
  · obtain ⟨r, x, y, rows, hr, -, hx, hy, hrows, -, hoff⟩ :=
      neighbor_of_consistent hm ⟨129 * 64 + 17⟩ .northWest
    obtain ⟨rfl, rfl⟩ := hplace hx hy
    cases hrows
    rw [hr, (hoff fun h => absurd (hvalid.mp h) (by decide)).2 (by decide)]

end RailGrid.TileMap
