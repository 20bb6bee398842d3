import Mathlib.Logic.ExistsUnique
import RailGrid.Proofs.TileMap.Coordinates

/-!
# Indices and coordinates one to one

The index of coordinates within the edges can always be computed, and only of those. Whether it
determines the coordinates is a matter of the exponents alone: it does as long as they add up to the
width of the word at most, and beyond that a whole row is shifted out of the word.
-/

namespace RailGrid.TileMap

variable {m : TileMap} {t : TileIndex} {x y : UInt32}

section Edges

variable (hx : m.logX < 32) (hy : m.logY < 32)

include hx hy

/-- Coordinates are refused where they lie outside the edges, and for no other reason. -/
theorem tileAt_eq_error_iff {f : MapFault} : m.tileAt x y = .error f ↔
    (m.width ≤ x.toNat ∨ m.height ≤ y.toNat) ∧ .outsideMap x y = f := by
  rw [tileAt_eq hx hy]
  split
  · rename_i hwithin
    constructor
    · intro h
      cases h
    · rintro ⟨houtside, -⟩
      omega
  · rename_i hnot
    have houtside : m.width ≤ x.toNat ∨ m.height ≤ y.toNat := by omega
    rw [Except.error.injEq]
    exact ⟨fun h => ⟨houtside, h⟩, fun h => h.2⟩

/-- The indices that coordinates have are those below the area, each with its own coordinates. -/
theorem tileAt_eq_ok_iff (harea : m.width * m.height ≤ 2 ^ 32) : m.tileAt x y = .ok t ↔
    t.number.toNat < m.width * m.height ∧ m.tileX t = .ok x ∧ m.tileY t = .ok y := by
  rw [tileX_eq hx, tileY_eq hx, ← row_lt_iff]
  constructor
  · intro h
    by_cases hwithin : x.toNat < m.width ∧ y.toNat < m.height
    · obtain ⟨u, hu, hcolumn, hrow⟩ := exists_tileAt_of_area_le hx hy harea hwithin.1 hwithin.2
      obtain rfl : u = t := Except.ok.inj (hu.symm.trans h)
      rw [hcolumn, hrow, UInt32.ofNat_toNat, UInt32.ofNat_toNat]
      exact ⟨hwithin.2, rfl, rfl⟩
    · rw [tileAt_eq hx hy, if_neg hwithin] at h
      cases h
  · rintro ⟨hrow, hX, hY⟩
    obtain rfl := Except.ok.inj hX
    obtain rfl := Except.ok.inj hY
    obtain ⟨u, hu, hcolumn', hrow'⟩ := exists_tileAt_of_area_le hx hy harea
      (lt_of_eq_of_lt toNat_ofNat_column column_lt) (lt_of_eq_of_lt toNat_ofNat_row hrow)
    rw [toNat_ofNat_column] at hcolumn'
    rw [toNat_ofNat_row] at hrow'
    rw [hu, ext_place hcolumn' hrow']

theorem tileAt_zero : m.tileAt 0 0 = .ok ⟨0⟩ := by
  rw [tileAt_eq hx hy, if_pos ⟨width_pos, height_pos⟩, UInt32.zero_shiftLeft]
  rfl

/-- Where the exponents add up to more than the width of the word there is a second row that begins
with the first index: it is shifted out of the word. -/
theorem exists_tileAt_eq_zero (hsum : 32 < m.logX.toNat + m.logY.toNat) :
    ∃ y, y ≠ 0 ∧ m.tileAt 0 y = .ok ⟨0⟩ := by
  have hlogX : m.logX.toNat < 32 := UInt32.lt_iff_toNat_lt.mp hx
  have hlogY : m.logY.toNat < 32 := UInt32.lt_iff_toNat_lt.mp hy
  have hword : 2 ^ (32 - m.logX.toNat) < 2 ^ 32 := Nat.pow_lt_pow_right (by decide) (by omega)
  obtain ⟨y, hy'⟩ : ∃ y : UInt32, y.toNat = 2 ^ (32 - m.logX.toNat) :=
    ⟨.ofNat _, UInt32.toNat_ofNat_of_lt' hword⟩
  have hpos : 0 < y.toNat := hy' ▸ Nat.two_pow_pos _
  have hrow : y.toNat < m.height := hy' ▸ Nat.pow_lt_pow_right (by decide) (by omega)
  have hlost : y <<< m.logX = 0 := by
    apply UInt32.toNat_inj.mp
    rw [UInt32.toNat_shiftLeft, Nat.mod_eq_of_lt hlogX, hy', Nat.shiftLeft_eq, ← Nat.pow_add,
      Nat.sub_add_cancel (Nat.le_of_lt hlogX), Nat.mod_self]
    rfl
  refine ⟨y, fun hzero => ?_, ?_⟩
  · rw [hzero] at hpos
    exact absurd hpos (by decide)
  · rw [tileAt_eq hx hy, if_pos ⟨width_pos, hrow⟩, hlost]
    rfl

end Edges

/-- On a consistent map the coordinates within the edges are those of the tiles. -/
theorem Consistent.tileAt_eq_ok_iff (hm : m.Consistent) :
    m.tileAt x y = .ok t ↔ m.Valid t ∧ m.tileX t = .ok x ∧ m.tileY t = .ok y := by
  rw [TileMap.tileAt_eq_ok_iff hm.logX_lt hm.logY_lt hm.area_le, hm.valid_iff, row_lt_iff]

/-- Every tile of a consistent map has one pair of coordinates. -/
theorem Consistent.existsUnique_coordinates (hm : m.Consistent) (ht : m.Valid t) :
    ∃! p : UInt32 × UInt32, m.tileAt p.1 p.2 = .ok t := by
  have hX := tileX_eq hm.logX_lt (t := t)
  have hY := tileY_eq hm.logX_lt (t := t)
  refine ⟨(_, _), hm.tileAt_eq_ok_iff.mpr ⟨ht, hX, hY⟩, fun p hp => ?_⟩
  obtain ⟨-, hX', hY'⟩ := hm.tileAt_eq_ok_iff.mp hp
  exact Prod.ext (Except.ok.inj (hX'.symm.trans hX)) (Except.ok.inj (hY'.symm.trans hY))

/-- Whatever a map was put together from, with exponents below the width of the word coordinates are
refused exactly outside the edges, as being outside, and the sum that makes an index of them never
leaves the word. Indices and coordinates determine each other as long as the exponents add up to the
width of the word at most; beyond that two pairs of coordinates share an index. On a consistent map
the coordinates within the edges are those of its tiles, one pair for each. -/
theorem tileAt_of_logs_lt (m : TileMap) (hx : m.logX < 32) (hy : m.logY < 32) :
    (∀ x y : UInt32,
      ((∃ f, m.tileAt x y = .error f) ↔
        2 ^ m.logX.toNat ≤ x.toNat ∨ 2 ^ m.logY.toNat ≤ y.toNat) ∧
      (∀ f, m.tileAt x y = .error f → f.message = s!"tile ({x}, {y}) outside map") ∧
      (x.toNat < 2 ^ m.logX.toNat → ∃ row index,
        Word.shiftLeft y m.logX = .ok row ∧ Word.add row x = .ok index)) ∧
    (m.logX.toNat + m.logY.toNat ≤ 32 →
      (∀ x y : UInt32, x.toNat < 2 ^ m.logX.toNat → y.toNat < 2 ^ m.logY.toNat →
        ∃ t, m.tileAt x y = .ok t ∧ m.tileX t = .ok x ∧ m.tileY t = .ok y) ∧
      ∀ t : TileIndex, t.number.toNat < 2 ^ (m.logX.toNat + m.logY.toNat) →
        ∃ x y, m.tileX t = .ok x ∧ m.tileY t = .ok y ∧ m.tileAt x y = .ok t) ∧
    (32 < m.logX.toNat + m.logY.toNat → ∃ p q : UInt32 × UInt32, p ≠ q ∧
      ∃ t, m.tileAt p.1 p.2 = .ok t ∧ m.tileAt q.1 q.2 = .ok t) ∧
    (m.Consistent →
      (∀ x y t, m.tileAt x y = .ok t → m.Valid t) ∧
      ∀ t, m.Valid t → ∃! p : UInt32 × UInt32, m.tileAt p.1 p.2 = .ok t) := by
  have harea : m.width * m.height = 2 ^ (m.logX.toNat + m.logY.toNat) := (Nat.pow_add ..).symm
  refine ⟨fun x y => ⟨⟨?_, fun houtside => ?_⟩, fun f hf => ?_, fun hcolumn => ?_⟩,
    fun hsum => ?_, fun hsum => ?_, fun hm => ?_⟩
  · rintro ⟨f, hf⟩
    exact ((tileAt_eq_error_iff hx hy).mp hf).1
  · exact ⟨_, (tileAt_eq_error_iff hx hy).mpr ⟨houtside, rfl⟩⟩
  · obtain ⟨-, rfl⟩ := (tileAt_eq_error_iff hx hy).mp hf
    rfl
  · exact ⟨_, _, Word.shiftLeft_eq_ok hx, Word.add_eq_ok (toNat_shiftLeft_add_lt hx hcolumn)⟩
  · have hfits : m.width * m.height ≤ 2 ^ 32 := harea ▸ Nat.pow_le_pow_right (by decide) hsum
    refine ⟨fun x y hcolumn hrow => ?_, fun t ht => ?_⟩
    · have hok := tileAt_eq hx hy (x := x) (y := y)
      rw [if_pos ⟨hcolumn, hrow⟩] at hok
      exact ⟨_, hok, ((tileAt_eq_ok_iff hx hy hfits).mp hok).2⟩
    · exact ⟨_, _, tileX_eq hx, tileY_eq hx,
        (tileAt_eq_ok_iff hx hy hfits).mpr ⟨harea ▸ ht, tileX_eq hx, tileY_eq hx⟩⟩
  · obtain ⟨y, hne, hzero⟩ := exists_tileAt_eq_zero hx hy hsum
    exact ⟨(0, y), (0, 0), fun h => hne (congrArg Prod.snd h), _, hzero, tileAt_zero hx hy⟩
  · exact ⟨fun x y t h => (hm.tileAt_eq_ok_iff.mp h).1,
      fun t ht => hm.existsUnique_coordinates ht⟩

/-- At exponents 20 and 12 the last index is that of the far corner and every word has coordinates;
at 31 and 31 there are two pairs of coordinates for one index. -/
theorem tileAt_of_logs_lt_border :
    let m : TileMap := { logX := 20, logY := 12, tiles := #[] }
    let n : TileMap := { logX := 31, logY := 31, tiles := #[] }
    let smallest : TileMap := { logX := 6, logY := 6, tiles := .replicate (2 ^ 12) .blank }
    (∃ t, m.tileAt 0xFFFFF 0xFFF = .ok t ∧ m.tileX t = .ok 0xFFFFF ∧ m.tileY t = .ok 0xFFF) ∧
      (∃ x y, m.tileX ⟨0xDEADBEEF⟩ = .ok x ∧ m.tileY ⟨0xDEADBEEF⟩ = .ok y ∧
        m.tileAt x y = .ok ⟨0xDEADBEEF⟩) ∧
      (∃ f, m.tileAt 5 0x1000 = .error f) ∧
      (∃ p q : UInt32 × UInt32, p ≠ q ∧
        ∃ t, n.tileAt p.1 p.2 = .ok t ∧ n.tileAt q.1 q.2 = .ok t) ∧
      ∃! p : UInt32 × UInt32, smallest.tileAt p.1 p.2 = .ok ⟨4095⟩ := by
  intro m n smallest
  have hsmallest : smallest.Consistent := ⟨by decide, by decide, Array.size_replicate⟩
  have hvalid : smallest.Valid ⟨4095⟩ := by
    rw [Valid, show smallest.size = 2 ^ 12 from Array.size_replicate]
    decide
  obtain ⟨hrefused, hfits, -, -⟩ := tileAt_of_logs_lt m (by decide) (by decide)
  obtain ⟨-, -, hshared, -⟩ := tileAt_of_logs_lt n (by decide) (by decide)
  obtain ⟨-, -, -, htiles⟩ := tileAt_of_logs_lt smallest (by decide) (by decide)
  exact ⟨(hfits (by decide)).1 _ _ (by decide) (by decide), (hfits (by decide)).2 _ (by decide),
    (hrefused 5 0x1000).1.mpr (by decide), hshared (by decide), (htiles hsmallest).2 _ hvalid⟩

end RailGrid.TileMap
