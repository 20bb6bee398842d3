import Mathlib.Algebra.Ring.Int.Defs
import RailGrid.Proofs.TileMap.Coordinates

/-!
# Walks

A walk follows a list of directions from tile to tile and fails at the first edge of the map that it
would cross. On a consistent map it moves as on the integer grid: what it covers is the sum of its
steps, and it can be walked back. Straight ahead the number of tiles up to the edge is a measure that
each step lowers by one, so that a walk in one direction ends there, and by two such walks every tile
is reached from every other.
-/

namespace RailGrid.TileMap

/-- Follows directions one after the other; `none` when a step leads over an edge of the map. -/
def follow (m : TileMap) (t : TileIndex) : List Direction → Except MapFault (Option TileIndex)
  | [] => .ok (some t)
  | d :: ds => do
    let some u ← m.neighbor? t d | return none
    m.follow u ds

/-- The number of tiles between a tile and the edge of the map that a direction leads to. -/
def toEdge (m : TileMap) (t : TileIndex) : Direction → Except MapFault UInt32
  | .northEast => m.tileX t
  | .southEast => do return (← m.sizeY) - 1 - (← m.tileY t)
  | .southWest => do return (← m.sizeX) - 1 - (← m.tileX t)
  | .northWest => m.tileY t

variable {m : TileMap} {t u v : TileIndex} {d : Direction} {ds es : List Direction} {n : Nat}

theorem follow_cons_of_some (h : m.neighbor? t d = .ok (some u)) :
    m.follow t (d :: ds) = m.follow u ds := by
  simp only [follow, h, bind, Except.bind]

theorem follow_cons_of_none (h : m.neighbor? t d = .ok none) :
    m.follow t (d :: ds) = .ok none := by
  simp only [follow, h, bind, Except.bind, pure, Except.pure]

/-- A walk that succeeds takes its first step and succeeds from there. -/
theorem follow_cons_eq_some_iff : m.follow t (d :: ds) = .ok (some v) ↔
    ∃ u, m.neighbor? t d = .ok (some u) ∧ m.follow u ds = .ok (some v) := by
  constructor
  · intro h
    cases hstep : m.neighbor? t d with
    | error f =>
      simp only [follow, hstep, bind, Except.bind] at h
      cases h
    | ok r =>
      cases r with
      | none =>
        rw [follow_cons_of_none hstep] at h
        cases h
      | some u => exact ⟨u, rfl, follow_cons_of_some hstep ▸ h⟩
  · rintro ⟨u, hstep, hrest⟩
    rw [follow_cons_of_some hstep, hrest]

/-- A walk goes on where its first part ended. -/
theorem follow_append (h : m.follow t ds = .ok (some u)) :
    m.follow t (ds ++ es) = m.follow u es := by
  induction ds generalizing t with
  | nil =>
    cases h
    rfl
  | cons d ds ih =>
    obtain ⟨w, hstep, hrest⟩ := follow_cons_eq_some_iff.mp h
    rw [List.cons_append, follow_cons_of_some hstep, ih hrest]

namespace Consistent

variable (hm : m.Consistent)

include hm

/-- A walk covers the sum of its steps. -/
theorem place_of_follow (ht : m.Valid t) (h : m.follow t ds = .ok (some u)) :
    m.Valid u ∧ (m.column u : Int) = m.column t + (ds.map Direction.dx).sum ∧
      (m.row u : Int) = m.row t + (ds.map Direction.dy).sum := by
  induction ds generalizing t with
  | nil =>
    cases h
    simp [ht]
  | cons d ds ih =>
    obtain ⟨w, hstep, hrest⟩ := follow_cons_eq_some_iff.mp h
    obtain ⟨hw, hcolumn, hrow⟩ := hm.neighbor?_eq_some_iff.mp hstep
    obtain ⟨hu, hcolumn', hrow'⟩ := ih hw hrest
    rw [List.map_cons, List.map_cons, List.sum_cons, List.sum_cons]
    exact ⟨hu, by omega, by omega⟩

/-- Walks from one tile that cover the same end on the same tile. -/
theorem eq_of_follow (ht : m.Valid t) (hu : m.follow t ds = .ok (some u))
    (hv : m.follow t es = .ok (some v))
    (hx : (ds.map Direction.dx).sum = (es.map Direction.dx).sum)
    (hy : (ds.map Direction.dy).sum = (es.map Direction.dy).sum) : u = v := by
  obtain ⟨-, hcolumn, hrow⟩ := hm.place_of_follow ht hu
  obtain ⟨-, hcolumn', hrow'⟩ := hm.place_of_follow ht hv
  exact ext_place (m := m) (by omega) (by omega)

/-- A walk can be walked back. -/
theorem follow_reverse (ht : m.Valid t) (h : m.follow t ds = .ok (some u)) :
    m.follow u (ds.reverse.map Direction.reverse) = .ok (some t) := by
  induction ds generalizing t with
  | nil =>
    cases h
    rfl
  | cons d ds ih =>
    obtain ⟨w, hstep, hrest⟩ := follow_cons_eq_some_iff.mp h
    have hw : m.Valid w := (hm.neighbor?_eq_some_iff.mp hstep).1
    rw [List.reverse_cons, List.map_append, follow_append (ih hw hrest)]
    exact follow_cons_eq_some_iff.mpr ⟨t, hm.neighbor?_reverse ht hstep, rfl⟩

end Consistent

/-! ### Straight ahead -/

/-- The number of tiles up to the edge of the map, as the measure of a walk in one direction. -/
def distance (m : TileMap) (t : TileIndex) : Direction → Nat
  | .northEast => m.column t
  | .southEast => m.height - 1 - m.row t
  | .southWest => m.width - 1 - m.column t
  | .northWest => m.row t

namespace Consistent

variable (hm : m.Consistent)

include hm

/-- The number of tiles up to the edge can be computed in the words. -/
theorem exists_toEdge (ht : m.Valid t) : ∃ k, m.toEdge t d = .ok k ∧ k.toNat = m.distance t d := by
  have hcolumn : m.column t < m.width := column_lt
  have hrow : m.row t < m.height := hm.valid_iff.mp ht
  have hback {edge place : UInt32} (h : place.toNat < edge.toNat) :
      (edge - 1 - place).toNat = edge.toNat - 1 - place.toNat := by
    have hedge : (edge - 1).toNat = edge.toNat - 1 := Word.toNat_sub_one (by omega)
    rw [UInt32.toNat_sub_of_le, hedge]
    rw [UInt32.le_iff_toNat_le, hedge]
    omega
  cases d with
  | northEast => exact ⟨_, tileX_eq hm.logX_lt, toNat_ofNat_column⟩
  | southEast =>
    refine ⟨1 <<< m.logY - 1 - .ofNat (m.row t), ?_, ?_⟩
    · simp only [toEdge, sizeY_eq hm.logY_lt, tileY_eq hm.logX_lt, bind, Except.bind]
      rfl
    · rw [hback (by rw [toNat_sizeY hm.logY_lt, toNat_ofNat_row]; exact hrow),
        toNat_sizeY hm.logY_lt, toNat_ofNat_row, distance]
  | southWest =>
    refine ⟨1 <<< m.logX - 1 - .ofNat (m.column t), ?_, ?_⟩
    · simp only [toEdge, sizeX_eq hm.logX_lt, tileX_eq hm.logX_lt, bind, Except.bind]
      rfl
    · rw [hback (by rw [toNat_sizeX hm.logX_lt, toNat_ofNat_column]; exact hcolumn),
        toNat_sizeX hm.logX_lt, toNat_ofNat_column, distance]
  | northWest => exact ⟨_, tileY_eq hm.logX_lt, toNat_ofNat_row⟩

/-- At the edge there is no further step. -/
theorem neighbor?_of_distance_eq_zero (h : m.distance t d = 0) : m.neighbor? t d = .ok none := by
  apply hm.neighbor?_of_not_onGrid
  rintro ⟨⟨hx, hxlt⟩, hy, hylt⟩
  cases d <;> simp only [distance, Direction.dx, Direction.dy] at * <;> omega

/-- Away from the edge there is a step, and it comes nearer by one. -/
theorem exists_neighbor?_of_distance (ht : m.Valid t) (h : m.distance t d = n + 1) :
    ∃ u, m.neighbor? t d = .ok (some u) ∧ m.Valid u ∧ m.distance u d = n := by
  have hcolumn : m.column t < m.width := column_lt
  have hrow : m.row t < m.height := hm.valid_iff.mp ht
  have hgrid : m.OnGrid (m.column t + d.dx) (m.row t + d.dy) := by
    cases d <;> simp only [distance, Direction.dx, Direction.dy, OnGrid] at * <;> omega
  obtain ⟨u, hu, -, -⟩ := hm.neighbor?_of_onGrid hgrid
  obtain ⟨hvalid, hcolumn', hrow'⟩ := hm.neighbor?_eq_some_iff.mp hu
  refine ⟨u, hu, hvalid, ?_⟩
  cases d <;> simp only [distance, Direction.dx, Direction.dy] at * <;> omega

/-- A walk in one direction succeeds up to the edge. -/
theorem exists_follow_replicate (ht : m.Valid t) (hn : n ≤ m.distance t d) :
    ∃ u, m.follow t (.replicate n d) = .ok (some u) ∧ m.Valid u ∧
      m.distance u d = m.distance t d - n := by
  induction n generalizing t with
  | zero => exact ⟨t, rfl, ht, rfl⟩
  | succ n ih =>
    obtain ⟨w, hstep, hw, hcloser⟩ :=
      hm.exists_neighbor?_of_distance (d := d) (n := m.distance t d - 1) ht (by omega)
    obtain ⟨u, hrest, hu, hleft⟩ := ih hw (by rw [hcloser]; omega)
    rw [List.replicate_succ, follow_cons_of_some hstep]
    exact ⟨u, hrest, hu, by omega⟩

/-- A walk in one direction goes no further than the edge. -/
theorem follow_replicate_eq_none (ht : m.Valid t) (hn : m.distance t d < n) :
    m.follow t (.replicate n d) = .ok none := by
  obtain ⟨last, hreach, -, hedge⟩ := hm.exists_follow_replicate (d := d) ht (Nat.le_refl _)
  have hstop : m.neighbor? last d = .ok none := hm.neighbor?_of_distance_eq_zero (by omega)
  obtain ⟨k, rfl⟩ := Nat.exists_eq_add_of_lt hn
  rw [Nat.add_assoc, ← List.replicate_append_replicate, follow_append hreach,
    List.replicate_succ, follow_cons_of_none hstop]

/-- A walk in one direction covers as many times its step. -/
theorem place_of_follow_replicate (ht : m.Valid t)
    (h : m.follow t (.replicate n d) = .ok (some u)) :
    m.Valid u ∧ (m.column u : Int) = m.column t + n * d.dx ∧
      (m.row u : Int) = m.row t + n * d.dy := by
  have hplace := hm.place_of_follow ht h
  rwa [List.map_replicate, List.map_replicate, List.sum_replicate_int,
    List.sum_replicate_int] at hplace

/-- No tile is visited twice by a walk in one direction. -/
theorem eq_of_follow_replicate {i j : Nat} (ht : m.Valid t)
    (hi : m.follow t (.replicate i d) = .ok (some u))
    (hj : m.follow t (.replicate j d) = .ok (some u)) : i = j := by
  obtain ⟨-, hcolumn, hrow⟩ := hm.place_of_follow_replicate ht hi
  obtain ⟨-, hcolumn', hrow'⟩ := hm.place_of_follow_replicate ht hj
  cases d <;> simp only [Direction.dx, Direction.dy] at * <;> omega

/-- A walk that is given enough steps ends at the edge by itself. -/
theorem walk_eq (done : Nat) (ht : m.Valid t) :
    ∃ u, m.follow t (.replicate (min n (m.distance t d)) d) = .ok (some u) ∧
      m.walk d t done n = .ok (u, done + min n (m.distance t d)) := by
  induction n generalizing t done with
  | zero => exact ⟨t, by rw [Nat.zero_min]; rfl, by rw [Nat.zero_min]; rfl⟩
  | succ n ih =>
    cases hdistance : m.distance t d with
    | zero =>
      refine ⟨t, rfl, ?_⟩
      simp only [walk, hm.neighbor?_of_distance_eq_zero hdistance]
      rfl
    | succ k =>
      obtain ⟨w, hstep, hw, hcloser⟩ := hm.exists_neighbor?_of_distance ht hdistance
      obtain ⟨u, hrest, hwalk⟩ := ih (done + 1) hw
      rw [hcloser] at hrest hwalk
      rw [Nat.succ_min_succ, List.replicate_succ, follow_cons_of_some hstep]
      refine ⟨u, hrest, ?_⟩
      simp only [walk, hstep, hwalk]
      congr 2
      omega

/-- Straight ahead every place up to the edge is reached. -/
theorem exists_follow_ahead (ht : m.Valid t) (hn : n ≤ m.distance t d) :
    ∃ ds u, m.follow t ds = .ok (some u) ∧ m.Valid u ∧ (m.column u : Int) = m.column t + n * d.dx ∧
      (m.row u : Int) = m.row t + n * d.dy := by
  obtain ⟨u, hu, -, -⟩ := hm.exists_follow_replicate ht hn
  exact ⟨_, u, hu, hm.place_of_follow_replicate ht hu⟩

/-- Every column is reached within a row. -/
theorem exists_follow_column {c : Nat} (ht : m.Valid t) (hc : c < m.width) :
    ∃ ds w, m.follow t ds = .ok (some w) ∧ m.Valid w ∧ m.column w = c ∧ m.row w = m.row t := by
  rcases Nat.le_total c (m.column t) with hle | hle
  · obtain ⟨ds, w, hw, hvalid, hcolumn, hrow⟩ :=
      hm.exists_follow_ahead (d := .northEast) (n := m.column t - c) ht (Nat.sub_le _ _)
    simp only [Direction.dx, Direction.dy] at hcolumn hrow
    exact ⟨ds, w, hw, hvalid, by omega, by omega⟩
  · obtain ⟨ds, w, hw, hvalid, hcolumn, hrow⟩ :=
      hm.exists_follow_ahead (d := .southWest) (n := c - m.column t) ht
        (by simp only [distance]; omega)
    simp only [Direction.dx, Direction.dy] at hcolumn hrow
    exact ⟨ds, w, hw, hvalid, by omega, by omega⟩

/-- Every row is reached within a column. -/
theorem exists_follow_row {r : Nat} (ht : m.Valid t) (hr : r < m.height) :
    ∃ ds w, m.follow t ds = .ok (some w) ∧ m.Valid w ∧ m.column w = m.column t ∧ m.row w = r := by
  rcases Nat.le_total r (m.row t) with hle | hle
  · obtain ⟨ds, w, hw, hvalid, hcolumn, hrow⟩ :=
      hm.exists_follow_ahead (d := .northWest) (n := m.row t - r) ht (Nat.sub_le _ _)
    simp only [Direction.dx, Direction.dy] at hcolumn hrow
    exact ⟨ds, w, hw, hvalid, by omega, by omega⟩
  · obtain ⟨ds, w, hw, hvalid, hcolumn, hrow⟩ :=
      hm.exists_follow_ahead (d := .southEast) (n := r - m.row t) ht
        (by simp only [distance]; omega)
    simp only [Direction.dx, Direction.dy] at hcolumn hrow
    exact ⟨ds, w, hw, hvalid, by omega, by omega⟩

/-- Every tile is reached from every other, along one axis and then along the other. -/
theorem exists_follow (ht : m.Valid t) (hu : m.Valid u) : ∃ ds, m.follow t ds = .ok (some u) := by
  obtain ⟨ds, w, hds, hw, hcolumn, -⟩ := hm.exists_follow_column ht (column_lt (t := u))
  obtain ⟨es, v, hes, -, hcolumn', hrow⟩ := hm.exists_follow_row hw (hm.valid_iff.mp hu)
  have hplace : v = u := ext_place (hcolumn'.trans hcolumn) hrow
  exact ⟨ds ++ es, by rw [follow_append hds, hes, hplace]⟩

end Consistent

/-! ### Walks on the grid -/

/-- On a consistent map walks behave as on the integer grid. A walk that succeeds covers the sum of
its steps, so that what it covers decides where it ends, and it can be walked back. In one direction
exactly as many steps succeed as there are tiles up to the edge, all of them to different tiles, and a
walk to the edge ends. Every tile is reached from every other. -/
theorem follow_of_consistent (hm : m.Consistent) :
    (∀ t ds u, m.Valid t → m.follow t ds = .ok (some u) → m.Valid u ∧
      (∃ x y x' y', (m.tileX t = .ok x ∧ m.tileY t = .ok y) ∧
        (m.tileX u = .ok x' ∧ m.tileY u = .ok y') ∧
        (x'.toNat : Int) = x.toNat + (ds.map Direction.dx).sum ∧
        (y'.toNat : Int) = y.toNat + (ds.map Direction.dy).sum) ∧
      (∀ es v, m.follow t es = .ok (some v) →
        (ds.map Direction.dx).sum = (es.map Direction.dx).sum →
        (ds.map Direction.dy).sum = (es.map Direction.dy).sum → u = v) ∧
      m.follow u (ds.reverse.map Direction.reverse) = .ok (some t)) ∧
    (∀ t d, m.Valid t → ∃ k last, m.toEdge t d = .ok k ∧
      (∀ n ≤ k.toNat, ∃ u, m.follow t (.replicate n d) = .ok (some u) ∧ m.Valid u ∧
        m.walk d t 0 n = .ok (u, n)) ∧
      (∀ n > k.toNat, m.follow t (.replicate n d) = .ok none ∧
        m.walk d t 0 n = .ok (last, k.toNat)) ∧
      m.follow t (.replicate k.toNat d) = .ok (some last) ∧ m.neighbor? last d = .ok none ∧
      ∀ i j u, m.follow t (.replicate i d) = .ok (some u) →
        m.follow t (.replicate j d) = .ok (some u) → i = j) ∧
    ∀ t u, m.Valid t → m.Valid u → ∃ ds, m.follow t ds = .ok (some u) := by
  refine ⟨fun t ds u ht h => ?_, fun t d ht => ?_, fun t u ht hu => hm.exists_follow ht hu⟩
  · obtain ⟨hu, hcolumn, hrow⟩ := hm.place_of_follow ht h
    refine ⟨hu, ⟨.ofNat (m.column t), .ofNat (m.row t), .ofNat (m.column u), .ofNat (m.row u),
      ⟨tileX_eq hm.logX_lt, tileY_eq hm.logX_lt⟩, ⟨tileX_eq hm.logX_lt, tileY_eq hm.logX_lt⟩,
      ?_, ?_⟩, fun es v hv => hm.eq_of_follow ht h hv, hm.follow_reverse ht h⟩
    · rw [toNat_ofNat_column, toNat_ofNat_column, hcolumn]
    · rw [toNat_ofNat_row, toNat_ofNat_row, hrow]
  · obtain ⟨k, hk, hdistance⟩ := hm.exists_toEdge (d := d) ht
    obtain ⟨last, hlast, -, hedge⟩ := hm.exists_follow_replicate (d := d) ht (Nat.le_refl _)
    have hstop : m.neighbor? last d = .ok none := hm.neighbor?_of_distance_eq_zero (by omega)
    have hwalk (n : Nat) := hm.walk_eq (d := d) (n := n) 0 ht
    rw [← hdistance] at hlast hwalk
    refine ⟨k, last, hk, fun n hn => ?_, fun n hn => ⟨?_, ?_⟩, hlast, hstop,
      fun i j u => hm.eq_of_follow_replicate ht⟩
    · obtain ⟨u, hu, hended⟩ := hwalk n
      rw [Nat.min_eq_left hn] at hu hended
      rw [Nat.zero_add] at hended
      exact ⟨u, hu, (hm.place_of_follow ht hu).1, hended⟩
    · exact hm.follow_replicate_eq_none ht (by omega)
    · obtain ⟨u, hu, hended⟩ := hwalk n
      rw [Nat.min_eq_right (Nat.le_of_lt hn)] at hu hended
      rw [hlast] at hu
      cases hu
      rw [Nat.zero_add] at hended
      exact hended

/-- On a map of 64 by 128 tiles a detour ends where the two steps end that it comes to, and it leads
back; there are 34 tiles ahead up to the edge, and the far corner is within reach. -/
theorem follow_of_consistent_detour :
    let m : TileMap := { logX := 6, logY := 7, tiles := .replicate (2 ^ 13) .blank }
    let t : TileIndex := ⟨93 * 64 + 17⟩
    let u : TileIndex := ⟨92 * 64 + 18⟩
    let detour : List Direction :=
      [.northEast, .southEast, .southWest, .southWest, .northWest, .northWest]
    m.Consistent ∧ m.Valid t ∧ m.follow t detour = .ok (some u) ∧
      (∀ v, m.follow t [.southWest, .northWest] = .ok (some v) → u = v) ∧
      m.follow u (detour.reverse.map Direction.reverse) = .ok (some t) ∧
      m.toEdge t .southEast = .ok 34 ∧
      (∃ v, m.follow t (.replicate 34 .southEast) = .ok (some v)) ∧
      m.follow t (.replicate 35 .southEast) = .ok none ∧
      ∃ ds, m.follow t ds = .ok (some ⟨127 * 64 + 63⟩) := by
  intro m t u detour
  have hm : m.Consistent := ⟨by decide, by decide, Array.size_replicate⟩
  have hvalid {v : TileIndex} (hv : v.number.toNat < 2 ^ 13) : m.Valid v := by
    rwa [Valid, show m.size = 2 ^ 13 from Array.size_replicate]
  have ht : m.Valid t := hvalid (by decide)
  have hdetour : m.follow t detour = .ok (some u) := by
    dsimp only [m, t, u, detour]
    rfl
  obtain ⟨hwalks, hstraight, hreach⟩ := follow_of_consistent hm
  obtain ⟨-, -, hsame, hback⟩ := hwalks t detour u ht hdetour
  obtain ⟨k, last, hk, hsucceeds, hfails, -⟩ := hstraight t .southEast ht
  have hedge : m.toEdge t .southEast = .ok 34 := by
    dsimp only [m, t]
    rfl
  rw [hedge] at hk
  cases hk
  obtain ⟨v, hv, -⟩ := hsucceeds 34 (by decide)
  exact ⟨hm, ht, hdetour, fun v hv => hsame _ v hv rfl rfl, hback, hedge, ⟨v, hv⟩,
    (hfails 35 (by decide)).1, hreach t _ ht (hvalid (by decide))⟩

end RailGrid.TileMap
