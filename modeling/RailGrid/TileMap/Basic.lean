import RailGrid.Word
import RailGrid.Tile.Edit

/-!
# Tile maps

A map is a row-major array of tile records whose edges are powers of two. Maps that are made here
have edges between 64 and 2048 tiles and as many records as their edges ask for; a map that was put
together from parts need not, so this is a condition and not part of the type.
-/

namespace RailGrid

/-- A rectangle of tiles. -/
structure TileMap where
  /-- The exponent of the edge along the x axis. -/
  logX : UInt32
  /-- The exponent of the edge along the y axis. -/
  logY : UInt32
  /-- The records, row by row. -/
  tiles : Array Tile
  deriving DecidableEq

/-- Why a request on a map was refused. -/
inductive MapFault where
  /-- Arithmetic on the edges left the word. -/
  | overflow (o : Overflow)
  /-- No map can be made with these exponents. -/
  | sizeOutOfRange (logX logY : UInt32)
  /-- The coordinates lie outside the edges. -/
  | outsideMap (x y : UInt32)
  /-- The map has no tile with this index. -/
  | offMap (t : TileIndex)
  /-- The height does not fit into a record. -/
  | heightTooLarge (h : UInt8)
  /-- The tile itself refused. -/
  | tile (t : TileIndex) (f : TileFault)
  deriving DecidableEq, Repr

/-- The report of a refused request. -/
def MapFault.message : MapFault → String
  | overflow o => o.message
  | sizeOutOfRange logX logY => s!"map size 2^{logX} x 2^{logY} out of range"
  | outsideMap x y => s!"tile ({x}, {y}) outside map"
  | offMap t => s!"{t.text} outside map"
  | heightTooLarge h => s!"tile height {h} does not fit in 4 bits"
  | tile t f => f.message t

/-- A fresh tile: clear land that belongs to nobody. -/
def Tile.blank : Tile := ({} : Tile).put .owner Owner.nobody.number

namespace TileMap

/-- The least exponent of an edge. -/
def minLog : UInt32 := 6

/-- The greatest exponent of an edge. -/
def maxLog : UInt32 := 11

/-- The exponent of both edges when nothing else is asked for. -/
def standardLog : UInt32 := 8

/-- An exponent that an edge may have. -/
def LogInRange (n : UInt32) : Prop := minLog ≤ n ∧ n ≤ maxLog

instance (n : UInt32) : Decidable (LogInRange n) := inferInstanceAs (Decidable (_ ∧ _))

theorem LogInRange.lt_32 {n : UInt32} (h : LogInRange n) : n < 32 :=
  UInt32.lt_of_le_of_lt h.2 (by decide)

/-- A map of fresh tiles. -/
def ofLogs (logX logY : UInt32) : Except MapFault TileMap :=
  if LogInRange logX ∧ LogInRange logY then
    .ok { logX, logY, tiles := .replicate (2 ^ (logX.toNat + logY.toNat)) .blank }
  else .error (.sizeOutOfRange logX logY)

/-- A map is made for exponents in range and for no others, and it is one of fresh tiles. -/
theorem ofLogs_eq_ok_iff {logX logY : UInt32} {m : TileMap} :
    ofLogs logX logY = .ok m ↔ (LogInRange logX ∧ LogInRange logY) ∧
      m = { logX, logY, tiles := .replicate (2 ^ (logX.toNat + logY.toNat)) .blank } := by
  unfold ofLogs
  split
  · rename_i h
    rw [Except.ok.injEq, and_iff_right h, eq_comm]
  · rename_i h
    constructor
    · intro heq
      cases heq
    · rintro ⟨hrange, -⟩
      exact absurd hrange h

theorem ofLogs_eq_error {logX logY : UInt32} (h : ¬ (LogInRange logX ∧ LogInRange logY)) :
    ofLogs logX logY = .error (.sizeOutOfRange logX logY) := if_neg h

/-- The map that is used when there is no other. -/
def standard : TileMap where
  logX := standardLog
  logY := standardLog
  tiles := .replicate (2 ^ (standardLog.toNat + standardLog.toNat)) .blank

theorem ofLogs_standardLog : ofLogs standardLog standardLog = .ok standard := by
  rw [ofLogs, if_pos (by decide), standard]

instance : Inhabited TileMap := ⟨standard⟩

/-- The number of records. -/
def size (m : TileMap) : Nat := m.tiles.size

/-- The edges are in range and there are exactly as many records as they ask for. -/
def Consistent (m : TileMap) : Prop :=
  LogInRange m.logX ∧ LogInRange m.logY ∧ m.size = 2 ^ (m.logX.toNat + m.logY.toNat)

instance (m : TileMap) : Decidable m.Consistent := inferInstanceAs (Decidable (_ ∧ _))

/-- The test for consistency in word arithmetic. -/
def isConsistent (m : TileMap) : Except Overflow Bool :=
  if LogInRange m.logX ∧ LogInRange m.logY then do
    let area ← Word.pow64 (← Word.add m.logX m.logY)
    return m.size == area.toNat
  else return false

/-- The test never leaves the words, whatever the exponents, and decides consistency. -/
theorem isConsistent_eq (m : TileMap) : m.isConsistent = .ok (decide m.Consistent) := by
  unfold isConsistent
  split
  · rename_i h
    have hx : m.logX.toNat ≤ 11 := UInt32.le_iff_toNat_le.mp h.1.2
    have hy : m.logY.toNat ≤ 11 := UInt32.le_iff_toNat_le.mp h.2.2
    have hsum : (m.logX + m.logY).toNat = m.logX.toNat + m.logY.toNat := by
      rw [UInt32.toNat_add]
      omega
    have hlt : m.logX + m.logY < 64 := UInt32.lt_iff_toNat_lt.mpr (by rw [hsum]; simp; omega)
    have hiff : m.Consistent ↔ m.size = 2 ^ (m.logX.toNat + m.logY.toNat) :=
      ⟨fun hc => hc.2.2, fun hs => ⟨h.1, h.2, hs⟩⟩
    rw [Word.add_eq_ok (by omega)]
    simp only [bind, Except.bind, Word.pow64_eq_ok hlt, pure, Except.pure,
      Word.toNat_one_shiftLeft hlt, hsum, hiff]
    rfl
  · rename_i h
    have hnot : ¬ m.Consistent := fun hc => h ⟨hc.1, hc.2.1⟩
    simp [hnot, pure, Except.pure]

end TileMap

end RailGrid
