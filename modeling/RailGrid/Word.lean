/-!
# Checked arithmetic on words

A sum or difference that leaves the word and a shift by the width of the word or more are refused,
with the operation as the cause. A left shift may still push bits out of the word: only the shift
distance is checked. Each operation comes with the condition under which it succeeds. Words of 32
bits come first, words of any width after them.
-/

namespace RailGrid

/-- Powers are those of the core library, also where algebra brings powers of its own. -/
@[default_instance high]
scoped instance corePow {α : Type} [NatPow α] : Pow α Nat := instPowNat

/-- The word operation that would have left its range. -/
inductive Overflow where
  /-- A sum of `2^w` or more. -/
  | add
  /-- A left shift by the width of the word or more. -/
  | shiftLeft
  /-- A right shift by the width of the word or more. -/
  | shiftRight
  /-- A difference below zero. -/
  | subtract
  deriving DecidableEq, Repr

/-- The report of an overflow. -/
def Overflow.message : Overflow → String
  | .add => "attempt to add with overflow"
  | .shiftLeft => "attempt to shift left with overflow"
  | .shiftRight => "attempt to shift right with overflow"
  | .subtract => "attempt to subtract with overflow"

namespace Word

/-- The sum of two words, if it fits. -/
def add (x y : UInt32) : Except Overflow UInt32 :=
  if x.toNat + y.toNat < 2 ^ 32 then .ok (x + y) else .error .add

/-- The word shifted left; bits that leave the word are lost. -/
def shiftLeft (x n : UInt32) : Except Overflow UInt32 :=
  if n < 32 then .ok (x <<< n) else .error .shiftLeft

/-- The word shifted right. -/
def shiftRight (x n : UInt32) : Except Overflow UInt32 :=
  if n < 32 then .ok (x >>> n) else .error .shiftRight

/-- The power of two with exponent `n`, as a 64-bit word. -/
def pow64 (n : UInt32) : Except Overflow UInt64 :=
  if n < 64 then .ok (1 <<< n.toUInt64) else .error .shiftLeft

/-- The word moved by a signed distance, or `none` when that leaves the range. -/
def move? (x : UInt32) (d : Int) : Option UInt32 :=
  if 0 ≤ x.toNat + d ∧ x.toNat + d < 2 ^ 32 then some (.ofNat (x.toNat + d).toNat) else none

theorem add_eq_ok {x y : UInt32} (h : x.toNat + y.toNat < 2 ^ 32) : add x y = .ok (x + y) :=
  if_pos h

theorem shiftLeft_eq_ok {x n : UInt32} (h : n < 32) : shiftLeft x n = .ok (x <<< n) :=
  if_pos h

theorem shiftLeft_eq_error {x n : UInt32} (h : 32 ≤ n) : shiftLeft x n = .error .shiftLeft :=
  if_neg (UInt32.not_lt.mpr h)

theorem shiftRight_eq_ok {x n : UInt32} (h : n < 32) : shiftRight x n = .ok (x >>> n) :=
  if_pos h

theorem pow64_eq_ok {n : UInt32} (h : n < 64) : pow64 n = .ok (1 <<< n.toUInt64) :=
  if_pos h

/-- The word a power of two becomes has its value. -/
theorem toNat_one_shiftLeft {n : UInt32} (h : n < 64) :
    ((1 : UInt64) <<< n.toUInt64).toNat = 2 ^ n.toNat := by
  have hn : n.toNat < 64 := UInt32.lt_iff_toNat_lt.mp h
  rw [UInt64.toNat_shiftLeft, UInt32.toNat_toUInt64, Nat.mod_eq_of_lt hn, UInt64.toNat_one,
    Nat.one_shiftLeft, Nat.mod_eq_of_lt (Nat.pow_lt_pow_right (by omega) hn)]

/-- A move that stays in range lands on the integer sum. -/
theorem move?_eq_some_iff {x y : UInt32} {d : Int} :
    move? x d = some y ↔ (y.toNat : Int) = x.toNat + d := by
  have hy : y.toNat < 2 ^ 32 := y.toNat_lt
  unfold move?
  split
  · rename_i h
    have hn : (UInt32.ofNat (x.toNat + d).toNat).toNat = (x.toNat + d).toNat :=
      UInt32.toNat_ofNat_of_lt' (show _ < 4294967296 by omega)
    constructor
    · intro hxy
      cases hxy
      omega
    · intro hxy
      congr 1
      apply UInt32.toNat_inj.mp
      omega
  · constructor
    · intro hxy
      cases hxy
    · intro hxy
      omega

end Word

namespace Bits

variable {w n : Nat} {x y : BitVec w}

/-- The word shifted left; bits that leave the word are lost. -/
def shiftLeft (x : BitVec w) (n : Nat) : Except Overflow (BitVec w) :=
  if n < w then .ok (x <<< n) else .error .shiftLeft

/-- The word shifted right. -/
def shiftRight (x : BitVec w) (n : Nat) : Except Overflow (BitVec w) :=
  if n < w then .ok (x >>> n) else .error .shiftRight

/-- The difference of two words, if it is not negative. -/
def subtract (x y : BitVec w) : Except Overflow (BitVec w) :=
  if y ≤ x then .ok (x - y) else .error .subtract

theorem shiftLeft_eq_ok (h : n < w) : shiftLeft x n = .ok (x <<< n) := if_pos h

theorem shiftLeft_eq_error (h : w ≤ n) : shiftLeft x n = .error .shiftLeft :=
  if_neg (Nat.not_lt.mpr h)

theorem shiftRight_eq_ok (h : n < w) : shiftRight x n = .ok (x >>> n) := if_pos h

theorem shiftRight_eq_error (h : w ≤ n) : shiftRight x n = .error .shiftRight :=
  if_neg (Nat.not_lt.mpr h)

theorem subtract_eq_ok (h : y ≤ x) : subtract x y = .ok (x - y) := if_pos h

end Bits

end RailGrid
