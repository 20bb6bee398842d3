import RailGrid.Word

/-!
# Bit ranges of a word

A `BitRange` names consecutive bits of a word. Reading one shifts its bits down to the bottom,
writing one replaces exactly its bits by the low bits of a value. Both are described bit by bit,
also for ranges that run past the top of the word, and the laws of fields follow: what was written
is read back, and ranges that do not meet do not affect each other.
-/

namespace RailGrid

/-- `length` consecutive bits, the lowest of which is bit `start`. -/
structure BitRange where
  /-- The position of the lowest bit. -/
  start : Nat
  /-- The number of bits. -/
  length : Nat
  deriving DecidableEq, Repr

namespace BitRange

/-- The word of width `w` whose lowest `n` bits are set; all of them if there are fewer. -/
def lowOnes (w n : Nat) : BitVec w := BitVec.allOnes w >>> (w - n)

/-- The word whose set bits are those of the range. -/
def mask (r : BitRange) (w : Nat) : BitVec w := lowOnes w r.length <<< r.start

/-- The bits of the range, moved down to bit zero. -/
def read (r : BitRange) {w : Nat} (x : BitVec w) : BitVec w :=
  (x >>> r.start) &&& lowOnes w r.length

/-- The word with the bits of the range replaced by the low bits of `v`. -/
def write (r : BitRange) {w : Nat} (x v : BitVec w) : BitVec w :=
  (x &&& ~~~ r.mask w) ||| ((v <<< r.start) &&& r.mask w)

/-- Bit `i` lies in the range. -/
def Covers (r : BitRange) (i : Nat) : Prop := r.start ≤ i ∧ i < r.start + r.length

instance (r : BitRange) (i : Nat) : Decidable (r.Covers i) :=
  inferInstanceAs (Decidable (_ ∧ _))

/-- No bit lies in both ranges. -/
def Disjoint (r s : BitRange) : Prop :=
  r.start + r.length ≤ s.start ∨ s.start + s.length ≤ r.start

instance (r s : BitRange) : Decidable (r.Disjoint s) :=
  inferInstanceAs (Decidable (_ ∨ _))

/-- No bit of a word of width `w` lies in both ranges; above the word they may meet. -/
def Apart (r s : BitRange) (w : Nat) : Prop := ∀ i < w, ¬ (r.Covers i ∧ s.Covers i)

instance (r s : BitRange) (w : Nat) : Decidable (r.Apart s w) :=
  inferInstanceAs (Decidable (∀ i < w, _))

theorem Disjoint.apart {r s : BitRange} (h : r.Disjoint s) (w : Nat) : r.Apart s w := by
  rintro i - ⟨⟨h₁, h₂⟩, h₃, h₄⟩
  rcases h with h | h <;> omega

variable {w : Nat} {r s : BitRange} {x v u : BitVec w} {i : Nat}

theorem getLsbD_lowOnes {n : Nat} :
    (lowOnes w n).getLsbD i = (decide (i < n) && decide (i < w)) := by
  simp only [lowOnes, BitVec.getLsbD_ushiftRight, BitVec.getLsbD_allOnes]
  rw [← Bool.decide_and, decide_eq_decide]
  omega

/-- Of a word the lowest `n` bits are left, as the remainder by their power of two. -/
theorem toNat_and_lowOnes {n : Nat} : (v &&& lowOnes w n).toNat = v.toNat % 2 ^ n := by
  apply Nat.eq_of_testBit_eq
  intro i
  have hleft : (v &&& lowOnes w n).toNat.testBit i = (v &&& lowOnes w n).getLsbD i := rfl
  have hright : v.toNat.testBit i = v.getLsbD i := rfl
  rw [hleft, Nat.testBit_mod_two_pow, hright, BitVec.getLsbD_and, getLsbD_lowOnes]
  by_cases hi : i < w
  · rw [decide_eq_true hi, Bool.and_true, Bool.and_comm]
  · rw [BitVec.getLsbD_of_ge v i (Nat.not_lt.mp hi), Bool.false_and, Bool.and_false]

theorem getLsbD_mask :
    (r.mask w).getLsbD i = (decide (r.Covers i) && decide (i < w)) := by
  simp only [mask, BitVec.getLsbD_shiftLeft, getLsbD_lowOnes]
  rw [Bool.eq_iff_iff]
  simp only [Bool.and_eq_true, Bool.not_eq_true', decide_eq_true_eq, decide_eq_false_iff_not]
  unfold Covers
  omega

/-- Bit `i` of a read range is the bit `i` places above its start. -/
theorem getLsbD_read :
    (r.read x).getLsbD i = (decide (i < r.length) && x.getLsbD (r.start + i)) := by
  simp only [read, BitVec.getLsbD_and, BitVec.getLsbD_ushiftRight, getLsbD_lowOnes]
  by_cases hw : i < w
  · simp [hw, Bool.and_comm]
  · simp [hw, BitVec.getLsbD_of_ge x (r.start + i) (by omega)]

/-- A write shows the value inside the range and the old word outside. -/
theorem getLsbD_write (hi : i < w) :
    (r.write x v).getLsbD i =
      if r.Covers i then v.getLsbD (i - r.start) else x.getLsbD i := by
  simp only [write, BitVec.getLsbD_or, BitVec.getLsbD_and, BitVec.getLsbD_not, getLsbD_mask,
    BitVec.getLsbD_shiftLeft, hi]
  by_cases hc : r.Covers i
  · have hs : ¬ i < r.start := by have := hc.1; omega
    simp [hc, hs]
  · simp [hc]

/-- Reading back a write gives the low bits that fit into the range. -/
theorem read_write_self : r.read (r.write x v) = v &&& lowOnes w (min r.length (w - r.start)) := by
  apply BitVec.eq_of_getLsbD_eq
  intro i hi
  rw [getLsbD_read, BitVec.getLsbD_and, getLsbD_lowOnes]
  by_cases hw : r.start + i < w
  · rw [getLsbD_write hw]
    by_cases hl : i < r.length
    · have hc : r.Covers (r.start + i) := ⟨by omega, by omega⟩
      simp [hc, hl, show i < min r.length (w - r.start) by omega, hi]
    · simp [hl, show ¬ i < min r.length (w - r.start) by omega]
  · rw [BitVec.getLsbD_of_ge _ _ (by omega)]
    simp [show ¬ i < min r.length (w - r.start) by omega]

/-- Writing to a word what was read from another copies the bits of the range. -/
theorem getLsbD_write_read (hi : i < w) :
    (r.write u (r.read x)).getLsbD i = if r.Covers i then x.getLsbD i else u.getLsbD i := by
  rw [getLsbD_write hi, getLsbD_read]
  by_cases hc : r.Covers i
  · have hs := hc.1
    simp [hc, show i - r.start < r.length by have := hc.2; omega,
      show r.start + (i - r.start) = i by omega]
  · rw [if_neg hc, if_neg hc]

/-- Writing back what was read changes nothing. -/
theorem write_read : r.write x (r.read x) = x := by
  apply BitVec.eq_of_getLsbD_eq
  intro i hi
  rw [getLsbD_write_read hi, ite_self]

/-- A range that was overwritten is restored by writing back two ranges that make it up. -/
theorem write_read_of_covers {t : BitRange}
    (h : ∀ i < w, r.Covers i → s.Covers i ∨ t.Covers i) :
    t.write (s.write (r.write x v) (s.read x)) (t.read x) = x := by
  apply BitVec.eq_of_getLsbD_eq
  intro i hi
  rw [getLsbD_write_read hi, getLsbD_write_read hi, getLsbD_write hi]
  by_cases ht : t.Covers i
  · rw [if_pos ht]
  by_cases hs : s.Covers i
  · rw [if_neg ht, if_pos hs]
  · rw [if_neg ht, if_neg hs, if_neg fun hr => (h i hi hr).elim hs ht]

/-- A write is lost under a later one to a range that covers it. -/
theorem write_write_of_covers (h : ∀ i < w, r.Covers i → s.Covers i) :
    s.write (r.write x v) u = s.write x u := by
  apply BitVec.eq_of_getLsbD_eq
  intro i hi
  rw [getLsbD_write hi, getLsbD_write hi, getLsbD_write hi]
  by_cases hs : s.Covers i
  · rw [if_pos hs, if_pos hs]
  · rw [if_neg hs, if_neg hs, if_neg (mt (h i hi) hs)]

/-- Of two writes to one range the second counts. -/
theorem write_write : r.write (r.write x v) u = r.write x u :=
  write_write_of_covers fun _ _ hi => hi

/-- A write is not seen by a range that shares no bit with it. -/
theorem read_write_of_apart (h : r.Apart s w) : r.read (s.write x v) = r.read x := by
  apply BitVec.eq_of_getLsbD_eq
  intro i hi
  rw [getLsbD_read, getLsbD_read]
  by_cases hl : i < r.length
  · by_cases hw : r.start + i < w
    · have hr : r.Covers (r.start + i) := ⟨by omega, by omega⟩
      rw [getLsbD_write hw, if_neg fun hs => h _ hw ⟨hr, hs⟩]
    · rw [BitVec.getLsbD_of_ge _ _ (by omega), BitVec.getLsbD_of_ge _ _ (by omega)]
  · simp [hl]

/-- A write is not seen by a range that does not meet it. -/
theorem read_write_of_disjoint (h : r.Disjoint s) : r.read (s.write x v) = r.read x :=
  read_write_of_apart (h.apart w)

/-- Writes to ranges that share no bit may be exchanged. -/
theorem write_comm_of_apart (h : r.Apart s w) :
    s.write (r.write x v) u = r.write (s.write x u) v := by
  apply BitVec.eq_of_getLsbD_eq
  intro i hi
  simp only [getLsbD_write hi]
  by_cases hr : r.Covers i
  · have hs : ¬ s.Covers i := fun hs => h i hi ⟨hr, hs⟩
    simp [hr, hs]
  · simp [hr]

/-- Writes to ranges that do not meet may be exchanged. -/
theorem write_comm_of_disjoint (h : r.Disjoint s) :
    s.write (r.write x v) u = r.write (s.write x u) v :=
  write_comm_of_apart (h.apart w)

/-! ### Ranges that may start outside the word -/

/-- The mask of `n` bits: a power of two less one, or all bits where the word has no such power. -/
def fieldMask (w n : Nat) : Except Overflow (BitVec w) :=
  if w ≤ n then .ok (.allOnes w) else do Bits.subtract (← Bits.shiftLeft 1#w n) 1#w

/-- The bits of the range, refused when it starts above the word. -/
def readChecked (r : BitRange) (x : BitVec w) : Except Overflow (BitVec w) := do
  let shifted ← Bits.shiftRight x r.start
  let ones ← fieldMask w r.length
  return shifted &&& ones

/-- The word with the range replaced, refused when the range starts above the word. -/
def writeChecked (r : BitRange) (x v : BitVec w) : Except Overflow (BitVec w) := do
  let mask ← Bits.shiftLeft (← fieldMask w r.length) r.start
  let shifted ← Bits.shiftLeft v r.start
  return (x &&& ~~~ mask) ||| (shifted &&& mask)

/-- The range that holds bit `n` alone. -/
def single (n : Nat) : BitRange := ⟨n, 1⟩

/-- Whether bit `n` is set, refused when the word has no such bit. -/
def hasBit (x : BitVec w) (n : Nat) : Except Overflow Bool := do
  return x &&& (← Bits.shiftLeft 1#w n) != 0#w

/-- The word with bit `n` set, refused when the word has no such bit. -/
def setBit (x : BitVec w) (n : Nat) : Except Overflow (BitVec w) := do
  return x ||| (← Bits.shiftLeft 1#w n)

/-- The word with bit `n` cleared, refused when the word has no such bit. -/
def clearBit (x : BitVec w) (n : Nat) : Except Overflow (BitVec w) := do
  return x &&& ~~~ (← Bits.shiftLeft 1#w n)

theorem one_le_twoPow {n : Nat} (h : n < w) : 1#w ≤ BitVec.twoPow w n := by
  rw [BitVec.le_def, BitVec.toNat_one (Nat.zero_lt_of_lt h), BitVec.toNat_twoPow_of_lt h]
  exact Nat.one_le_two_pow

/-- A power of two less one has just the bits below that of the power. -/
theorem twoPow_sub_one {n : Nat} (h : n < w) : BitVec.twoPow w n - 1#w = lowOnes w n := by
  apply BitVec.eq_of_getLsbD_eq
  intro i hi
  have hbit : (BitVec.twoPow w n - 1#w).getLsbD i = (2 ^ n - 1).testBit i := by
    rw [BitVec.getLsbD, BitVec.toNat_sub_of_le (one_le_twoPow h), BitVec.toNat_twoPow_of_lt h,
      BitVec.toNat_one (Nat.zero_lt_of_lt h)]
  rw [hbit, Nat.testBit_two_pow_sub_one, getLsbD_lowOnes, decide_eq_true hi, Bool.and_true]

/-- The mask is never refused: the power of two is only formed where the word has it. -/
theorem fieldMask_eq {n : Nat} : fieldMask w n = .ok (lowOnes w n) := by
  rcases Nat.lt_or_ge n w with h | h
  · rw [fieldMask, if_neg (Nat.not_le.mpr h), Bits.shiftLeft_eq_ok h, ← twoPow_sub_one h]
    exact Bits.subtract_eq_ok (one_le_twoPow h)
  · have hall : lowOnes w n = .allOnes w := by
      rw [lowOnes, Nat.sub_eq_zero_of_le h, BitVec.ushiftRight_zero]
    rw [fieldMask, if_pos h, hall]

theorem readChecked_eq_ok (h : r.start < w) : r.readChecked x = .ok (r.read x) := by
  rw [readChecked, Bits.shiftRight_eq_ok h, fieldMask_eq]
  rfl

theorem readChecked_eq_error (h : w ≤ r.start) : r.readChecked x = .error .shiftRight := by
  rw [readChecked, Bits.shiftRight_eq_error h]
  rfl

theorem writeChecked_eq_ok (h : r.start < w) : r.writeChecked x v = .ok (r.write x v) := by
  simp only [writeChecked, fieldMask_eq, Bits.shiftLeft_eq_ok h, bind, Except.bind, pure,
    Except.pure, write, mask]

theorem writeChecked_eq_error (h : w ≤ r.start) : r.writeChecked x v = .error .shiftLeft := by
  simp only [writeChecked, fieldMask_eq, Bits.shiftLeft_eq_error h, bind, Except.bind]

/-- A word has a bit in common with a power of two when it has the bit of the power. -/
theorem and_twoPow_ne_zero {n : Nat} (h : n < w) :
    (x &&& BitVec.twoPow w n != 0#w) = x.getLsbD n := by
  have hne : BitVec.twoPow w n ≠ 0#w := by
    intro hzero
    have hle : 1#w ≤ 0#w := hzero ▸ one_le_twoPow h
    rw [BitVec.le_def, BitVec.toNat_one (Nat.zero_lt_of_lt h)] at hle
    exact absurd hle (by simp)
  rw [BitVec.and_twoPow]
  cases x.getLsbD n with
  | false => simp
  | true => simpa using hne

theorem hasBit_eq_ok {n : Nat} (h : n < w) : hasBit x n = .ok (x.getLsbD n) := by
  rw [hasBit, Bits.shiftLeft_eq_ok h, ← and_twoPow_ne_zero h]
  rfl

theorem hasBit_eq_error {n : Nat} (h : w ≤ n) : hasBit x n = .error .shiftLeft := by
  rw [hasBit, Bits.shiftLeft_eq_error h]
  rfl

/-- What a step makes of the word it is applied to in place: a refused step leaves the old word. -/
def inPlace (x : BitVec w) : Except Overflow (BitVec w) → Except Overflow Unit × BitVec w
  | .ok y => (.ok (), y)
  | .error e => (.error e, x)

/-! ### Ranges of a byte -/

/-- The bits of the range of a byte, moved down to bit zero. -/
def readByte (r : BitRange) (b : UInt8) : UInt8 := ⟨r.read b.toBitVec⟩

/-- The byte with the bits of the range replaced by the low bits of `v`. -/
def writeByte (r : BitRange) (b v : UInt8) : UInt8 := ⟨r.write b.toBitVec v.toBitVec⟩

variable {b c d : UInt8}

theorem writeByte_readByte : r.writeByte b (r.readByte b) = b := by
  simp only [writeByte, readByte, write_read]

theorem writeByte_readByte_of_covers {t : BitRange}
    (h : ∀ i < 8, r.Covers i → s.Covers i ∨ t.Covers i) :
    t.writeByte (s.writeByte (r.writeByte b c) (s.readByte b)) (t.readByte b) = b := by
  simp only [writeByte, readByte, write_read_of_covers h]

theorem writeByte_writeByte : r.writeByte (r.writeByte b c) d = r.writeByte b d := by
  simp only [writeByte, write_write]

theorem writeByte_writeByte_of_covers (h : ∀ i < 8, r.Covers i → s.Covers i) :
    s.writeByte (r.writeByte b c) d = s.writeByte b d := by
  simp only [writeByte, write_write_of_covers h]

theorem readByte_writeByte_of_disjoint (h : r.Disjoint s) :
    r.readByte (s.writeByte b c) = r.readByte b := by
  simp only [writeByte, readByte, read_write_of_disjoint h]

theorem writeByte_comm_of_disjoint (h : r.Disjoint s) :
    s.writeByte (r.writeByte b c) d = r.writeByte (s.writeByte b d) c := by
  simp only [writeByte, write_comm_of_disjoint h]

/-- The byte whose lowest `n` bits are set. -/
def lowOnesByte (n : Nat) : UInt8 := ⟨lowOnes 8 n⟩

/-- A range at the bottom of the byte is read without a shift. -/
theorem readByte_low {n : Nat} : (⟨0, n⟩ : BitRange).readByte b = b &&& lowOnesByte n := by
  apply UInt8.toBitVec_inj.mp
  simp [readByte, read, lowOnesByte]

/-- A range at the bottom of the byte is written without a shift. -/
theorem writeByte_low {n : Nat} :
    (⟨0, n⟩ : BitRange).writeByte b c = (b &&& ~~~ lowOnesByte n) ||| (c &&& lowOnesByte n) := by
  apply UInt8.toBitVec_inj.mp
  simp [writeByte, write, mask, lowOnesByte]

/-- A range inside the byte reads back the low bits that were written to it. -/
theorem readByte_writeByte (hr : r.start + r.length ≤ 8) :
    r.readByte (r.writeByte b c) = c &&& lowOnesByte r.length := by
  simp only [writeByte, readByte, read_write_self, lowOnesByte,
    show min r.length (8 - r.start) = r.length by omega]
  rfl

theorem and_lowOnesByte {n : Nat} (hc : c.toNat < 2 ^ n) : c &&& lowOnesByte n = c := by
  apply UInt8.toBitVec_inj.mp
  apply BitVec.eq_of_getLsbD_eq
  intro i hi
  simp only [UInt8.toBitVec_and, lowOnesByte, BitVec.getLsbD_and, getLsbD_lowOnes]
  by_cases hn : i < n
  · simp [hn, hi]
  · have hz : c.toBitVec.getLsbD i = false := by
      rw [BitVec.getLsbD]
      exact Nat.testBit_lt_two_pow
        (Nat.lt_of_lt_of_le hc (Nat.pow_le_pow_right (by omega) (by omega)))
    simp [hn, hz]

/-- What a range reads fits into it. -/
theorem toNat_readByte_lt : (r.readByte b).toNat < 2 ^ r.length := by
  apply Nat.lt_pow_two_of_testBit
  intro i hi
  have hbit : (r.readByte b).toNat.testBit i = (r.read b.toBitVec).getLsbD i := rfl
  rw [hbit, getLsbD_read]
  simp [show ¬ i < r.length by omega]

end BitRange

end RailGrid
