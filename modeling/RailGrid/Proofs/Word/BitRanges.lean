import RailGrid.BitRange

/-!
# Ranges of bits in words of every width

A range may be empty, may run past the top of the word and may be longer than the word; only its
start must lie in the word. What a read or a write does is then told bit by bit, with positions
counted in the natural numbers, and a single bit is asked for, set and cleared like the range that
holds it alone.
-/

namespace RailGrid.BitRange

variable {w n i : Nat} {r s : BitRange} {x v u : BitVec w}

/-! ### Single bits -/

theorem covers_single_iff : (single n).Covers i ↔ i = n := by
  simp only [Covers, single]
  omega

/-- The word whose only set bit is bit `n`. -/
theorem getLsbD_one_shiftLeft (hi : i < w) : (1#w <<< n).getLsbD i = decide (i = n) := by
  have hpow : 1#w <<< n = BitVec.twoPow w n := rfl
  rw [hpow, BitVec.getLsbD_twoPow, ← Bool.decide_and, decide_eq_decide]
  omega

/-- The range of a set bit reads as one, that of a clear bit as something else. -/
theorem read_single_eq_one_iff (hn : n < w) : (single n).read x = 1#w ↔ x.getLsbD n = true := by
  have hbit (i : Nat) : ((single n).read x).getLsbD i = (decide (i < 1) && x.getLsbD (n + i)) :=
    getLsbD_read
  constructor
  · intro hone
    have hlowest := hbit 0
    rw [hone, BitVec.getLsbD_one, decide_eq_true (Nat.zero_lt_of_lt hn)] at hlowest
    exact hlowest.symm
  · intro hset
    apply BitVec.eq_of_getLsbD_eq
    intro i hi
    rw [hbit, BitVec.getLsbD_one, decide_eq_true (Nat.zero_lt_of_lt hn)]
    cases i with
    | zero => exact hset
    | succ i => rfl

theorem hasBit_eq (hn : n < w) : hasBit x n = .ok ((single n).read x == 1#w) := by
  have hread : ((single n).read x == 1#w) = x.getLsbD n := by
    rw [Bool.eq_iff_iff, beq_iff_eq, read_single_eq_one_iff hn]
  rw [hasBit_eq_ok hn, hread]

/-- To set a bit is to write a one to its range. -/
theorem or_shiftLeft_eq_write : x ||| 1#w <<< n = (single n).write x 1#w := by
  apply BitVec.eq_of_getLsbD_eq
  intro i hi
  rw [getLsbD_write hi, BitVec.getLsbD_or, getLsbD_one_shiftLeft hi]
  by_cases hn : i = n
  · have hlowest : (1#w).getLsbD (i - n) = true := by
      rw [hn, Nat.sub_self, BitVec.getLsbD_one, decide_eq_true (Nat.zero_lt_of_lt hi)]
      rfl
    rw [if_pos (covers_single_iff.mpr hn), decide_eq_true hn, Bool.or_true]
    exact hlowest.symm
  · rw [if_neg (mt covers_single_iff.mp hn), decide_eq_false hn, Bool.or_false]

/-- To clear a bit is to write a zero to its range. -/
theorem and_not_shiftLeft_eq_write : x &&& ~~~(1#w <<< n) = (single n).write x 0#w := by
  apply BitVec.eq_of_getLsbD_eq
  intro i hi
  rw [getLsbD_write hi, BitVec.getLsbD_and, BitVec.getLsbD_not, getLsbD_one_shiftLeft hi,
    decide_eq_true hi]
  by_cases hn : i = n
  · rw [if_pos (covers_single_iff.mpr hn), decide_eq_true hn, BitVec.getLsbD_zero]
    exact Bool.and_false _
  · rw [if_neg (mt covers_single_iff.mp hn), decide_eq_false hn]
    exact Bool.and_true _

/-- What is made of the power of two of a bit is a write to the range of the bit, and both are refused
for the same bits. -/
theorem shiftLeft_bind_eq {f : BitVec w → BitVec w}
    (h : f (1#w <<< n) = (single n).write x v) :
    (do return f (← Bits.shiftLeft 1#w n)) = (single n).writeChecked x v := by
  rcases Nat.lt_or_ge n w with hn | hn
  · have hstart : (single n).start < w := hn
    rw [Bits.shiftLeft_eq_ok hn, writeChecked_eq_ok hstart, ← h]
    rfl
  · have hstart : w ≤ (single n).start := hn
    rw [Bits.shiftLeft_eq_error hn, writeChecked_eq_error hstart]
    rfl

theorem setBit_eq : setBit x n = (single n).writeChecked x 1#w :=
  shiftLeft_bind_eq or_shiftLeft_eq_write

theorem clearBit_eq : clearBit x n = (single n).writeChecked x 0#w :=
  shiftLeft_bind_eq and_not_shiftLeft_eq_write

/-! ### Ranges with their checks -/

theorem readChecked_write_of_apart (h : r.Apart s w) :
    s.readChecked (r.write x v) = s.readChecked x := by
  have hapart : s.Apart r w := fun i hi hboth => h i hi hboth.symm
  rcases Nat.lt_or_ge s.start w with hs | hs
  · rw [readChecked_eq_ok hs, readChecked_eq_ok hs, read_write_of_apart hapart]
  · rw [readChecked_eq_error hs, readChecked_eq_error hs]

/-- Ranges that share no bit of the word may be written in either order. -/
theorem writeChecked_comm_of_apart (h : r.Apart s w) (hr : r.start < w) :
    s.writeChecked (r.write x v) u = (s.writeChecked x u).bind (r.writeChecked · v) := by
  rcases Nat.lt_or_ge s.start w with hs | hs
  · rw [writeChecked_eq_ok hs, writeChecked_eq_ok hs, write_comm_of_apart h,
      ← writeChecked_eq_ok hr]
    rfl
  · rw [writeChecked_eq_error hs, writeChecked_eq_error hs]
    rfl

/-- Reading and writing a range is refused exactly when the range starts above the word, and a refused
write leaves the word as it was. Otherwise a read shows the bits of the range that the word has and
zeros above them, and a write replaces exactly these bits: it reads back as the remainder of the
value, changes nothing when it writes what was read, and neither sees nor disturbs a range that
shares no bit of the word with it. A single bit is refused when the word does not have it, and
otherwise is the range that holds it alone. -/
theorem checked_bitwise (x v : BitVec w) :
    (∀ r : BitRange, w ≤ r.start → r.readChecked x = .error .shiftRight ∧
      inPlace x (r.writeChecked x v) = (.error .shiftLeft, x)) ∧
    (∀ r : BitRange, r.start < w → ∃ y z,
      r.readChecked x = .ok y ∧ inPlace x (r.writeChecked x v) = (.ok (), z) ∧
      (∀ i < w, y.getLsbD i =
        if i < r.length ∧ i + r.start < w then x.getLsbD (i + r.start) else false) ∧
      (∀ i < w, z.getLsbD i =
        if r.start ≤ i ∧ i < r.start + r.length then v.getLsbD (i - r.start) else x.getLsbD i) ∧
      (∃ u, r.readChecked z = .ok u ∧ u.toNat = v.toNat % 2 ^ min r.length (w - r.start)) ∧
      inPlace x (r.writeChecked x y) = (.ok (), x) ∧
      ∀ s : BitRange, r.Apart s w → s.readChecked z = s.readChecked x ∧
        ∀ u, s.writeChecked z u = (s.writeChecked x u).bind (r.writeChecked · v)) ∧
    ∀ n, (w ≤ n → hasBit x n = .error .shiftLeft ∧
        inPlace x (setBit x n) = (.error .shiftLeft, x) ∧
        inPlace x (clearBit x n) = (.error .shiftLeft, x)) ∧
      (n < w → (∃ y, (single n).readChecked x = .ok y ∧ hasBit x n = .ok (y == 1#w)) ∧
        setBit x n = (single n).writeChecked x 1#w ∧
        clearBit x n = (single n).writeChecked x 0#w) := by
  refine ⟨fun r hr => ?_, fun r hr => ?_, fun n => ⟨fun hn => ?_, fun hn => ?_⟩⟩
  · rw [readChecked_eq_error hr, writeChecked_eq_error hr]
    exact ⟨rfl, rfl⟩
  · refine ⟨r.read x, r.write x v, readChecked_eq_ok hr, ?_, fun i hi => ?_,
      fun i hi => getLsbD_write hi, ⟨_, readChecked_eq_ok hr, ?_⟩, ?_, fun s hs =>
        ⟨readChecked_write_of_apart hs, fun u => writeChecked_comm_of_apart hs hr⟩⟩
    · rw [writeChecked_eq_ok hr]
      rfl
    · rw [getLsbD_read, Nat.add_comm r.start i]
      by_cases hw : i + r.start < w
      · by_cases hl : i < r.length <;> simp [hl, hw]
      · rw [BitVec.getLsbD_of_ge _ _ (Nat.not_lt.mp hw), Bool.and_false, if_neg fun h => hw h.2]
    · rw [read_write_self, toNat_and_lowOnes]
    · rw [writeChecked_eq_ok hr, write_read]
      rfl
  · have hsingle : w ≤ (single n).start := hn
    rw [hasBit_eq_error hn, setBit_eq, clearBit_eq, writeChecked_eq_error hsingle,
      writeChecked_eq_error hsingle]
    exact ⟨rfl, rfl, rfl⟩
  · exact ⟨⟨_, readChecked_eq_ok hn, hasBit_eq hn⟩, setBit_eq, clearBit_eq⟩

/-- Four bits from bit six of a byte are its two highest bits: they hold the remainder by four, the
lower half of the byte does not see them, and there is no bit eight to set. -/
theorem checked_bitwise_top :
    let x : BitVec 8 := 0x56
    let v : BitVec 8 := 0xFE
    let r : BitRange := ⟨6, 4⟩
    let s : BitRange := ⟨0, 6⟩
    let t : BitRange := ⟨8, 0⟩
    (r.start < 8 ∧ r.Apart s 8 ∧ 8 ≤ t.start) ∧
      inPlace x (r.writeChecked x v) = (.ok (), 0x96) ∧
      (∃ u, r.readChecked (0x96 : BitVec 8) = .ok u ∧ u.toNat = 254 % 2 ^ 2) ∧
      s.readChecked (0x96 : BitVec 8) = s.readChecked x ∧
      t.readChecked x = .error .shiftRight ∧
      hasBit x 6 = .ok true ∧ inPlace x (setBit x 8) = (.error .shiftLeft, x) := by
  intro x v r s t
  have hr : r.start < 8 := by decide
  have hs : r.Apart s 8 := by decide
  have ht : 8 ≤ t.start := by decide
  obtain ⟨hrefused, hdone, hbits⟩ := checked_bitwise x v
  obtain ⟨y, z, -, hwrite, -, -, hback, -, hapart⟩ := hdone r hr
  obtain ⟨-, hset, -⟩ := (hbits 8).1 (by decide)
  obtain ⟨⟨b, hread, hhas⟩, -⟩ := (hbits 6).2 (by decide)
  have hvalue : r.write x v = 0x96 := by decide
  have hwritten : inPlace x (r.writeChecked x v) = (.ok (), r.write x v) :=
    congrArg (inPlace x) (writeChecked_eq_ok hr)
  rw [hvalue] at hwritten
  obtain rfl : z = 0x96 := congrArg Prod.snd (hwrite.symm.trans hwritten)
  have hbit : (b == 1) = true := by
    rw [← Except.ok.inj hread]
    decide
  exact ⟨⟨hr, hs, ht⟩, hwrite, hback, (hapart s hs).1, (hrefused t ht).1,
    hhas.trans (congrArg Except.ok hbit), hset⟩

end RailGrid.BitRange
