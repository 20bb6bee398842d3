import RailGrid.Tile.Land

/-!
# Fields of a record as numbers

The range of a byte splits its value in three: what lies above, the range itself, and what lies
below. Reading a range is therefore a division with remainder and writing it exchanges the middle
part. A byte is determined by a range together with the bits beside it, so two records that agree
beside a field agree altogether once the field is written.
-/

namespace RailGrid.BitRange

variable {r s : BitRange} {b c v : UInt8}

/-- A range is read by a division and a remainder. -/
theorem toNat_readByte : (r.readByte b).toNat = b.toNat / 2 ^ r.start % 2 ^ r.length := by
  apply Nat.eq_of_testBit_eq
  intro i
  have hbit : (r.readByte b).toNat.testBit i = (r.read b.toBitVec).getLsbD i := rfl
  have hsource : b.toBitVec.getLsbD (r.start + i) = b.toNat.testBit (r.start + i) := rfl
  rw [hbit, getLsbD_read, hsource, Nat.testBit_mod_two_pow, Nat.testBit_div_two_pow,
    Nat.add_comm i r.start]

theorem toNat_and_lowOnesByte {n : Nat} : (c &&& lowOnesByte n).toNat = c.toNat % 2 ^ n :=
  toNat_and_lowOnes (v := c.toBitVec)

/-- A write exchanges the middle part of the value; the parts above and below stay. -/
theorem toNat_writeByte (hr : r.start + r.length ≤ 8) :
    (r.writeByte b v).toNat = b.toNat / 2 ^ (r.start + r.length) * 2 ^ (r.start + r.length) +
      v.toNat % 2 ^ r.length * 2 ^ r.start + b.toNat % 2 ^ r.start := by
  -- the three parts are ranges of the written byte, and each of them is known
  have habove := congrArg UInt8.toNat (readByte_writeByte_of_disjoint (b := b) (c := v)
    (r := ⟨r.start + r.length, 8⟩) (s := r) (Or.inr (Nat.le_refl _)))
  have hmiddle := congrArg UInt8.toNat (readByte_writeByte (b := b) (c := v) hr)
  have hbelow := congrArg UInt8.toNat (readByte_writeByte_of_disjoint (b := b) (c := v)
    (r := ⟨0, r.start⟩) (s := r) (Or.inl (by simp)))
  simp only [toNat_readByte, toNat_and_lowOnesByte, Nat.pow_zero, Nat.div_one]
    at habove hmiddle hbelow
  have hsmall (d : UInt8) : d.toNat / 2 ^ (r.start + r.length) % 2 ^ 8 =
      d.toNat / 2 ^ (r.start + r.length) :=
    Nat.mod_eq_of_lt (Nat.lt_of_le_of_lt (Nat.div_le_self _ _) d.toNat_lt)
  rw [hsmall, hsmall] at habove
  have hsplit (n : Nat) : n = n / 2 ^ (r.start + r.length) * 2 ^ (r.start + r.length) +
      n / 2 ^ r.start % 2 ^ r.length * 2 ^ r.start + n % 2 ^ r.start := by
    have houter := Nat.div_add_mod n (2 ^ r.start)
    have hinner := Nat.div_add_mod (n / 2 ^ r.start) (2 ^ r.length)
    rw [Nat.div_div_eq_div_mul, ← Nat.pow_add] at hinner
    calc n = 2 ^ r.start * (n / 2 ^ r.start) + n % 2 ^ r.start := houter.symm
      _ = 2 ^ r.start * (2 ^ r.length * (n / 2 ^ (r.start + r.length)) +
            n / 2 ^ r.start % 2 ^ r.length) + n % 2 ^ r.start := by rw [hinner]
      _ = _ := by
        rw [Nat.mul_add, ← Nat.mul_assoc, ← Nat.pow_add, Nat.mul_comm (2 ^ _) (n / _),
          Nat.mul_comm (2 ^ r.start)]
  rw [hsplit (r.writeByte b v).toNat, habove, hmiddle, hbelow]

/-- Bytes that agree beside a range are equal once the range is written. -/
theorem writeByte_eq_of_readByte_eq (hcover : ∀ i < 8, r.Covers i ∨ s.Covers i)
    (h : s.readByte b = s.readByte c) : r.writeByte b v = r.writeByte c v := by
  apply UInt8.toBitVec_inj.mp
  apply BitVec.eq_of_getLsbD_eq
  intro i hi
  have hb : (r.writeByte b v).toBitVec = r.write b.toBitVec v.toBitVec := rfl
  have hc : (r.writeByte c v).toBitVec = r.write c.toBitVec v.toBitVec := rfl
  rw [hb, hc, getLsbD_write hi, getLsbD_write hi]
  by_cases hr : r.Covers i
  · rw [if_pos hr, if_pos hr]
  · obtain ⟨hstart, hend⟩ := (hcover i hi).resolve_left hr
    have hread : (s.read b.toBitVec).getLsbD (i - s.start) =
        (s.read c.toBitVec).getLsbD (i - s.start) :=
      congrArg (fun d : UInt8 => d.toBitVec.getLsbD (i - s.start)) h
    have hlength : i - s.start < s.length := by omega
    rw [getLsbD_read, getLsbD_read, decide_eq_true hlength, Bool.true_and, Bool.true_and,
      Nat.add_sub_cancel' hstart] at hread
    rw [if_neg hr, if_neg hr, hread]

end RailGrid.BitRange

namespace RailGrid.Tile

open Enumeration

variable {x y : Tile} {f g : Field} {v : UInt8}

/-- A written field exchanges the middle part of its byte. -/
theorem toNat_byte_put (x : Tile) (f : Field) (v : UInt8) : ((x.put f v).byte f.column).toNat =
    (x.byte f.column).toNat / 2 ^ (f.range.start + f.range.length) *
        2 ^ (f.range.start + f.range.length) +
      v.toNat % 2 ^ f.range.length * 2 ^ f.range.start +
      (x.byte f.column).toNat % 2 ^ f.range.start := by
  rw [byte_put_self, BitRange.toNat_writeByte f.range_le]

/-- A field is a digit group of its byte. -/
theorem toNat_get : (x.get f).toNat =
    (x.byte f.column).toNat / 2 ^ f.range.start % 2 ^ f.range.length :=
  BitRange.toNat_readByte

/-- A field that takes the codes of a type can be read where its value is small enough. -/
theorem exists_ofCode?_get {α : Type} [DecidableEq α] [Enumeration α]
    (h : (x.get f).toNat < (members : List α).length) : ∃ a : α, ofCode? (x.get f) = some a := by
  cases hcode : (ofCode? (x.get f) : Option α) with
  | none => exact absurd h (Nat.not_lt.mpr (ofCode?_eq_none_iff.mp hcode))
  | some a => exact ⟨a, rfl⟩

/-- A field with room for every code of a type reads back the code of a member. -/
theorem get_put_code {α : Type} [DecidableEq α] [Enumeration α] {a : α}
    (hroom : (members : List α).length ≤ 2 ^ f.range.length) : (x.put f (code a)).get f = code a :=
  get_put_self (Nat.lt_of_lt_of_le (code_lt a) hroom)

/-- Records that agree beside a field agree in its byte once the field is written. -/
theorem byte_put_eq_of_get_eq (hcolumn : g.column = f.column)
    (hcover : ∀ i < 8, f.range.Covers i ∨ g.range.Covers i) (h : x.get g = y.get g) :
    (x.put f v).byte f.column = (y.put f v).byte f.column := by
  rw [get, get, hcolumn] at h
  rw [byte_put_self, byte_put_self, BitRange.writeByte_eq_of_readByte_eq hcover h]

end RailGrid.Tile
