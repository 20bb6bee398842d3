import RailGrid.BitRange

/-!
# Packed tile records

A tile is five bytes and one 16-bit number. What the bytes mean depends on the kind of the tile,
so the record itself only knows fields: named bit ranges of one of its bytes. A field reads back
what was written to it, and fields that do not meet are independent.
-/

namespace RailGrid

/-- The stored record of one tile. -/
structure Tile where
  /-- The kind in the upper half, the height in the lower half. -/
  typeHeight : UInt8 := 0
  /-- The owner in the five low bits. -/
  m1 : UInt8 := 0
  /-- A number of the whole tile. -/
  m2 : UInt16 := 0
  /-- Rail types and markings. -/
  m3 : UInt8 := 0
  /-- Signals and crossings. -/
  m4 : UInt8 := 0
  /-- Tracks, or what stands in their place. -/
  m5 : UInt8 := 0
  deriving DecidableEq, Repr, Inhabited

/-- The bytes of a record that hold packed fields. -/
inductive Column where
  | typeHeight | m1 | m3 | m4 | m5
  deriving DecidableEq, Repr

/-- A bit range of one byte of a record. -/
structure Field where
  /-- The byte that holds the field. -/
  column : Column
  /-- The bits of the byte. -/
  range : BitRange
  /-- The range does not run past the byte. -/
  range_le : range.start + range.length ≤ 8 := by decide
  deriving DecidableEq

/-- Fields that share no bit. -/
def Field.Disjoint (f g : Field) : Prop := f.column ≠ g.column ∨ f.range.Disjoint g.range

instance (f g : Field) : Decidable (f.Disjoint g) := inferInstanceAs (Decidable (_ ∨ _))

/-- Every bit of the first field is one of the second. -/
def Field.Within (f g : Field) : Prop :=
  f.column = g.column ∧ ∀ i < 8, f.range.Covers i → g.range.Covers i

instance (f g : Field) : Decidable (f.Within g) := inferInstanceAs (Decidable (_ ∧ _))

namespace Tile

/-- One byte of the record. -/
def byte (x : Tile) : Column → UInt8
  | .typeHeight => x.typeHeight
  | .m1 => x.m1
  | .m3 => x.m3
  | .m4 => x.m4
  | .m5 => x.m5

/-- The record with one byte replaced. -/
def setByte (x : Tile) (c : Column) (b : UInt8) : Tile :=
  match c with
  | .typeHeight => { x with typeHeight := b }
  | .m1 => { x with m1 := b }
  | .m3 => { x with m3 := b }
  | .m4 => { x with m4 := b }
  | .m5 => { x with m5 := b }

/-- The value of a field. -/
def get (x : Tile) (f : Field) : UInt8 := f.range.readByte (x.byte f.column)

/-- The record with a field replaced by the low bits of `v`. -/
def put (x : Tile) (f : Field) (v : UInt8) : Tile :=
  x.setByte f.column (f.range.writeByte (x.byte f.column) v)

variable {x y : Tile} {c d : Column} {a b v w : UInt8} {f g : Field}

theorem ext_byte (hbyte : ∀ c, x.byte c = y.byte c) (hm2 : x.m2 = y.m2) : x = y := by
  cases x
  cases y
  have h₁ := hbyte .typeHeight
  have h₂ := hbyte .m1
  have h₃ := hbyte .m3
  have h₄ := hbyte .m4
  have h₅ := hbyte .m5
  simp only [byte] at h₁ h₂ h₃ h₄ h₅ hm2
  simp only [h₁, h₂, h₃, h₄, h₅, hm2]

theorem byte_setByte : (x.setByte d b).byte c = if c = d then b else x.byte c := by
  cases c <;> cases d <;> rfl

@[simp] theorem byte_setByte_self : (x.setByte c b).byte c = b := by
  rw [byte_setByte, if_pos rfl]

theorem byte_setByte_of_ne (h : c ≠ d) : (x.setByte d b).byte c = x.byte c := by
  rw [byte_setByte, if_neg h]

@[simp] theorem m2_setByte : (x.setByte c b).m2 = x.m2 := by
  cases c <;> rfl

@[simp] theorem setByte_byte : x.setByte c (x.byte c) = x := by
  cases c <;> rfl

@[simp] theorem setByte_setByte : (x.setByte c a).setByte c b = x.setByte c b := by
  cases c <;> rfl

theorem setByte_comm (h : c ≠ d) : (x.setByte c a).setByte d b = (x.setByte d b).setByte c a := by
  refine ext_byte (fun e => ?_) (by simp only [m2_setByte])
  by_cases hc : e = c
  · rw [hc, byte_setByte_of_ne h, byte_setByte_self, byte_setByte_self]
  · simp only [byte_setByte, if_neg hc]

@[simp] theorem byte_put_self : (x.put f v).byte f.column = f.range.writeByte (x.byte f.column) v :=
  byte_setByte_self

theorem byte_put_of_ne (h : c ≠ f.column) : (x.put f v).byte c = x.byte c :=
  byte_setByte_of_ne h

@[simp] theorem m2_put : (x.put f v).m2 = x.m2 := m2_setByte

/-- A field reads back the bits that fit into it. -/
theorem get_put : (x.put f v).get f = v &&& BitRange.lowOnesByte f.range.length := by
  rw [get, byte_put_self, BitRange.readByte_writeByte f.range_le]

/-- A field reads back a value that fits into it. -/
theorem get_put_self (h : v.toNat < 2 ^ f.range.length) : (x.put f v).get f = v := by
  rw [get_put, BitRange.and_lowOnesByte h]

/-- A field does not see a write to a field that shares no bit with it. -/
theorem get_put_of_disjoint (h : f.Disjoint g) : (x.put g v).get f = x.get f := by
  by_cases hc : f.column = g.column
  · rw [get, get, hc, byte_put_self]
    exact BitRange.readByte_writeByte_of_disjoint (h.resolve_left (not_not_intro hc))
  · rw [get, get, byte_put_of_ne hc]

/-- Writing back what was read changes nothing. -/
@[simp] theorem put_get : x.put f (x.get f) = x := by
  rw [put, get, BitRange.writeByte_readByte, setByte_byte]

/-- Of two writes to a field the second counts. -/
@[simp] theorem put_put : (x.put f v).put f w = x.put f w := by
  rw [put, byte_put_self, put, setByte_setByte, BitRange.writeByte_writeByte, ← put]

/-- A write is lost under a later one to a field around it. -/
theorem put_put_of_within (h : f.Within g) : (x.put f v).put g w = x.put g w := by
  simp only [put, h.1, byte_setByte_self, setByte_setByte,
    BitRange.writeByte_writeByte_of_covers h.2]

/-- A field that was overwritten is restored by writing back two fields that make it up. -/
theorem put_get_of_covers {k : Field} (hg : g.column = f.column) (hk : k.column = f.column)
    (h : ∀ i < 8, f.range.Covers i → g.range.Covers i ∨ k.range.Covers i) :
    ((x.put f v).put g (x.get g)).put k (x.get k) = x := by
  simp only [put, get, hg, hk, byte_setByte_self, setByte_setByte,
    BitRange.writeByte_readByte_of_covers h, setByte_byte]

/-- Writes to fields that share no bit may be exchanged. -/
theorem put_comm_of_disjoint (h : f.Disjoint g) : (x.put f v).put g w = (x.put g w).put f v := by
  by_cases hc : f.column = g.column
  · have hr : f.range.Disjoint g.range := h.resolve_left (not_not_intro hc)
    simp only [put, hc, byte_setByte_self, setByte_setByte, BitRange.writeByte_comm_of_disjoint hr]
  · simp only [put, byte_setByte_of_ne hc, byte_setByte_of_ne (Ne.symm hc)]
    exact setByte_comm hc

/-- The value of a field is below the power of two of its length. -/
theorem toNat_get_lt : (x.get f).toNat < 2 ^ f.range.length := BitRange.toNat_readByte_lt

end Tile

end RailGrid
