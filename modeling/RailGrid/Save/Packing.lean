import RailGrid.Save.Reader

/-!
# Columns of small values

A column of values below 256 is written as bytes with as many values to a byte as the largest one
allows, after a code byte that names the packing. When the values lie far from zero but close
together, the smallest one is written first and subtracted from all. Short columns are written as
they are.
-/

namespace RailGrid.Save

/-- A way to put values below a radix into bytes. -/
structure Packing where
  /-- The number of values a place can hold. -/
  radix : Nat
  /-- The number of places in a byte. -/
  perByte : Nat
  deriving DecidableEq, Repr

namespace Packing

/-- The packings in the order of their codes, from the loosest to the tightest. -/
def all : List Packing := [⟨256, 1⟩, ⟨16, 2⟩, ⟨6, 3⟩, ⟨4, 4⟩, ⟨3, 5⟩, ⟨2, 8⟩]

/-- The code of the tightest packing that can hold values up to `m`. -/
def tightest (m : Nat) : Nat := all.findIdx (·.radix ≤ m) - 1

/-- A list cut into stretches of `n`; the last one may be shorter. -/
def stretches {α : Type} (n : Nat) (l : List α) : List (List α) := go [] l
where
  /-- Cuts the rest of the list, after the stretches in `done`, which are in reverse order. -/
  go (done : List (List α)) (l : List α) : List (List α) :=
    if _ : l = [] ∨ n = 0 then done.reverse
    else
      let cut := l.splitAt n
      go (cut.1 :: done) cut.2
  termination_by l.length
  decreasing_by
    rename_i h
    have hpos : 0 < l.length := List.length_pos_iff.mpr fun hl => h (.inl hl)
    rw [List.splitAt_eq, List.length_drop]
    omega

/-- The bytes that hold the values. -/
def pack (p : Packing) (vs : List Nat) : Bytes :=
  (stretches p.perByte vs).map fun ds => .ofNat (ofDigits p.radix ds)

/-- The number of bytes that hold `n` values. -/
def bytesFor (p : Packing) (n : Nat) : Nat := (n + p.perByte - 1) / p.perByte

/-- The first `n` values in the bytes. -/
def unpack (p : Packing) (n : Nat) (bs : Bytes) : List Nat :=
  (bs.flatMap fun b => digits p.radix p.perByte b.toNat).take n

end Packing

/-- The least value of a column. -/
def least (vs : List Nat) : Nat := vs.min?.getD 0

/-- The greatest value of a column. -/
def greatest (vs : List Nat) : Nat := vs.max?.getD 0

/-- Writes values in the packing with the given code. -/
def writePacked (code : Nat) (vs : List Nat) : Bytes :=
  match Packing.all[code]? with
  | some p => p.pack vs
  | none => []

/-- The bytes of a column of values below 256. -/
def writeSmall (vs : List Nat) : Bytes :=
  if vs.length ≤ 2 then vs.map .ofNat
  else
    let lo := least vs
    let hi := greatest vs
    let plain := Packing.tightest hi
    let shifted := Packing.tightest (hi - lo)
    if plain < shifted ∧ 5 < vs.length then
      .ofNat (2 * shifted - 1) :: .ofNat lo :: writePacked shifted (vs.map (· - lo))
    else .ofNat (2 * plain) :: writePacked plain vs

/-- Reads the value subtracted from all others, which follows odd codes only. -/
def readOffset (code : Nat) (r : Reader Nat) : Reader Nat :=
  if code % 2 = 1 then r else pure 0

/-- Reads a column of `n` values below 256. -/
def readSmall (n : Nat) : Reader (List Nat) := do
  if n ≤ 2 then
    return (← Reader.take n).map (·.toNat)
  let code ← Reader.byte
  let lo ← readOffset code Reader.byte
  match Packing.all[(code + 1) / 2]? with
  | some p => return (p.unpack n (← Reader.take (p.bytesFor n))).map fun v => (v + lo) % 256
  | none => failure

end RailGrid.Save
