import RailGrid.Save.Packing

/-!
# Columns of words

A column of words is written in the fewest bytes a word that hold all its values, after a code byte
that tells how many; columns of single bytes are packed further. As with small values, the smallest
one may be written first and subtracted from all. Reading accepts every code that fits the word, not
only the one that writing would choose. Words have one, two, four or eight bytes, so a width is given
by its exponent.
-/

namespace RailGrid.Save

/-- The exponent of the least number of bytes, a power of two, that hold the value. -/
def widthLog (m : Nat) : Nat :=
  if m < 2 ^ 8 then 0 else if m < 2 ^ 16 then 1 else if m < 2 ^ 32 then 2 else 3

/-- Words of `2 ^ e` bytes, one after the other, the lowest byte first. -/
def writeWords (e : Nat) (vs : List Nat) : Bytes := vs.flatMap (toBytes (2 ^ e))

/-- Reads `n` words of `2 ^ e` bytes. -/
def readWords (e n : Nat) : Reader (List Nat) := do
  let bs ← Reader.take (n * 2 ^ e)
  return (Packing.stretches (2 ^ e) bs).map ofBytes

/-- Values that need `2 ^ e` bytes each; those of one byte are packed. -/
def writeNarrow (e : Nat) (vs : List Nat) : Bytes :=
  if e = 0 then writeSmall vs else writeWords e vs

/-- Reads `n` values of `2 ^ e` bytes each. -/
def readNarrow (e n : Nat) : Reader (List Nat) :=
  if e = 0 then readSmall n else readWords e n

/-- Columns that carry no code: empty ones, and a single word of two bytes. -/
def isBare (e n : Nat) : Bool := n == 0 || e == 1 && n == 1

/-- Only so many values are looked at before the width of a column is decided. -/
def sampleLength : Nat := 16

/-- The bytes of a column of words of `2 ^ e` bytes. -/
def writeColumn (e : Nat) (vs : List Nat) : Bytes :=
  let sample := vs.take sampleLength
  if e = 0 then writeSmall vs
  else if isBare e vs.length then writeWords e vs
  else if widthLog (greatest sample - least sample) = e then 0 :: writeWords e vs
  else
    let lo := least vs
    let hi := greatest vs
    let plain := widthLog hi
    let shifted := widthLog (hi - lo)
    if shifted < plain ∧ 5 < vs.length then
      .ofNat (2 * (e - shifted) - 1) ::
        (toBytes (2 ^ e) lo ++ writeNarrow shifted (vs.map (· - lo)))
    else .ofNat (2 * (e - plain)) :: writeNarrow plain vs

/-- Reads one word of `2 ^ e` bytes. -/
def readWord (e : Nat) : Reader Nat := do
  return ofBytes (← Reader.take (2 ^ e))

/-- Reads a column of `n` words of `2 ^ e` bytes. -/
def readColumn (e n : Nat) : Reader (List Nat) := do
  if e = 0 then
    return ← readSmall n
  if isBare e n then
    return ← readWords e n
  let code ← Reader.byte
  let lo ← readOffset code (readWord e)
  if e < (code + 1) / 2 then
    failure
  return (← readNarrow (e - (code + 1) / 2) n).map fun v => (v + lo) % 256 ^ 2 ^ e

/-- Lengths from this one on are refused. -/
def lengthLimit : Nat := (2 ^ 63 - 1) / 4096

/-- The bytes of a length: one byte, or the byte 255 and a column of one word. -/
def writeLength (n : Nat) : Bytes :=
  if n < 255 then [.ofNat n] else 255 :: writeColumn 3 [n]

/-- Reads a length below the limit. -/
def readLength : Reader Nat := do
  let b ← Reader.byte
  let n ← if b < 255 then pure b else (·.headD 0) <$> readColumn 3 1
  if n < lengthLimit then return n else failure

end RailGrid.Save
