import RailGrid.Text.Blank
import RailGrid.Text.Hex

/-!
# Sets of named flags

A byte used as a set of flags, some of which have names. In text such a set is the names of its
single flags joined by bars, with the bits that have no name as one hexadecimal number at the end.
Reading is more liberal than writing: it accepts named unions, numbers, repetitions and blanks.
-/

namespace RailGrid

/-- A name for a set of bits. -/
structure Flag where
  /-- The name in text. -/
  name : String
  /-- The bits it stands for. -/
  bits : UInt8
  deriving DecidableEq, Repr

/-- The names that a kind of flag set declares. -/
structure FlagTable where
  /-- The single flags, in the order in which they are written. -/
  singles : List Flag
  /-- Names for unions of single flags; these are read but not written. -/
  unions : List Flag

namespace FlagTable

/-- The bits that have a name. -/
def known (t : FlagTable) : UInt8 := t.singles.foldl (fun acc f => acc ||| f.bits) 0

/-- The bits declared under a name, which must match exactly. -/
def ofName? (t : FlagTable) (s : String) : Option UInt8 :=
  ((t.singles ++ t.unions).find? fun f => f.name == s).map (·.bits)

/-- The hexadecimal text of bits without a name, without padding. -/
def restText (b : UInt8) : String :=
  .ofList ('0' :: 'x' :: if b < 16 then Text.hexDigits 1 b.toNat else Text.hexDigits 2 b.toNat)

/-- The parts of the text of a set: its flags in declaration order, then the unnamed rest. -/
def parts (t : FlagTable) (b : UInt8) : List String :=
  let named := (t.singles.filter fun f => b &&& f.bits == f.bits).map (·.name)
  let rest := b &&& ~~~ t.known
  if rest == 0 then named else named ++ [restText rest]

/-- The text of a set. -/
def text (t : FlagTable) (b : UInt8) : String := " | ".intercalate (t.parts b)

/-- The bits one piece stands for: a declared name, or a number after `0x`. -/
def readPart? (t : FlagTable) (cs : List Char) : Option UInt8 :=
  match Text.trim cs with
  | [] => none
  | '0' :: 'x' :: ds => (Text.hexNumber? 256 ds).map .ofNat
  | p => t.ofName? (.ofList p)

/-- The set a text stands for: a blank text is the empty set, otherwise every piece must be read. -/
def read? (t : FlagTable) (s : String) : Option UInt8 :=
  let cs := Text.trim s.toList
  if cs.isEmpty then some 0
  else ((cs.splitOn '|').mapM t.readPart?).map fun bs => bs.foldl (· ||| ·) 0

end FlagTable

end RailGrid
