import RailGrid.Digits

/-!
# The random number generator

A generator has two 32-bit words of state and yields one word at each draw. It is fast and fully
determined by its seed, so that everyone who starts from one seed sees one sequence. Ranges, long
words and bytes are all taken from the same sequence of words.
-/

namespace RailGrid

/-- The state of a random number generator. -/
structure Generator where
  /-- The word that is mixed at each draw. -/
  first : UInt32 := 0
  /-- The word drawn last, or the seed before any draw. -/
  second : UInt32 := 0
  deriving DecidableEq, Repr, Inhabited

namespace Generator

/-- The generator with both words equal to a seed. -/
def ofSeed (seed : UInt32) : Generator := ⟨seed, seed⟩

/-- The word rotated right by `n` bits. -/
def rotateRight (x : UInt32) (n : Nat) : UInt32 := ⟨x.toBitVec.rotateRight n⟩

/-- The state after one draw. -/
def next (g : Generator) : Generator where
  first := g.first + rotateRight (g.second ^^^ 0x1234567F) 7 + 1
  second := rotateRight g.first 3 - 1

/-- The state after `n` draws. -/
def advance (g : Generator) (n : Nat) : Generator := n.repeat next g

/-- One word of the sequence. -/
def draw (g : Generator) : UInt32 × Generator := (g.next.second, g.next)

/-- The value at a word's relative place among the numbers below a limit; zero if there are none. -/
def scale (word limit : UInt32) : UInt32 := ((word.toUInt64 * limit.toUInt64) >>> 32).toUInt32

/-- A number below a limit, from one word. -/
def drawBelow (limit : UInt32) (g : Generator) : UInt32 × Generator :=
  (scale g.draw.1 limit, g.draw.2)

/-- A 64-bit word, from two words, the lower half first. -/
def drawWide (g : Generator) : UInt64 × Generator :=
  let (low, g₁) := g.draw
  let (high, g₂) := g₁.draw
  (high.toUInt64 <<< 32 ||| low.toUInt64, g₂)

/-- The answers to `n` equal requests in a row. -/
def replicate {α : Type} (request : Generator → α × Generator) :
    Nat → Generator → List α × Generator
  | 0, g => ([], g)
  | n + 1, g =>
    let (a, g₁) := request g
    let (as, g₂) := replicate request n g₁
    (a :: as, g₂)

/-- The generator whose seed has the given four bytes, the lowest first. -/
def ofSeedBytes (bs : List UInt8) : Generator := ofSeed (.ofNat (ofBytes bs))

/-- Fills one stretch of at most four bytes from one word. -/
def fillStretch (length : Nat) (g : Generator) : List UInt8 × Generator :=
  ((toBytes 4 g.draw.1.toNat).take length, g.draw.2)

/-- The lengths of the stretches of `n` bytes: fours, and what is left over. -/
def stretches (n : Nat) : List Nat :=
  List.replicate (n / 4) 4 ++ if n % 4 = 0 then [] else [n % 4]

/-- Fills stretches of the given lengths, one after the other. -/
def fillStretches : List Nat → Generator → List UInt8 × Generator
  | [], g => ([], g)
  | length :: ls, g =>
    let (bs, g₁) := fillStretch length g
    let (rest, g₂) := fillStretches ls g₁
    (bs ++ rest, g₂)

/-- `n` bytes; the upper bytes of the last word may be dropped. -/
def fill (n : Nat) (g : Generator) : List UInt8 × Generator := fillStretches (stretches n) g

@[simp] theorem advance_zero (g : Generator) : g.advance 0 = g := rfl

theorem advance_succ (g : Generator) (n : Nat) : g.advance (n + 1) = (g.advance n).next := rfl

theorem next_advance (g : Generator) (n : Nat) : g.next.advance n = g.advance (n + 1) := by
  induction n with
  | zero => rfl
  | succ n ih => rw [advance_succ, ih, ← advance_succ]

theorem advance_add (g : Generator) (m n : Nat) : g.advance (m + n) = (g.advance m).advance n := by
  induction n with
  | zero => rfl
  | succ n ih => rw [← Nat.add_assoc, advance_succ, ih, advance_succ]

end Generator

end RailGrid
