import RailGrid.Random.Streams

/-!
# Unpredictable bytes

A buffer is filled from a source of strong randomness. When the source fails, every byte is taken
instead from a mixture of the clock and one draw of the interactive generator, so the buffer is
filled in any case. How the mixture is hashed, and what the clock shows, are left open.
-/

namespace RailGrid

/-- A source of bytes: it overwrites a buffer and says whether it could fill all of it. -/
structure EntropySource where
  /-- Whether the buffer was filled, and what it holds afterwards. -/
  fill : List UInt8 → Bool × List UInt8
  /-- A buffer keeps its length. -/
  length_fill : ∀ buf, (fill buf).2.length = buf.length

namespace EntropySource

/-- The source that is never available. -/
def unavailable : EntropySource where
  fill buf := (false, buf)
  length_fill _ := rfl

/-- The source that writes one byte everywhere and then reports success or failure. -/
def constant (b : UInt8) (succeeds : Bool) : EntropySource where
  fill buf := (succeeds, .replicate buf.length b)
  length_fill _ := List.length_replicate

end EntropySource

/-- The makings of bytes that do without a source. -/
structure Fallback where
  /-- What the clock shows at each reading. -/
  clock : Nat → UInt64
  /-- The hash of a mixed word. -/
  digest : UInt64 → UInt64

namespace Fallback

/-- The byte made from the clock at reading `i` and a drawn word. -/
def byte (f : Fallback) (i : Nat) (word : UInt32) : UInt8 :=
  (f.digest (f.clock i ^^^ word.toUInt64)).toUInt8

/-- Overwrites a buffer, one draw for each byte, with the clock read from reading `i` on. -/
def fill (f : Fallback) (i : Nat) : List UInt8 → Generator → List UInt8 × Generator
  | [], g => ([], g)
  | _ :: buf, g =>
    let (word, g₁) := Streams.interactiveWord g
    let (bs, g₂) := f.fill (i + 1) buf g₁
    (f.byte i word :: bs, g₂)

end Fallback

/-- A buffer after a request for unpredictable bytes. -/
structure FilledBuffer where
  /-- The bytes of the buffer. -/
  bytes : List UInt8
  /-- The fallback was needed. -/
  usedFallback : Bool
  deriving DecidableEq, Repr

/-- Fills a buffer from a source, or by the fallback when the source fails. -/
def EntropySource.fillOr (source : EntropySource) (f : Fallback) (buf : List UInt8)
    (g : Generator) : FilledBuffer × Generator :=
  match source.fill buf with
  | (true, bs) => (⟨bs, false⟩, g)
  | (false, bs) =>
    let (mixed, g₁) := f.fill 0 bs g
    (⟨mixed, true⟩, g₁)

/-- The source that a game was set up with. -/
structure Entropy where
  /-- The source. -/
  source : EntropySource

/-- Fills a buffer from the source of the game, or by the fallback when that fails. -/
def Entropy.fill (e : Entropy) (f : Fallback) (buf : List UInt8) (g : Generator) :
    FilledBuffer × Generator :=
  e.source.fillOr f buf g

end RailGrid
