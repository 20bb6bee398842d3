import RailGrid.Random.Generator

/-!
# The two random streams

Everything that players must agree on is drawn from the simulation stream, everything that only one
of them sees from the interactive stream. One seed starts both; the interactive stream starts from
a multiple of it. Each stream has its own requests for words and for numbers below a limit.
-/

namespace RailGrid

/-- The two generators of a game. -/
structure Streams where
  /-- Drawn from by everything that affects the game. -/
  sim : Generator := {}
  /-- Drawn from by everything that does not. -/
  interactive : Generator := {}
  deriving DecidableEq, Repr, Inhabited

namespace Streams

/-- What the seed is multiplied by for the interactive stream. -/
def interactiveFactor : UInt32 := 0x1234567

/-- Both streams started from one seed. -/
def ofSeed (seed : UInt32) : Streams where
  sim := .ofSeed seed
  interactive := .ofSeed (seed * interactiveFactor)

/-- A word from the simulation stream. -/
def simWord (g : Generator) : UInt32 × Generator := g.draw

/-- A number below a limit from the simulation stream, which scales its own next word. -/
def simBelow (limit : UInt32) (g : Generator) : UInt32 × Generator :=
  let (word, g₁) := simWord g
  (Generator.scale word limit, g₁)

/-- A word from the interactive stream. -/
def interactiveWord (g : Generator) : UInt32 × Generator := g.draw

/-- A number below a limit from the interactive stream, which passes the request on. -/
def interactiveBelow (limit : UInt32) (g : Generator) : UInt32 × Generator := g.drawBelow limit

/-- Both streams draw numbers below a limit as any generator does. -/
theorem simBelow_eq (limit : UInt32) : simBelow limit = Generator.drawBelow limit := rfl

theorem interactiveBelow_eq (limit : UInt32) : interactiveBelow limit = Generator.drawBelow limit :=
  rfl

end Streams

end RailGrid
