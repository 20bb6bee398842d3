import RailGrid.Text.Hex

/-!
# Notices

What the library reports on its way without refusing anything: what it makes, and what it could not
read and replaced. Each notice has a level and a text.
-/

namespace RailGrid

/-- Something worth telling the user. -/
inductive Notice where
  /-- A map with these edges is about to be made. -/
  | creatingMap (sizeX sizeY : UInt32)
  /-- The random streams are started from this seed. -/
  | seeding (seed : UInt32)
  /-- The saved bytes of a resource could not be read. -/
  | unreadable (key : String) (length : Nat)
  /-- The saved edges of a map do not fit its tiles. -/
  | inconsistentMap (key : String)
  /-- A second resource was registered under a key. -/
  | keyTaken (key : String)
  deriving DecidableEq, Repr

/-- The line that reports a notice. -/
def Notice.text : Notice → String
  | creatingMap sizeX sizeY => s!"INFO: Creating {sizeX}x{sizeY} tile map"
  | seeding seed =>
    s!"DEBUG: Seeding random generators with 0x{String.ofList (Text.hexDigits 8 seed.toNat)}"
  | unreadable key length =>
    s!"WARN: Saveable {key}: failed to decode {length} bytes, falling back to default"
  | inconsistentMap key =>
    s!"WARN: Saveable {key}: map dimensions do not match tile count, falling back to default"
  | keyTaken key => s!"WARN: Save key '{key}' already taken; keeping the first registration"

end RailGrid
