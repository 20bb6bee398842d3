import RailGrid.Word

/-!
# Tile owners

An owner is a small number. The first ones are companies, a few of the others have a fixed
meaning. A tile record has room for five bits of it, which every named owner fits.
-/

namespace RailGrid

/-- Who owns a tile. -/
structure Owner where
  /-- The number stored for the owner. -/
  number : UInt8
  deriving DecidableEq, Repr

namespace Owner

/-- The number of bits a tile record keeps of an owner. -/
def width : Nat := 5

/-- The number of companies; their owners are the numbers below it. -/
def companies : UInt8 := 8

/-- The owner of what a town built. -/
def town : Owner := ⟨0x0F⟩

/-- The owner of unowned land. -/
def nobody : Owner := ⟨0x10⟩

/-- The owner of water. -/
def water : Owner := ⟨0x11⟩

/-- Whether the owner is a company. -/
def isCompany (o : Owner) : Bool := o.number < companies

/-- The owner fits into a tile record. -/
def Fits (o : Owner) : Prop := o.number.toNat < 2 ^ width

instance (o : Owner) : Decidable o.Fits := inferInstanceAs (Decidable (_ < _))

theorem fits_nobody : nobody.Fits := by decide

end Owner

end RailGrid
