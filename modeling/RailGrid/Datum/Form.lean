import RailGrid.Datum.Basic
import RailGrid.Enumeration
import RailGrid.Flags

/-!
# Values as data

A `Form` writes the values of a type as data and reads them back. Reading accepts more than writing
produces, so every accepted datum has one canonical form: what its value is written as.
-/

namespace RailGrid

/-- A type whose values can be written as data and read from data. -/
class Form (α : Type) where
  /-- The datum a value is written as. -/
  toDatum : α → Datum
  /-- The value a datum stands for. -/
  ofDatum? : Datum → Option α

namespace Form

/-- The datum with the same value that writing would have produced. -/
def canonical? (α : Type) [Form α] (d : Datum) : Option Datum :=
  (ofDatum? d : Option α).map toDatum

instance : Form UInt8 where
  toDatum n := .int n.toNat
  ofDatum? d := (d.natBelow? UInt8.size).map .ofNat

instance : Form UInt16 where
  toDatum n := .int n.toNat
  ofDatum? d := (d.natBelow? UInt16.size).map .ofNat

instance : Form UInt32 where
  toDatum n := .int n.toNat
  ofDatum? d := (d.natBelow? UInt32.size).map .ofNat

instance : Form Bool where
  toDatum := .bool
  ofDatum?
    | .bool b => some b
    | _ => none

instance {α : Type} [Form α] : Form (List α) where
  toDatum as := .arr (as.map toDatum)
  ofDatum?
    | .arr ds => ds.mapM ofDatum?
    | _ => none

instance {α : Type} [DecidableEq α] [Enumeration α] : Form α where
  toDatum a := .str (Enumeration.name a)
  ofDatum? d := do
    let (name, content) ← d.choice?
    guard (Datum.isNothing content)
    Enumeration.ofName? name

end Form

/-- The datum of a flag set: its text. -/
def FlagTable.toDatum (t : FlagTable) (bits : UInt8) : Datum := .str (t.text bits)

/-- The flag set a datum stands for. -/
def FlagTable.ofDatum? (t : FlagTable) : Datum → Option UInt8
  | .str s => t.read? s
  | _ => none

end RailGrid
