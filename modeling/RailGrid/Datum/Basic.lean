/-!
# Structured data

Values as text formats for data know them: numbers, texts, lists and named fields. A record can be
given by the names of its fields or by their order, a choice by its name alone or with what belongs
to it. Fields that belong to a choice are always named.
-/

namespace RailGrid

/-- A piece of structured data. -/
inductive Datum where
  /-- Nothing. -/
  | null
  /-- A truth value. -/
  | bool (b : Bool)
  /-- An integer. -/
  | int (n : Int)
  /-- A number that is no integer; which one does not matter here. -/
  | fraction
  /-- A text. -/
  | str (s : String)
  /-- A list. -/
  | arr (ds : List Datum)
  /-- Named fields, each name once. -/
  | obj (fields : List (String × Datum))
  deriving Inhabited

namespace Datum

/-- The value of a field of an object. -/
def lookup? (fields : List (String × Datum)) (name : String) : Option Datum :=
  (fields.find? fun p => p.1 == name).map (·.2)

/-- The fields of an object in the order of the given names; it may have further fields. -/
def namedFields? (names : List String) : Datum → Option (List Datum)
  | obj fields => names.mapM (lookup? fields)
  | _ => none

/-- The fields of a record in the order of their names: those of an object, or a list of exactly
these. -/
def fields? (names : List String) : Datum → Option (List Datum)
  | arr ds => if ds.length = names.length then some ds else none
  | d => d.namedFields? names

/-- A record with the given fields. -/
def ofFields (names : List String) (ds : List Datum) : Datum := obj (names.zip ds)

/-- The name of a choice and what is given with it: a text is a name alone, an object with a single
field is a name with its content. -/
def choice? : Datum → Option (String × Option Datum)
  | str s => some (s, none)
  | obj [(s, d)] => some (s, some d)
  | _ => none

/-- Whether what is given with a choice is nothing, as it must be where nothing belongs to it. -/
def isNothing : Option Datum → Bool
  | none | some null => true
  | _ => false

/-- An integer in the range from zero to `bound`, which is excluded. -/
def natBelow? (bound : Nat) : Datum → Option Nat
  | int (.ofNat n) => if n < bound then some n else none
  | _ => none

end Datum

end RailGrid
