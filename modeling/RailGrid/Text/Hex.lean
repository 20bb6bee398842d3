/-!
# Hexadecimal digits

Numbers in base sixteen, written with lower-case digits and read with either case.
-/

namespace RailGrid.Text

/-- The lower-case digit for a number below sixteen. -/
def hexDigit (n : Nat) : Char :=
  if n < 10 then .ofNat (n + 48) else .ofNat (n + 87)

/-- The value of a digit of either case. -/
def hexValue? (c : Char) : Option Nat :=
  if '0' ≤ c ∧ c ≤ '9' then some (c.toNat - 48)
  else if 'a' ≤ c ∧ c ≤ 'f' then some (c.toNat - 87)
  else if 'A' ≤ c ∧ c ≤ 'F' then some (c.toNat - 55)
  else none

/-- The last `n` digits of a number. -/
def hexDigits : Nat → Nat → List Char
  | 0, _ => []
  | n + 1, x => hexDigits n (x / 16) ++ [hexDigit (x % 16)]

/-- The number whose digits, most significant first, follow `acc`; there must be digits only. -/
def ofHexDigits? (acc : Nat) : List Char → Option Nat
  | [] => some acc
  | c :: cs => do ofHexDigits? (16 * acc + (← hexValue? c)) cs

/-- A number below `bound` in hexadecimal digits, at least one, after an optional plus sign. -/
def hexNumber? (bound : Nat) (cs : List Char) : Option Nat :=
  let ds := if cs.head? = some '+' then cs.tail else cs
  if ds.isEmpty then none else (ofHexDigits? 0 ds).filter (· < bound)

/-- Two digits for each byte. -/
def hexBytes (bs : List UInt8) : String :=
  .ofList (bs.flatMap fun b => hexDigits 2 b.toNat)

end RailGrid.Text
