import RailGrid.Text.Hex
import RailGrid.Word

/-!
# Hexadecimal numbers read back

Reading the last `n` digits of a number appends them to the number read so far. A number is read
back from as many digits as it has, since none of them is taken for a sign.
-/

namespace RailGrid.Text

theorem hexValue?_hexDigit {n : Nat} (hn : n < 16) : hexValue? (hexDigit n) = some n := by
  revert n
  decide

/-- A number is written in digits alone. -/
theorem mem_hexDigits {c : Char} {n x : Nat} (hc : c ∈ hexDigits n x) :
    ∃ d < 16, c = hexDigit d := by
  induction n generalizing x with
  | zero => cases hc
  | succ n ih =>
    rw [hexDigits, List.mem_append, List.mem_singleton] at hc
    rcases hc with hc | hc
    · exact ih hc
    · exact ⟨x % 16, Nat.mod_lt x (by decide), hc⟩

theorem ofHexDigits?_append (acc : Nat) (cs ds : List Char) :
    ofHexDigits? acc (cs ++ ds) = (ofHexDigits? acc cs).bind (ofHexDigits? · ds) := by
  induction cs generalizing acc with
  | nil => rfl
  | cons c cs ih =>
    rw [List.cons_append, ofHexDigits?, ofHexDigits?]
    cases hexValue? c with
    | none => rfl
    | some d => exact ih _

/-- The digits are read one after the other behind what has been read before. -/
theorem ofHexDigits?_hexDigits (acc n x : Nat) :
    ofHexDigits? acc (hexDigits n x) = some (acc * 16 ^ n + x % 16 ^ n) := by
  induction n generalizing x with
  | zero => rw [hexDigits, ofHexDigits?, Nat.pow_zero, Nat.mul_one, Nat.mod_one, Nat.add_zero]
  | succ n ih =>
    have hlast : ofHexDigits? (acc * 16 ^ n + x / 16 % 16 ^ n) [hexDigit (x % 16)] =
        some (16 * (acc * 16 ^ n + x / 16 % 16 ^ n) + x % 16) := by
      rw [ofHexDigits?, hexValue?_hexDigit (Nat.mod_lt x (by decide))]
      rfl
    have hmod : x % 16 ^ (n + 1) = x % 16 + 16 * (x / 16 % 16 ^ n) := by
      rw [Nat.pow_succ', Nat.mod_mul]
    have hshift : acc * 16 ^ (n + 1) = 16 * (acc * 16 ^ n) := by
      rw [Nat.pow_succ', Nat.mul_left_comm]
    rw [hexDigits, ofHexDigits?_append, ih, Option.bind_some, hlast, hmod, hshift]
    congr 1
    omega

/-- A number is read back from enough digits, at least one. -/
theorem hexNumber?_hexDigits {bound n x : Nat} (hx : x < 16 ^ (n + 1)) (hbound : x < bound) :
    hexNumber? bound (hexDigits (n + 1) x) = some x := by
  have hsign : ∀ d < 16, hexDigit d ≠ '+' := by decide
  have hhead : (hexDigits (n + 1) x).head? ≠ some '+' := by
    intro hplus
    obtain ⟨d, hd, heq⟩ := mem_hexDigits (List.mem_of_mem_head? hplus)
    exact hsign d hd heq.symm
  have hne : (hexDigits (n + 1) x).isEmpty = false := by
    rw [hexDigits, List.isEmpty_eq_false_iff]
    simp
  rw [hexNumber?, if_neg hhead]
  simp only [hne, Bool.false_eq_true, if_false]
  rw [ofHexDigits?_hexDigits, Nat.zero_mul, Nat.zero_add, Nat.mod_eq_of_lt hx]
  simp [hbound]

end RailGrid.Text
