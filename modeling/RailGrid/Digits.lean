import RailGrid.Word

/-!
# Numbers as digits

A number in a given base as a list of digits, the lowest first. Words laid out as bytes and small
values packed into bytes are both of this kind, in base 256 and in smaller bases. Digits of enough
places determine the number, and a number determines its digits.
-/

namespace RailGrid

/-- The lowest `n` digits of a number. -/
def digits (base : Nat) : Nat → Nat → List Nat
  | 0, _ => []
  | n + 1, x => x % base :: digits base n (x / base)

/-- The number with the given digits. -/
def ofDigits (base : Nat) : List Nat → Nat
  | [] => 0
  | d :: ds => d + base * ofDigits base ds

/-- The bytes of a number of `n` bytes. -/
def toBytes (n x : Nat) : List UInt8 := (digits 256 n x).map .ofNat

/-- The number with the given bytes. -/
def ofBytes (bs : List UInt8) : Nat := ofDigits 256 (bs.map (·.toNat))

variable {base n x : Nat} {ds : List Nat}

@[simp] theorem length_digits : (digits base n x).length = n := by
  induction n generalizing x with
  | zero => rfl
  | succ n ih => rw [digits, List.length_cons, ih]

@[simp] theorem length_toBytes : (toBytes n x).length = n := by
  rw [toBytes, List.length_map, length_digits]

/-- A number with at most `n` digits is determined by them. -/
theorem ofDigits_digits (h : x < base ^ n) : ofDigits base (digits base n x) = x := by
  induction n generalizing x with
  | zero => exact (Nat.lt_one_iff.mp h).symm
  | succ n ih =>
    have hdiv : x / base < base ^ n :=
      Nat.div_lt_of_lt_mul (by rw [Nat.mul_comm, ← Nat.pow_succ]; exact h)
    rw [digits, ofDigits, ih hdiv, Nat.mod_add_div]

/-- Digits are read back from their number, followed by zeros. -/
theorem digits_ofDigits (hds : ∀ d ∈ ds, d < base) (hn : ds.length ≤ n) :
    digits base n (ofDigits base ds) = ds ++ List.replicate (n - ds.length) 0 := by
  induction n generalizing ds with
  | zero =>
    rw [List.eq_nil_of_length_eq_zero (Nat.le_zero.mp hn)]
    rfl
  | succ n ih =>
    cases ds with
    | nil =>
      have hzero : digits base n (ofDigits base []) = [] ++ List.replicate (n - 0) 0 :=
        ih (by simp) (by simp)
      simp only [ofDigits, List.nil_append, Nat.sub_zero] at hzero
      simp only [digits, ofDigits, Nat.zero_mod, Nat.zero_div, hzero, List.nil_append,
        List.length_nil, Nat.sub_zero, List.replicate_succ]
    | cons d ds =>
      have hd : d < base := hds d (by simp)
      have hmod : (d + base * ofDigits base ds) % base = d := by
        rw [Nat.add_mul_mod_self_left, Nat.mod_eq_of_lt hd]
      have hdiv : (d + base * ofDigits base ds) / base = ofDigits base ds := by
        rw [Nat.add_mul_div_left _ _ (by omega), Nat.div_eq_of_lt hd, Nat.zero_add]
      rw [digits, ofDigits, hmod, hdiv, ih (fun e he => hds e (by simp [he]))
        (by simpa using hn)]
      simp

/-- A digit is a quotient by a power of the base, without the digits above it. -/
theorem digits_eq_map :
    digits base n x = (List.range n).map fun j => x / base ^ j % base := by
  induction n generalizing x with
  | zero => rfl
  | succ n ih =>
    rw [digits, ih, List.range_succ_eq_map, List.map_cons, List.map_map, Nat.pow_zero, Nat.div_one]
    congr 1
    refine List.map_congr_left fun j _ => ?_
    rw [Function.comp_apply, Nat.pow_succ', Nat.div_div_eq_div_mul]

theorem toBytes_eq_map :
    toBytes n x = (List.range n).map fun j => UInt8.ofNat (x / 256 ^ j) := by
  rw [toBytes, digits_eq_map, List.map_map]
  exact List.map_congr_left fun j _ => UInt8.ofNat_mod_size

/-- Digits end to end: those of the second part are worth a power of the base more. -/
theorem ofDigits_append {es : List Nat} :
    ofDigits base (ds ++ es) = ofDigits base ds + base ^ ds.length * ofDigits base es := by
  induction ds with
  | nil => simp [ofDigits]
  | cons d ds ih =>
    rw [List.cons_append, ofDigits, ih, ofDigits, List.length_cons, Nat.pow_succ', Nat.mul_add,
      Nat.mul_assoc, Nat.add_assoc]

theorem ofBytes_append {bs cs : List UInt8} :
    ofBytes (bs ++ cs) = ofBytes bs + 256 ^ bs.length * ofBytes cs := by
  rw [ofBytes, List.map_append, ofDigits_append, List.length_map, ofBytes, ofBytes]

end RailGrid
