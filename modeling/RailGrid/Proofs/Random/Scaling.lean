import Mathlib.Algebra.Order.Floor.Div
import Mathlib.Order.Interval.Finset.Nat
import Mathlib.SetTheory.Cardinal.Finite
import RailGrid.Proofs.Random.Requests
import RailGrid.Proofs.World.Course

/-!
# Numbers below a limit

A word is scaled to a limit by a product of which the upper half is kept. Greater words give no
smaller numbers, so the words that give one number are those between two bounds: the multiples of
the number of all words, divided by the limit and rounded up. Neighbouring bounds lie as far apart
as the number of all words divided by the limit, rounded down or up. Hence every number below the
limit is drawn, and none is favoured by more than one word.
-/

namespace RailGrid

/-! ### Quotients that are rounded up -/

section Quotients

variable {a b d : Nat} (hd : 0 < d)

include hd

theorem ceilDiv_le_div_add_one : a ⌈/⌉ d ≤ a / d + 1 := by
  rw [ceilDiv_le_iff_le_mul hd]
  exact Nat.le_of_lt (Nat.lt_mul_div_succ a hd)

/-- An increase by `b` raises the quotient by at least `b / d`. -/
theorem ceilDiv_add_div_le : a ⌈/⌉ d + b / d ≤ (a + b) ⌈/⌉ d := by
  have hsum : a + b ≤ d * ((a + b) ⌈/⌉ d) := le_smul_ceilDiv hd
  have hshare : d * (b / d) ≤ b := Nat.mul_div_le b d
  have hroom : b / d ≤ (a + b) ⌈/⌉ d := Nat.le_of_mul_le_mul_left (by omega) hd
  have hfirst : a ⌈/⌉ d ≤ (a + b) ⌈/⌉ d - b / d := by
    rw [ceilDiv_le_iff_le_mul hd, Nat.mul_sub]
    omega
  omega

/-- An increase by `b` raises the quotient by at most `b / d` rounded up. -/
theorem ceilDiv_add_le : (a + b) ⌈/⌉ d ≤ a ⌈/⌉ d + b ⌈/⌉ d := by
  have hfirst : a ≤ d * (a ⌈/⌉ d) := le_smul_ceilDiv hd
  have hshare : b ≤ d * (b ⌈/⌉ d) := le_smul_ceilDiv hd
  rw [ceilDiv_le_iff_le_mul hd, Nat.mul_add]
  omega

end Quotients

namespace Generator

variable {v w limit other k : UInt32} {n : Nat}

/-! ### Order -/

theorem scale_zero (w : UInt32) : scale w 0 = 0 := by
  apply UInt32.toNat_inj.mp
  rw [toNat_scale, UInt32.toNat_zero, Nat.mul_zero, Nat.zero_div]

theorem scale_lt (hlimit : 0 < limit) : scale w limit < limit := by
  have hpos : 0 < limit.toNat := UInt32.lt_iff_toNat_lt.mp hlimit
  rw [UInt32.lt_iff_toNat_lt, toNat_scale]
  apply Nat.div_lt_of_lt_mul
  exact Nat.mul_lt_mul_of_pos_right w.toNat_lt hpos

theorem scale_le_scale_of_word_le (h : v ≤ w) : scale v limit ≤ scale w limit := by
  rw [UInt32.le_iff_toNat_le, toNat_scale, toNat_scale]
  exact Nat.div_le_div_right (Nat.mul_le_mul_right _ (UInt32.le_iff_toNat_le.mp h))

theorem scale_le_scale_of_limit_le (h : limit ≤ other) : scale w limit ≤ scale w other := by
  rw [UInt32.le_iff_toNat_le, toNat_scale, toNat_scale]
  exact Nat.div_le_div_right (Nat.mul_le_mul_left _ (UInt32.le_iff_toNat_le.mp h))

/-! ### The words that give one number -/

/-- The first word that is scaled to `n` or more; the number of all words if none is. -/
def firstWord (limit : UInt32) (n : Nat) : Nat := (n * 2 ^ 32) ⌈/⌉ limit.toNat

section Bounds

variable (hlimit : 0 < limit.toNat)

include hlimit

theorem le_scale_iff : n ≤ (scale w limit).toNat ↔ firstWord limit n ≤ w.toNat := by
  rw [toNat_scale, Nat.le_div_iff_mul_le (by decide), firstWord, ceilDiv_le_iff_le_mul hlimit,
    Nat.mul_comm w.toNat]

/-- A word gives a number when it lies between the first words of this number and of the next. -/
theorem scale_eq_iff : scale w limit = k ↔
    firstWord limit k.toNat ≤ w.toNat ∧ w.toNat < firstWord limit (k.toNat + 1) := by
  rw [← le_scale_iff hlimit, ← Nat.not_le, ← le_scale_iff hlimit, ← UInt32.toNat_inj]
  omega

theorem firstWord_le (hn : n ≤ limit.toNat) : firstWord limit n ≤ 2 ^ 32 := by
  rw [firstWord, ceilDiv_le_iff_le_mul hlimit]
  exact Nat.mul_le_mul_right _ hn

/-- From one number to the next the first word moves by the share of a number, rounded down at
least. -/
theorem firstWord_add_le : firstWord limit n + 2 ^ 32 / limit.toNat ≤ firstWord limit (n + 1) := by
  rw [firstWord, firstWord, Nat.succ_mul]
  exact ceilDiv_add_div_le hlimit

/-- From one number to the next the first word moves by the share of a number, rounded up at
most. -/
theorem firstWord_succ_le :
    firstWord limit (n + 1) ≤ firstWord limit n + 2 ^ 32 ⌈/⌉ limit.toNat := by
  rw [firstWord, firstWord, Nat.succ_mul]
  exact ceilDiv_add_le hlimit

/-- The words that give a number are counted by its bounds. -/
theorem card_scale_eq_sub (hk : k.toNat < limit.toNat) :
    Nat.card {w : UInt32 // scale w limit = k} =
      firstWord limit (k.toNat + 1) - firstWord limit k.toNat := by
  have hend : firstWord limit (k.toNat + 1) ≤ 2 ^ 32 := firstWord_le hlimit hk
  have hword (i : Finset.Ico (firstWord limit k.toNat) (firstWord limit (k.toNat + 1))) :
      (UInt32.ofNat i).toNat = i :=
    UInt32.toNat_ofNat_of_lt' (Nat.lt_of_lt_of_le (Finset.mem_Ico.mp i.2).2 hend)
  let number : {w : UInt32 // scale w limit = k} ≃
      Finset.Ico (firstWord limit k.toNat) (firstWord limit (k.toNat + 1)) :=
    { toFun w := ⟨w.1.toNat, Finset.mem_Ico.mpr ((scale_eq_iff hlimit).mp w.2)⟩
      invFun i := ⟨.ofNat i, (scale_eq_iff hlimit).mpr (by
        rw [hword]
        exact Finset.mem_Ico.mp i.2)⟩
      left_inv _ := Subtype.ext UInt32.ofNat_toNat
      right_inv i := Subtype.ext (hword i) }
  rw [Nat.card_congr number, Nat.card_eq_fintype_card, Fintype.card_coe, Nat.card_Ico]

end Bounds

/-- Every number below the limit has its share of the words, rounded down or up. -/
theorem card_scale_eq (hk : k < limit) :
    Nat.card {w : UInt32 // scale w limit = k} = 2 ^ 32 / limit.toNat ∨
      Nat.card {w : UInt32 // scale w limit = k} = 2 ^ 32 ⌈/⌉ limit.toNat := by
  have hlt : k.toNat < limit.toNat := UInt32.lt_iff_toNat_lt.mp hk
  have hlimit : 0 < limit.toNat := Nat.zero_lt_of_lt hlt
  have hleast := firstWord_add_le (n := k.toNat) hlimit
  have hmost := firstWord_succ_le (n := k.toNat) hlimit
  have hround := ceilDiv_le_div_add_one (a := 2 ^ 32) hlimit
  rw [card_scale_eq_sub hlimit hlt]
  omega

/-- Every number below the limit is reached: its share is at least one word. -/
theorem exists_scale_eq (hk : k < limit) : ∃ w, scale w limit = k := by
  have hlt : k.toNat < limit.toNat := UInt32.lt_iff_toNat_lt.mp hk
  have hlimit : 0 < limit.toNat := Nat.zero_lt_of_lt hlt
  have hshare : 0 < 2 ^ 32 / limit.toNat := Nat.div_pos (Nat.le_of_lt limit.toNat_lt) hlimit
  have hleast := firstWord_add_le (n := k.toNat) hlimit
  have hend : firstWord limit (k.toNat + 1) ≤ 2 ^ 32 := firstWord_le hlimit hlt
  have hword : (UInt32.ofNat (firstWord limit k.toNat)).toNat = firstWord limit k.toNat :=
    UInt32.toNat_ofNat_of_lt' (show _ < 2 ^ 32 by omega)
  refine ⟨.ofNat (firstWord limit k.toNat), (scale_eq_iff hlimit).mpr ?_⟩
  rw [hword]
  omega

/-! ### Draws below a limit -/

/-- A word is scaled to the integer part of its share of the limit, without loss in the words: the
product fits into the long word and its upper half into the word. The result is below the limit
and does not fall when the word or the limit grows. Every number below the limit is the result for
its share of the words, rounded down or up. A draw below the limit takes one word, alike for a
generator of its own and for the two streams of an application. -/
theorem drawBelow_fair :
    (∀ w limit : UInt32,
      (w.toUInt64 * limit.toUInt64).toNat = w.toNat * limit.toNat ∧
      (scale w limit).toNat = ((w.toUInt64 * limit.toUInt64) >>> 32).toNat ∧
      (scale w limit).toNat = w.toNat * limit.toNat / 2 ^ 32 ∧
      (0 < limit → scale w limit < limit) ∧ scale w 0 = 0) ∧
    (∀ v w limit : UInt32, v ≤ w → scale v limit ≤ scale w limit) ∧
    (∀ w limit other : UInt32, limit ≤ other → scale w limit ≤ scale w other) ∧
    (∀ limit k : UInt32, k < limit →
      (Nat.card {w : UInt32 // scale w limit = k} = 2 ^ 32 / limit.toNat ∨
        Nat.card {w : UInt32 // scale w limit = k} = 2 ^ 32 ⌈/⌉ limit.toNat) ∧
      ∃ w, scale w limit = k) ∧
    ∀ (g : Generator) (limit : UInt32),
      g.drawBelow limit = (scale (g.word 0) limit, g.advance 1) ∧
      (0 < limit → (g.drawBelow limit).1 < limit) ∧
      (∀ a : App, a.world.sim = some g → (App.askSim (Streams.simBelow limit)).run.run a =
        (.ok (g.drawBelow limit).1,
          { a with world := { a.world with sim := some (g.advance 1) } })) ∧
      ∀ a : App, a.world.interactive = some g →
        (App.askInteractive (Streams.interactiveBelow limit)).run.run a =
          (.ok (g.drawBelow limit).1,
            { a with world := { a.world with interactive := some (g.advance 1) } }) := by
  refine ⟨fun w limit => ⟨toNat_mul_toUInt64 w limit, ?_, toNat_scale w limit, scale_lt,
    scale_zero w⟩, fun _ _ _ => scale_le_scale_of_word_le,
    fun _ _ _ => scale_le_scale_of_limit_le,
    fun _ _ hk => ⟨card_scale_eq hk, exists_scale_eq hk⟩,
    fun g limit => ⟨rfl, scale_lt, fun a ha => ?_, fun a ha => ?_⟩⟩
  · rw [toNat_scale, toNat_mul_shiftRight]
  · rw [Streams.simBelow_eq]
    exact App.run_ask .sim (drawBelow limit) ha
  · rw [Streams.interactiveBelow_eq]
    exact App.run_ask .interactive (drawBelow limit) ha

/-- Of the words a third, rounded, is scaled to the last number below three; and an application
whose simulation stream is asked for a number below a hundred yields one and draws once. -/
theorem drawBelow_fair_three :
    let g : Generator := .ofSeed 12345
    let a : App := { world := { sim := some g, interactive := some (.ofSeed 7) } }
    scale 0xAAAAAAAA 3 ≤ scale 0xFFFFFFFF 3 ∧ scale 0xFFFFFFFF 3 ≤ scale 0xFFFFFFFF 100 ∧
      (Nat.card {w : UInt32 // scale w 3 = 2} = 1431655765 ∨
        Nat.card {w : UInt32 // scale w 3 = 2} = 1431655766) ∧
      (∃ w, scale w 3 = 2) ∧ (g.drawBelow 100).1 < 100 ∧
      (App.askSim (Streams.simBelow 100)).run.run a = (.ok 12, { a with world :=
        { sim := some ⟨0x8C249906, 0x20000606⟩, interactive := some (.ofSeed 7) } }) := by
  intro g a
  obtain ⟨-, hword, hlimit, hshare, hdraw⟩ := drawBelow_fair
  obtain ⟨hcard, hreached⟩ := hshare 3 2 (by decide)
  obtain ⟨-, hbelow, hsim, -⟩ := hdraw g 100
  have hvalue : (g.drawBelow 100).1 = 12 := by decide
  have hnext : g.advance 1 = ⟨0x8C249906, 0x20000606⟩ := by decide
  have hrun := hsim a rfl
  rw [hvalue, hnext] at hrun
  exact ⟨hword _ _ 3 (by decide), hlimit _ 3 100 (by decide), hcard, hreached,
    hbelow (by decide), hrun⟩

end Generator

end RailGrid
