import Mathlib.Data.FinEnum
import Mathlib.Dynamics.PeriodicPts.Lemmas
import Mathlib.SetTheory.Cardinal.Finite
import RailGrid.Random.Streams

/-!
# Drawing is a permutation of the states

Both words of a state can be computed back from the words after a draw, so no state is lost and none
is reached twice. Generators that start apart therefore never meet at equal numbers of draws, and as
there are finitely many states each of them comes back in the end.
-/

namespace RailGrid

namespace Generator

variable {g h : Generator} {x : UInt32} {n : Nat}

/-! ### The state before a draw -/

/-- The word rotated left by `n` bits. -/
def rotateLeft (x : UInt32) (n : Nat) : UInt32 := ⟨x.toBitVec.rotateLeft n⟩

theorem rotateLeft_rotateRight (hn : n < 32) : rotateLeft (rotateRight x n) n = x := by
  apply UInt32.toBitVec_inj.mp
  apply BitVec.eq_of_getLsbD_eq
  intro i hi
  -- the lowest `n` bits have been at the top of the rotated word, the others below them
  rw [rotateLeft, rotateRight, BitVec.getLsbD_rotateLeft, BitVec.getLsbD_rotateRight,
    BitVec.getLsbD_rotateRight, Nat.mod_eq_of_lt hn]
  by_cases hlow : i < n
  · have hback : 32 - n + i - (32 - n) = i := by omega
    have htop : ¬ 32 - n + i < 32 - n := by omega
    have hword : 32 - n + i < 32 := by omega
    simp only [hlow, htop, hword, hback, decide_true, decide_false, cond_true, cond_false,
      Bool.true_and]
  · have hback : n + (i - n) = i := by omega
    have hbelow : i - n < 32 - n := by omega
    simp only [hlow, hbelow, hback, hi, decide_true, decide_false, cond_true, cond_false,
      Bool.true_and]

/-- The state before a draw: the first word is found in the second one, and then tells what was
added to it. -/
def previous (g : Generator) : Generator :=
  let first := rotateLeft (g.second + 1) 3
  { first, second := rotateLeft (g.first - 1 - first) 7 ^^^ 0x1234567F }

@[simp] theorem previous_next (g : Generator) : g.next.previous = g := by
  have hfirst : rotateLeft (g.next.second + 1) 3 = g.first := by
    rw [next, UInt32.sub_add_cancel, rotateLeft_rotateRight (by decide)]
  have hmixed : g.next.first - 1 - g.first = rotateRight (g.second ^^^ 0x1234567F) 7 := by
    rw [next, UInt32.add_sub_cancel, UInt32.add_comm, UInt32.add_sub_cancel]
  have hsecond : g.second ^^^ 0x1234567F ^^^ 0x1234567F = g.second := by
    rw [UInt32.xor_assoc, UInt32.xor_self, UInt32.xor_zero]
  rw [previous, hfirst, hmixed, rotateLeft_rotateRight (by decide), hsecond]

theorem next_injective : Function.Injective next :=
  Function.LeftInverse.injective previous_next

/-! ### Finitely many states -/

/-- A state as the pair of its words. -/
def equivWords : Generator ≃ UInt32 × UInt32 where
  toFun g := (g.first, g.second)
  invFun p := ⟨p.1, p.2⟩
  left_inv _ := rfl
  right_inv _ := rfl

instance : Finite Generator := Finite.of_equiv _ equivWords.symm

theorem card_generator : Nat.card Generator = 2 ^ 64 := by
  have hword : Nat.card UInt32 = 2 ^ 32 := by
    rw [Nat.card_eq_fintype_card, ← FinEnum.card_eq_fintypeCard]
    rfl
  rw [Nat.card_congr equivWords, Nat.card_prod, hword]
  rfl

/-- There being finitely many states, a draw that loses none of them reaches all of them. -/
@[simp] theorem next_previous (g : Generator) : g.previous.next = g :=
  Function.LeftInverse.rightInverse_of_surjective previous_next
    (Finite.injective_iff_surjective.mp next_injective) g

/-! ### Runs of draws -/

/-- Equal numbers of draws keep different states apart. -/
theorem advance_inj : g.advance n = h.advance n ↔ g = h := by
  refine ⟨fun heq => ?_, fun heq => heq ▸ rfl⟩
  induction n with
  | zero => exact heq
  | succ n ih => exact ih (next_injective heq)

theorem ofSeed_inj {seed other : UInt32} : ofSeed seed = ofSeed other ↔ seed = other :=
  ⟨fun heq => congrArg second heq, fun heq => heq ▸ rfl⟩

theorem advance_eq_iterate (g : Generator) (n : Nat) : g.advance n = next^[n] g := by
  induction n with
  | zero => rfl
  | succ n ih => rw [advance_succ, ih, Function.iterate_succ_apply']

/-- Drawing comes back to every state. -/
theorem exists_advance_eq_self (g : Generator) : ∃ p, 1 ≤ p ∧ g.advance p = g := by
  obtain ⟨p, hp, hback⟩ := Function.mem_periodicPts.mp (next_injective.mem_periodicPts g)
  exact ⟨p, hp, (advance_eq_iterate g p).trans hback⟩

end Generator

namespace Streams

/-- The number by which the interactive factor is undone. -/
def interactiveInverse : UInt32 := 0xC2A50657

theorem interactiveFactor_mul_inverse : interactiveFactor * interactiveInverse = 1 := by
  decide

/-- Different seeds give different seeds of the interactive stream. -/
theorem mul_interactiveFactor_inj {seed other : UInt32} :
    seed * interactiveFactor = other * interactiveFactor ↔ seed = other := by
  have hundo (s : UInt32) : s * interactiveFactor * interactiveInverse = s := by
    rw [UInt32.mul_assoc, interactiveFactor_mul_inverse, UInt32.mul_one]
  refine ⟨fun heq => ?_, fun heq => heq ▸ rfl⟩
  rw [← hundo seed, heq, hundo]

end Streams

namespace Generator

/-- A draw permutes the states, of which there are as many as pairs of words, and `previous` undoes
it. So after equal numbers of draws two generators are in one state only if they started in one,
be they started from seeds of their own or as the streams of one seed each, and every state comes
back after some number of draws. -/
theorem next_permutes :
    Nat.card Generator = 2 ^ 64 ∧
    (∀ g : Generator, g.next.previous = g ∧ g.previous.next = g) ∧
    (∀ (g h : Generator) (n : Nat), g.advance n = h.advance n ↔ g = h) ∧
    (∀ (seed other : UInt32) (n : Nat),
      (ofSeed seed).advance n = (ofSeed other).advance n ↔ seed = other) ∧
    (∀ seed other : UInt32,
      (seed * Streams.interactiveFactor = other * Streams.interactiveFactor ↔ seed = other) ∧
      ∀ n : Nat,
        ((Streams.ofSeed seed).sim.advance n = (Streams.ofSeed other).sim.advance n ↔
          seed = other) ∧
        ((Streams.ofSeed seed).interactive.advance n =
          (Streams.ofSeed other).interactive.advance n ↔ seed = other)) ∧
    ∀ g : Generator, ∃ p, 1 ≤ p ∧ g.advance p = g := by
  refine ⟨card_generator, fun g => ⟨previous_next g, next_previous g⟩, fun g h n => advance_inj,
    fun seed other n => advance_inj.trans ofSeed_inj, fun seed other => ?_,
    exists_advance_eq_self⟩
  refine ⟨Streams.mul_interactiveFactor_inj, fun n => ⟨?_, ?_⟩⟩
  · exact advance_inj.trans ofSeed_inj
  · exact advance_inj.trans (ofSeed_inj.trans Streams.mul_interactiveFactor_inj)

end Generator

end RailGrid
