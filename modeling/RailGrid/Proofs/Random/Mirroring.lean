import RailGrid.MapConfig
import RailGrid.Proofs.Random.Recovery
import RailGrid.Proofs.Random.Separation

/-!
# Streams that mirror each other

The interactive stream starts from a multiple of the seed, so that it does not repeat what is drawn
from the simulation stream. Two seeds are multiplied to themselves, and one of them is the seed that
a game has when none is asked for: from these both streams yield the same words for ever. From every
other seed the streams are never in one state when as many words have been drawn from each.
-/

namespace RailGrid

/-- The stream from which a call draws one word, for the calls that do nothing else. -/
def StreamCall.drawsFrom? : StreamCall → Option StreamKind
  | draw k | drawBelow k _ => some k
  | fill .. | load .. | reseed _ => none

namespace Streams

variable {s : Streams} {j k : StreamKind} {c : StreamCall} {cs : List StreamCall} {seed : UInt32}
  {n : Nat}

/-! ### Seeds that are multiplied to themselves -/

/-- The number by which half of the factor less one is undone. -/
def excessInverse : UInt32 := 0xCB77DC7B

theorem excess_mul_inverse : (interactiveFactor - 1) * excessInverse = 2 := by
  decide

/-- The factor less one is twice an odd number, so a seed is kept only if its double is zero. -/
theorem mul_interactiveFactor_eq_self_iff :
    seed * interactiveFactor = seed ↔ seed = 0 ∨ seed = 0x80000000 := by
  constructor
  · intro h
    have hdouble : seed * 2 = 0 :=
      calc seed * 2 = seed * ((interactiveFactor - 1) * excessInverse) := by
            rw [excess_mul_inverse]
        _ = (seed * interactiveFactor - seed) * excessInverse := by
            rw [← UInt32.mul_assoc, UInt32.mul_sub, UInt32.mul_one]
        _ = 0 := by rw [h, UInt32.sub_self, UInt32.zero_mul]
    have hrange : seed.toNat * 2 % 2 ^ 32 = 0 :=
      (UInt32.toNat_mul seed 2).symm.trans (congrArg UInt32.toNat hdouble)
    have hlt := seed.toNat_lt
    have hcases : seed.toNat = 0 ∨ seed.toNat = 2 ^ 31 := by omega
    rcases hcases with hzero | hhalf
    · exact .inl (UInt32.toNat_inj.mp hzero)
    · exact .inr (UInt32.toNat_inj.mp hhalf)
  · rintro (rfl | rfl) <;> decide

/-- At equal numbers of draws the streams of one seed are in one state from two seeds only. -/
theorem advance_ofSeed_eq_iff :
    (ofSeed seed).sim.advance n = (ofSeed seed).interactive.advance n ↔
      seed = 0 ∨ seed = 0x80000000 := by
  have hstart : (ofSeed seed).sim = (ofSeed seed).interactive ↔
      seed * interactiveFactor = seed := Generator.ofSeed_inj.trans eq_comm
  exact Generator.advance_inj.trans (hstart.trans mul_interactiveFactor_eq_self_iff)

/-! ### Runs of draws -/

/-- A draw steps the stream from which it draws. -/
theorem call_of_draws (hc : c.drawsFrom? = some j) : (s.call c).2 = s.set (s.get j).next j := by
  cases c with
  | draw i =>
    cases hc
    cases j <;> rfl
  | drawBelow i limit =>
    cases hc
    cases j <;> rfl
  | fill source f buf => cases hc
  | load i bs => cases hc
  | reseed other => cases hc

/-- A draw moves one stream by one word and leaves the other one alone. -/
theorem get_call_of_draws (hc : c.drawsFrom? = some j) :
    (s.call c).2.get k = (s.get k).advance (if j = k then 1 else 0) := by
  rw [call_of_draws hc]
  by_cases hjk : j = k
  · subst hjk
    rw [if_pos rfl, get_set_self]
    rfl
  · rw [if_neg hjk, get_set_of_ne hjk, Generator.advance_zero]

/-- The number of calls that draw from a stream. -/
def drawsOn (k : StreamKind) (cs : List StreamCall) : Nat :=
  cs.countP fun c => c.drawsFrom? = some k

/-- In a run of draws each stream moves by as many words as are drawn from it. -/
theorem get_calls_of_draws (hcs : ∀ c ∈ cs, c.drawsFrom?.isSome = true) :
    (s.calls cs).2.get k = (s.get k).advance (drawsOn k cs) := by
  induction cs generalizing s with
  | nil => rfl
  | cons c cs ih =>
    obtain ⟨hc, hrest⟩ := List.forall_mem_cons.mp hcs
    obtain ⟨j, hj⟩ := Option.isSome_iff_exists.mp hc
    have hcount : drawsOn k (c :: cs) = (if j = k then 1 else 0) + drawsOn k cs := by
      simp only [drawsOn, List.countP_cons, hj, Option.some.injEq, decide_eq_true_eq]
      exact Nat.add_comm _ _
    rw [calls, ih hrest, get_call_of_draws hj, hcount, Generator.advance_add]

/-- When both streams have been started from one seed and equally many words have been drawn from
each, in whatever order, they are in one state exactly if the seed is one of two. From these two
they yield the same words for ever, from every other seed they do not. -/
theorem mirror_iff (seed : UInt32) :
    (∀ n, (ofSeed seed).sim.advance n = (ofSeed seed).interactive.advance n ↔
      seed = 0 ∨ seed = 0x80000000) ∧
    (∀ (s : Streams) (cs : List StreamCall), (∀ c ∈ cs, c.drawsFrom?.isSome = true) →
      drawsOn .sim cs = drawsOn .interactive cs →
      ((s.calls (.reseed seed :: cs)).2.sim = (s.calls (.reseed seed :: cs)).2.interactive ↔
        seed = 0 ∨ seed = 0x80000000)) ∧
    ((∀ i, (ofSeed seed).sim.word i = (ofSeed seed).interactive.word i) ↔
      seed = 0 ∨ seed = 0x80000000) := by
  refine ⟨fun n => advance_ofSeed_eq_iff, fun s cs hcs hequal => ?_, ?_⟩
  · have hsim : (s.calls (.reseed seed :: cs)).2.sim =
        (ofSeed seed).sim.advance (drawsOn .sim cs) := get_calls_of_draws (k := .sim) hcs
    have hinteractive : (s.calls (.reseed seed :: cs)).2.interactive =
        (ofSeed seed).interactive.advance (drawsOn .interactive cs) :=
      get_calls_of_draws (k := .interactive) hcs
    rw [hsim, hinteractive, hequal]
    exact advance_ofSeed_eq_iff
  · have hwords : (∀ i, (ofSeed seed).sim.word i = (ofSeed seed).interactive.word i) ↔
        (ofSeed seed).sim.advance 0 = (ofSeed seed).interactive.advance 0 :=
      ⟨fun h => Generator.eq_of_words (h 0) (h 1), fun h i => congrArg (Generator.word · i) h⟩
    exact hwords.trans advance_ofSeed_eq_iff

/-- A seed of its own keeps the streams apart through draws of both kinds in any order. -/
theorem mirror_iff_apart :
    let s : Streams := .ofSeed 7
    let cs : List StreamCall :=
      [.draw .interactive, .drawBelow .sim 0, .draw .sim, .drawBelow .interactive 100]
    drawsOn .sim cs = drawsOn .interactive cs ∧
      (s.calls (.reseed 1000 :: cs)).2.sim ≠ (s.calls (.reseed 1000 :: cs)).2.interactive := by
  intro s cs
  have hequal : drawsOn .sim cs = drawsOn .interactive cs := by decide
  have hother : ¬ ((1000 : UInt32) = 0 ∨ (1000 : UInt32) = 0x80000000) := by decide
  exact ⟨hequal, fun hsame => hother (((mirror_iff 1000).2.1 s cs (by decide) hequal).mp hsame)⟩

/-- The streams are not always apart: from the seed that a game has when none is asked for they are
in one state from the start. -/
theorem not_apart_from_standard_seed : ¬ ∀ (seed : UInt32) (n : Nat),
    (ofSeed seed).sim.advance n ≠ (ofSeed seed).interactive.advance n := by
  intro happart
  have hzero : (ofSeed ({} : MapConfig).seed).sim = (ofSeed ({} : MapConfig).seed).interactive := by
    decide
  exact happart ({} : MapConfig).seed 0 hzero

end Streams

end RailGrid
