import RailGrid.Proofs.Random.Permutation
import RailGrid.Proofs.Random.Requests

/-!
# Two words tell the state

A draw shows one word of the state and keeps the other one back, but the word that is kept back is
what the next draw shows, rotated. So a state can be computed from the two words it yields next, and
every pair of words is yielded by one state. Sequences that agree in two consecutive words, wherever
these stand in either of them, therefore agree in all the words that follow.
-/

namespace RailGrid.Generator

variable {a b g : Generator} {x low high : UInt32} {i j n : Nat}

/-- There being finitely many words, rotations undo each other on both sides. -/
theorem rotateRight_rotateLeft (hn : n < 32) : rotateRight (rotateLeft x n) n = x := by
  have hundo : Function.LeftInverse (rotateLeft · n) (rotateRight · n) :=
    fun _ => rotateLeft_rotateRight hn
  exact hundo.rightInverse_of_surjective (Finite.injective_iff_surjective.mp hundo.injective) x

/-! ### The state behind two words -/

/-- The state that yields the two words next: the second one, rotated back, is the word that the
state between the two draws keeps back. -/
def ofWords (low high : UInt32) : Generator :=
  previous { first := rotateLeft (high + 1) 3, second := low }

theorem next_ofWords (low high : UInt32) :
    (ofWords low high).next = { first := rotateLeft (high + 1) 3, second := low } :=
  next_previous _

theorem word_zero_ofWords (low high : UInt32) : (ofWords low high).word 0 = low :=
  congrArg second (next_ofWords low high)

theorem word_one_ofWords (low high : UInt32) : (ofWords low high).word 1 = high := by
  have hword : (ofWords low high).word 1 = rotateRight (ofWords low high).next.first 3 - 1 := rfl
  rw [hword, next_ofWords, rotateRight_rotateLeft (by decide), UInt32.add_sub_cancel]

/-- A state is found again in its next two words. -/
theorem ofWords_word (g : Generator) : ofWords (g.word 0) (g.word 1) = g := by
  have hfirst : rotateLeft (g.word 1 + 1) 3 = g.next.first := by
    have hword : g.word 1 = rotateRight g.next.first 3 - 1 := rfl
    rw [hword, UInt32.sub_add_cancel, rotateLeft_rotateRight (by decide)]
  have hsecond : g.word 0 = g.next.second := rfl
  rw [ofWords, hfirst, hsecond]
  exact previous_next g

/-- States with the same next two words are the same. -/
theorem eq_of_words (hlow : a.word 0 = b.word 0) (hhigh : a.word 1 = b.word 1) : a = b := by
  rw [← ofWords_word a, hlow, hhigh, ofWords_word]

/-- Where two sequences show the same two words, their generators are in one state. -/
theorem advance_eq_of_words (hlow : a.word i = b.word j) (hhigh : a.word (i + 1) = b.word (j + 1)) :
    a.advance i = b.advance j := by
  apply eq_of_words
  · simpa only [word_advance, Nat.add_zero] using hlow
  · simpa only [word_advance] using hhigh

/-! ### Long words -/

/-- The number of a long word has the two words as its digits. -/
theorem toNat_drawWide (g : Generator) :
    g.drawWide.1.toNat = (g.word 0).toNat + 2 ^ 32 * (g.word 1).toNat := by
  have hlow := (g.word 0).toNat_lt
  have hhigh := (g.word 1).toNat_lt
  rw [drawWide_eq]
  apply UInt64.toNat_ofNat_of_lt'
  simp only [UInt64.size]
  omega

theorem drawWide_injective : Function.Injective fun g : Generator => g.drawWide.1 := by
  intro a b heq
  have hsum := congrArg UInt64.toNat heq
  simp only [toNat_drawWide] at hsum
  have hlow := (a.word 0).toNat_lt
  have hlow' := (b.word 0).toNat_lt
  exact eq_of_words (UInt32.toNat_inj.mp (by omega)) (UInt32.toNat_inj.mp (by omega))

theorem drawWide_surjective : Function.Surjective fun g : Generator => g.drawWide.1 := by
  intro w
  have hhigh : w.toNat / 2 ^ 32 < UInt32.size := Nat.div_lt_of_lt_mul w.toNat_lt
  have hlow : w.toNat % 2 ^ 32 < UInt32.size := Nat.mod_lt _ (by decide)
  refine ⟨ofWords (.ofNat (w.toNat % 2 ^ 32)) (.ofNat (w.toNat / 2 ^ 32)),
    UInt64.toNat_inj.mp ?_⟩
  simp only [toNat_drawWide, word_zero_ofWords, word_one_ofWords,
    UInt32.toNat_ofNat_of_lt' hlow, UInt32.toNat_ofNat_of_lt' hhigh]
  exact Nat.mod_add_div _ _

/-- Two consecutive draws identify the generator: the state is computed from them, every pair of
words comes from one state, and so does every long word. Generators that show the same two words
one after the other, after however many draws each, are in one state there and draw the same words
ever after. -/
theorem state_of_words :
    (∀ a b : Generator, a.draw.1 = b.draw.1 → a.draw.2.draw.1 = b.draw.2.draw.1 → a = b) ∧
    (∀ g : Generator, ofWords (g.word 0) (g.word 1) = g) ∧
    (∀ low high : UInt32,
      (ofWords low high).word 0 = low ∧ (ofWords low high).word 1 = high) ∧
    Function.Bijective (fun g : Generator => g.drawWide.1) ∧
    ∀ (a b : Generator) (i j : Nat),
      a.word i = b.word j → a.word (i + 1) = b.word (j + 1) →
      a.advance i = b.advance j ∧ ∀ k, a.word (i + k) = b.word (j + k) := by
  refine ⟨fun a b hlow hhigh => eq_of_words hlow hhigh, ofWords_word,
    fun low high => ⟨word_zero_ofWords low high, word_one_ofWords low high⟩,
    ⟨drawWide_injective, drawWide_surjective⟩, fun a b i j hlow hhigh => ?_⟩
  have hstate := advance_eq_of_words hlow hhigh
  refine ⟨hstate, fun k => ?_⟩
  have hwords := congrFun (congrArg word hstate) k
  rwa [word_advance, word_advance] at hwords

/-- A player who drew three words before, and one who took up a saved state, find by comparing two
words that they are in step. -/
theorem state_of_words_rejoined :
    let a : Generator := .ofSeed 12345
    let b : Generator := ⟨0x8C249906, 0x20000606⟩
    a.word 3 = b.word 2 ∧ a.word 4 = b.word 3 ∧
      a.advance 3 = b.advance 2 ∧ ∀ k, a.word (3 + k) = b.word (2 + k) := by
  intro a b
  have hlow : a.word 3 = b.word 2 := by decide
  have hhigh : a.word 4 = b.word 3 := by decide
  exact ⟨hlow, hhigh, state_of_words.2.2.2.2 a b 3 2 hlow hhigh⟩

end RailGrid.Generator
