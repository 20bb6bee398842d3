import RailGrid.Random.Generator
import RailGrid.Proofs.Save.Column

/-!
# One sequence of words behind every request

The words that plain draws yield one after the other are the sequence of a generator. Every other
request is answered from the next few words of it and leaves the generator behind them, so requests
of all kinds may be mixed and stay in step. Bytes are the words laid out end to end, which is why a
buffer can be filled in parts that end between two words.
-/

namespace RailGrid

/-- Byte `j` of a sequence of words laid out end to end, the lowest byte of each word first. -/
def byteOf (s : Nat → UInt32) (j : Nat) : UInt8 := .ofNat ((s (j / 4)).toNat / 256 ^ (j % 4))

/-- Behind `k` words the bytes go on as those of the words that are left. -/
theorem byteOf_add (s : Nat → UInt32) (k j : Nat) :
    byteOf s (4 * k + j) = byteOf (fun i => s (k + i)) j := by
  rw [byteOf, byteOf, Nat.mul_add_div (by decide), Nat.mul_add_mod]

/-- The bytes of the first word. -/
theorem take_toBytes_eq_map (s : Nat → UInt32) {n : Nat} (hn : n ≤ 4) :
    (toBytes 4 (s 0).toNat).take n = (List.range n).map (byteOf s) := by
  rw [toBytes_eq_map, ← List.map_take, List.take_range, Nat.min_eq_left hn]
  refine List.map_congr_left fun j hj => ?_
  have hlt : j < 4 := Nat.lt_of_lt_of_le (List.mem_range.mp hj) hn
  rw [byteOf, Nat.div_eq_of_lt hlt, Nat.mod_eq_of_lt hlt]

namespace Generator

variable {g : Generator} {n : Nat}

/-- The word that a plain draw yields after `i` others. -/
def word (g : Generator) (i : Nat) : UInt32 := (g.advance i).draw.1

theorem word_advance (g : Generator) (n : Nat) : (g.advance n).word = fun i => g.word (n + i) := by
  funext i
  rw [word, word, advance_add]

/-! ### Single requests -/

/-- The long word has room for the product of two words. -/
theorem toNat_mul_toUInt64 (w limit : UInt32) :
    (w.toUInt64 * limit.toUInt64).toNat = w.toNat * limit.toNat := by
  have hproduct : w.toNat * limit.toNat < 2 ^ 64 :=
    calc w.toNat * limit.toNat < 2 ^ 32 * 2 ^ 32 := Nat.mul_lt_mul'' w.toNat_lt limit.toNat_lt
      _ = 2 ^ 64 := rfl
  rw [UInt64.toNat_mul, UInt32.toNat_toUInt64, UInt32.toNat_toUInt64]
  exact Nat.mod_eq_of_lt hproduct

/-- The upper half of the product is its quotient by the number of words. -/
theorem toNat_mul_shiftRight (w limit : UInt32) :
    ((w.toUInt64 * limit.toUInt64) >>> 32).toNat = w.toNat * limit.toNat / 2 ^ 32 := by
  rw [UInt64.toNat_shiftRight, toNat_mul_toUInt64, Nat.shiftRight_eq_div_pow]
  rfl

/-- The word at a relative place is the integer part of a product. -/
theorem toNat_scale (w limit : UInt32) :
    (scale w limit).toNat = w.toNat * limit.toNat / 2 ^ 32 := by
  have hquotient : w.toNat * limit.toNat / 2 ^ 32 < 2 ^ 32 :=
    Nat.div_lt_of_lt_mul (Nat.mul_lt_mul'' w.toNat_lt limit.toNat_lt)
  rw [scale, UInt64.toNat_toUInt32, toNat_mul_shiftRight]
  exact Nat.mod_eq_of_lt hquotient

/-- A long word is its two halves, the lower one drawn first. -/
theorem drawWide_eq (g : Generator) :
    g.drawWide = (.ofNat ((g.word 0).toNat + 2 ^ 32 * (g.word 1).toNat), g.advance 2) := by
  have hlow := (g.word 0).toNat_lt
  have hhigh := (g.word 1).toNat_lt
  have hvalue : g.drawWide.1 = (g.word 1).toUInt64 <<< 32 ||| (g.word 0).toUInt64 := rfl
  have hdistance : (32 : UInt64).toNat % 64 = 32 := rfl
  have hsum := Nat.shiftLeft_add_eq_or_of_lt hlow (g.word 1).toNat
  rw [Nat.shiftLeft_eq] at hsum
  have hfits : (g.word 0).toNat + 2 ^ 32 * (g.word 1).toNat < UInt64.size := by
    simp only [UInt64.size]
    omega
  refine Prod.ext (UInt64.toNat_inj.mp ?_) rfl
  rw [hvalue, UInt64.toNat_or, UInt64.toNat_shiftLeft, UInt32.toNat_toUInt64,
    UInt32.toNat_toUInt64, UInt64.toNat_ofNat_of_lt' hfits, hdistance, Nat.shiftLeft_eq,
    Nat.mod_eq_of_lt (by omega), ← hsum]
  omega

/-- Four bytes more are one word more in front. -/
theorem fill_add_four (g : Generator) (n : Nat) : g.fill (4 + n) =
    (toBytes 4 (g.word 0).toNat ++ ((g.advance 1).fill n).1, ((g.advance 1).fill n).2) := by
  have hstretches : stretches (4 + n) = 4 :: stretches n := by
    rw [stretches, stretches, Nat.add_div_left n (by decide), Nat.add_mod_left,
      List.replicate_succ, List.cons_append]
  have htake : (toBytes 4 (g.word 0).toNat).take 4 = toBytes 4 (g.word 0).toNat :=
    List.take_of_length_le (Nat.le_of_eq length_toBytes)
  rw [← htake, fill, hstretches]
  rfl

/-- Less than a word is taken from one word, and nothing from none. -/
theorem fill_of_lt (hn : n < 4) : g.fill n =
    ((toBytes 4 (g.word 0).toNat).take n, g.advance ((n + 3) / 4)) := by
  by_cases hzero : n = 0
  · subst hzero
    rfl
  · have hstretches : stretches n = [n] := by
      rw [stretches, Nat.div_eq_of_lt hn, Nat.mod_eq_of_lt hn, if_neg hzero]
      rfl
    have hone : (n + 3) / 4 = 1 := by omega
    rw [fill, hstretches, hone]
    simp only [fillStretches, fillStretch, List.append_nil]
    rfl

/-- A buffer is filled with the bytes of the sequence, and every word that was begun is used up. -/
theorem fill_eq (g : Generator) (n : Nat) :
    g.fill n = ((List.range n).map (byteOf g.word), g.advance ((n + 3) / 4)) := by
  -- by whole words: the first four bytes are the first word, the others a shorter fill one word on
  induction n using Nat.strongRecOn generalizing g with
  | ind n ih =>
    rcases Nat.lt_or_ge n 4 with hn | hn
    · rw [fill_of_lt hn, take_toBytes_eq_map g.word (Nat.le_of_lt hn)]
    · obtain ⟨k, rfl⟩ := Nat.exists_eq_add_of_le hn
      have hfirst := take_toBytes_eq_map g.word (Nat.le_refl 4)
      rw [List.take_of_length_le (Nat.le_of_eq length_toBytes)] at hfirst
      have hrest : byteOf (g.advance 1).word = fun j => byteOf g.word (4 + j) := by
        funext j
        rw [word_advance, ← byteOf_add, Nat.mul_one]
      have hwords : 1 + (k + 3) / 4 = (4 + k + 3) / 4 := by omega
      rw [fill_add_four, ih k (by omega), hfirst, hrest, ← advance_add, hwords, List.range_add,
        List.map_append, List.map_map]
      rfl

/-- A long word has the eight bytes that would be filled in its place. -/
theorem drawWide_eq_fill (g : Generator) :
    g.drawWide = (.ofNat (ofBytes (g.fill 8).1), (g.fill 8).2) := by
  have hlow : ofBytes (toBytes 4 (g.word 0).toNat) = (g.word 0).toNat :=
    ofBytes_toBytes (g.word 0).toNat_lt
  have hhigh : ofBytes (toBytes 4 (g.word 1).toNat) = (g.word 1).toNat :=
    ofBytes_toBytes (g.word 1).toNat_lt
  have hnext : (g.advance 1).word 0 = g.word 1 := by rw [word_advance]
  have hlast : (g.advance 1).fill 4 = (toBytes 4 (g.word 1).toNat, g.advance 2) := by
    rw [fill_add_four _ 0, hnext, fill_of_lt (by decide), List.take_zero, List.append_nil]
    rfl
  have hfill : g.fill 8 =
      (toBytes 4 (g.word 0).toNat ++ toBytes 4 (g.word 1).toNat, g.advance 2) := by
    rw [fill_add_four g 4, hlast]
  rw [drawWide_eq, hfill, ofBytes_append, hlow, hhigh, length_toBytes]
  rfl

/-- A buffer can be filled in two parts, of which the first is whole words. -/
theorem fill_add (g : Generator) (k b : Nat) : g.fill (4 * k + b) =
    ((g.fill (4 * k)).1 ++ ((g.fill (4 * k)).2.fill b).1, ((g.fill (4 * k)).2.fill b).2) := by
  have hwords : (4 * k + 3) / 4 = k := by omega
  have hsum : k + (b + 3) / 4 = (4 * k + b + 3) / 4 := by omega
  have hrest : byteOf (g.advance k).word = fun j => byteOf g.word (4 * k + j) := by
    funext j
    rw [word_advance, ← byteOf_add]
  simp only [fill_eq, hwords, hrest, ← advance_add, hsum, List.range_add, List.map_append,
    List.map_map]
  rfl

/-! ### Sequences of requests -/

/-- A request to a generator. -/
inductive Request where
  /-- One word. -/
  | draw
  /-- One word, as any source of randomness is asked for it. -/
  | word32
  /-- A number below a limit. -/
  | drawBelow (limit : UInt32)
  /-- A long word. -/
  | word64
  /-- A number of bytes. -/
  | fill (n : Nat)
  /-- A number of bytes, from a source that may not have them. -/
  | tryFill (n : Nat)
  deriving DecidableEq, Repr

/-- What a request yields. -/
inductive Answer where
  /-- A word. -/
  | word (w : UInt32)
  /-- A long word. -/
  | wide (w : UInt64)
  /-- Bytes. -/
  | bytes (bs : List UInt8)
  /-- Bytes, or the lack of them. -/
  | attempt (bs : Option (List UInt8))
  deriving DecidableEq, Repr

namespace Request

/-- The answer of a generator, and the generator it leaves. -/
def ask (g : Generator) : Request → Answer × Generator
  | draw | word32 => (.word g.draw.1, g.draw.2)
  | drawBelow limit => (.word (g.drawBelow limit).1, (g.drawBelow limit).2)
  | word64 => (.wide g.drawWide.1, g.drawWide.2)
  | fill n => (.bytes (g.fill n).1, (g.fill n).2)
  | tryFill n => (.attempt (some (g.fill n).1), (g.fill n).2)

/-- The number of words that a reader needs for its answer. -/
def words : Request → Nat
  | draw | word32 | drawBelow _ => 1
  | word64 => 2
  | fill n | tryFill n => (n + 3) / 4

/-- The number of words that a reader needs for all of its answers. -/
def wordsAll : List Request → Nat
  | [] => 0
  | r :: rs => r.words + wordsAll rs

/-- The answer of a reader to whom the words of a sequence are given. -/
def read (s : Nat → UInt32) : Request → Answer
  | draw | word32 => .word (s 0)
  | drawBelow limit => .word (.ofNat ((s 0).toNat * limit.toNat / 2 ^ 32))
  | word64 => .wide (.ofNat ((s 0).toNat + 2 ^ 32 * (s 1).toNat))
  | fill n => .bytes ((List.range n).map (byteOf s))
  | tryFill n => .attempt (some ((List.range n).map (byteOf s)))

/-- The answers of a reader that takes the words of a sequence in order. -/
def readAll (s : Nat → UInt32) : List Request → List Answer
  | [] => []
  | r :: rs => r.read s :: readAll (fun i => s (r.words + i)) rs

/-- A generator answers from its sequence and is left behind the words it needed. -/
theorem ask_eq (g : Generator) (r : Request) : r.ask g = (r.read g.word, g.advance r.words) := by
  cases r with
  | draw => rfl
  | word32 => rfl
  | drawBelow limit =>
    have hscale : scale (g.word 0) limit = .ofNat ((g.word 0).toNat * limit.toNat / 2 ^ 32) := by
      rw [← toNat_scale, UInt32.ofNat_toNat]
    rw [read, ← hscale]
    rfl
  | word64 => rw [ask, drawWide_eq, read, words]
  | fill n => rw [ask, fill_eq, read, words]
  | tryFill n => rw [ask, fill_eq, read, words]

end Request

/-- The answers to requests one after the other, and the generator they leave. -/
def askAll (g : Generator) : List Request → List Answer × Generator
  | [] => ([], g)
  | r :: rs => ((r.ask g).1 :: ((r.ask g).2.askAll rs).1, ((r.ask g).2.askAll rs).2)

/-- A generator answers like a reader of its sequence of words, and is left as far along. -/
theorem askAll_eq (g : Generator) (rs : List Request) :
    g.askAll rs = (Request.readAll g.word rs, g.advance (Request.wordsAll rs)) := by
  induction rs generalizing g with
  | nil => rfl
  | cons r rs ih =>
    rw [askAll, Request.ask_eq, ih, Request.readAll, word_advance, ← advance_add,
      Request.wordsAll]

/-- Whatever mixture of requests is made, a generator answers like a reader of its sequence of words
and is left as far along as that reader. So a long word has the eight bytes that would be filled in
its place, and a buffer may be filled in two parts, of which the first is whole words. -/
theorem askAll_eq_readAll (g : Generator) :
    (∀ rs : List Request,
      g.askAll rs = (Request.readAll g.word rs, g.advance (Request.wordsAll rs))) ∧
    g.drawWide = (.ofNat (ofBytes (g.fill 8).1), (g.fill 8).2) ∧
    ∀ k b : Nat, g.fill (4 * k + b) =
      ((g.fill (4 * k)).1 ++ ((g.fill (4 * k)).2.fill b).1, ((g.fill (4 * k)).2.fill b).2) :=
  ⟨askAll_eq g, drawWide_eq_fill g, fill_add g⟩

end Generator

end RailGrid
