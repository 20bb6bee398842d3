import RailGrid.Random.Entropy
import RailGrid.Proofs.Random.Requests
import RailGrid.Proofs.Random.Separation

/-!
# Buffers are filled in any case

A request for unpredictable bytes that its source can serve leaves the generator alone. One that the
source gives up, with whatever it has written by then, is served from the clock and the generator,
one word for each byte. How long the buffers of the requests given up are is therefore all that the
generator has to show of a sequence of requests.
-/

namespace RailGrid

/-- How a source is reached. -/
inductive FillRoute where
  /-- The caller names the source. -/
  | direct
  /-- The source is the one of the game. -/
  | game
  deriving DecidableEq, Repr

/-- A request for unpredictable bytes. -/
structure FillRequest where
  /-- The source, as it is at the time of the request. -/
  source : EntropySource
  /-- How the source is reached. -/
  route : FillRoute
  /-- What takes the place of the source if it fails. -/
  fallback : Fallback
  /-- What the buffer holds before. -/
  buffer : List UInt8

namespace Fallback

/-- Each byte comes from its own reading of the clock and its own word, and from nothing that was in
the buffer. -/
theorem fill_eq (f : Fallback) (i : Nat) (buf : List UInt8) (g : Generator) :
    f.fill i buf g =
      ((List.range buf.length).map fun k => f.byte (i + k) (g.word k), g.advance buf.length) := by
  -- the words and the readings of the bytes behind the first are counted from one further on
  induction buf generalizing i g with
  | nil => rfl
  | cons b buf ih =>
    have hword : (Streams.interactiveWord g).2.word = fun k => g.word (k + 1) := by
      funext k
      rw [Nat.add_comm]
      exact congrFun (g.word_advance 1) k
    have hstate : (Streams.interactiveWord g).2.advance buf.length = g.advance (buf.length + 1) :=
      g.next_advance _
    rw [fill]
    simp only [ih, hword, hstate, List.length_cons, List.range_succ_eq_map, List.map_cons,
      List.map_map]
    congr 3
    funext k
    rw [Function.comp, Nat.succ_eq_add_one, Nat.add_assoc, Nat.add_comm 1 k]

end Fallback

namespace FillRequest

variable {q r : FillRequest} {g : Generator}

/-- The source gives the request up. -/
def Fails (q : FillRequest) : Prop := (q.source.fill q.buffer).1 = false

instance (q : FillRequest) : Decidable q.Fails := inferInstanceAs (Decidable (_ = _))

/-- The buffer after a request, and the generator it leaves. -/
def ask (g : Generator) (q : FillRequest) : FilledBuffer × Generator :=
  match q.route with
  | .direct => q.source.fillOr q.fallback q.buffer g
  | .game => (Entropy.mk q.source).fill q.fallback q.buffer g

/-- The number of words that are drawn. -/
def words (q : FillRequest) : Nat := if q.Fails then q.buffer.length else 0

/-- The number of words that are drawn for all of the requests. -/
def wordsAll : List FillRequest → Nat
  | [] => 0
  | q :: qs => q.words + wordsAll qs

/-- The bytes that the words of a sequence make at the readings of the clock. -/
def mixed (s : Nat → UInt32) (q : FillRequest) : List UInt8 :=
  (List.range q.buffer.length).map fun i => q.fallback.byte i (s i)

/-- The buffer of a reader to whom the words of a sequence are given. -/
def read (s : Nat → UInt32) (q : FillRequest) : FilledBuffer :=
  if q.Fails then ⟨q.mixed s, true⟩ else ⟨(q.source.fill q.buffer).2, false⟩

/-- The buffers of a reader that takes the words of a sequence in order. -/
def readAll (s : Nat → UInt32) : List FillRequest → List FilledBuffer
  | [] => []
  | q :: qs => q.read s :: readAll (fun i => s (q.words + i)) qs

theorem read_of_fails (hq : q.Fails) (s : Nat → UInt32) : q.read s = ⟨q.mixed s, true⟩ := if_pos hq

theorem read_of_not_fails (hq : ¬ q.Fails) (s : Nat → UInt32) :
    q.read s = ⟨(q.source.fill q.buffer).2, false⟩ := if_neg hq

theorem words_of_fails (hq : q.Fails) : q.words = q.buffer.length := if_pos hq

theorem words_of_not_fails (hq : ¬ q.Fails) : q.words = 0 := if_neg hq

/-- The route makes no difference. -/
theorem ask_eq_fillOr (g : Generator) (q : FillRequest) :
    q.ask g = q.source.fillOr q.fallback q.buffer g := by
  unfold ask
  cases q.route <;> rfl

/-- A request is served like a reader of the sequence of words, and leaves the generator behind the
words that were needed. -/
theorem ask_eq (g : Generator) (q : FillRequest) :
    q.ask g = (q.read g.word, g.advance q.words) := by
  have hlength := q.source.length_fill q.buffer
  rw [ask_eq_fillOr, EntropySource.fillOr]
  rcases hfill : q.source.fill q.buffer with ⟨_ | _, bs⟩
  · have hq : q.Fails := congrArg Prod.fst hfill
    rw [hfill] at hlength
    rw [read_of_fails hq, words_of_fails hq, mixed, ← hlength]
    simp only [Fallback.fill_eq, Nat.zero_add]
  · have hq : ¬ q.Fails := by simp [Fails, hfill]
    rw [read_of_not_fails hq, words_of_not_fails hq, hfill]
    rfl

/-- A buffer keeps its length. -/
theorem length_bytes_read (s : Nat → UInt32) (q : FillRequest) :
    (q.read s).bytes.length = q.buffer.length := by
  by_cases hq : q.Fails
  · rw [read_of_fails hq, mixed, List.length_map, List.length_range]
  · rw [read_of_not_fails hq, q.source.length_fill]

theorem map_length_readAll (s : Nat → UInt32) (qs : List FillRequest) :
    (readAll s qs).map (·.bytes.length) = qs.map (·.buffer.length) := by
  induction qs generalizing s with
  | nil => rfl
  | cons q qs ih => rw [readAll, List.map_cons, List.map_cons, length_bytes_read, ih]

/-- Requests that are all given up need as many words as all of their buffers hold bytes. -/
theorem wordsAll_of_forall_fails {qs : List FillRequest} (hqs : ∀ q ∈ qs, q.Fails) :
    wordsAll qs = (qs.flatMap buffer).length := by
  induction qs with
  | nil => rfl
  | cons q qs ih =>
    rw [wordsAll, words_of_fails (hqs q List.mem_cons_self),
      ih fun r hr => hqs r (List.mem_cons_of_mem q hr), List.flatMap_cons, List.length_append]

end FillRequest

namespace Generator

/-- The buffers after requests one after the other, and the generator they leave. -/
def fillAll (g : Generator) : List FillRequest → List FilledBuffer × Generator
  | [] => ([], g)
  | q :: qs => ((q.ask g).1 :: ((q.ask g).2.fillAll qs).1, ((q.ask g).2.fillAll qs).2)

/-- Requests are served like a reader of the sequence of words, and leave the generator as far
along. -/
theorem fillAll_eq (g : Generator) (qs : List FillRequest) :
    g.fillAll qs = (FillRequest.readAll g.word qs, g.advance (FillRequest.wordsAll qs)) := by
  induction qs generalizing g with
  | nil => rfl
  | cons q qs ih =>
    rw [fillAll, FillRequest.ask_eq, ih, FillRequest.readAll, word_advance, ← advance_add,
      FillRequest.wordsAll]

/-- A request that its source serves leaves the buffer as the source wrote it and the generator
alone; one that is given up makes byte `i` from reading `i` of the clock and word `i`, whatever the
source wrote, and draws one word for each byte. In a sequence of requests each is served from where
the ones before it left the generator, no buffer changes its length, and the generator is left
behind as many words as the buffers of the requests given up are long, however these are cut. -/
theorem fillAll_eq_readAll (g : Generator) :
    (∀ q : FillRequest, ¬ q.Fails → q.ask g = (⟨(q.source.fill q.buffer).2, false⟩, g)) ∧
    (∀ q : FillRequest, q.Fails → q.ask g =
      (⟨(List.range q.buffer.length).map fun i => q.fallback.byte i (g.word i), true⟩,
        g.advance q.buffer.length)) ∧
    (∀ q r : FillRequest, q.Fails → r.Fails → q.fallback = r.fallback →
      q.buffer.length = r.buffer.length → q.ask g = r.ask g) ∧
    (∀ qs : List FillRequest,
      g.fillAll qs = (FillRequest.readAll g.word qs, g.advance (FillRequest.wordsAll qs)) ∧
      (g.fillAll qs).1.map (·.bytes.length) = qs.map (·.buffer.length)) ∧
    ∀ (q : FillRequest) (qs : List FillRequest), q.Fails → (∀ r ∈ qs, r.Fails) →
      qs.flatMap FillRequest.buffer = q.buffer → (g.fillAll qs).2 = (q.ask g).2 := by
  have hserved : ∀ q : FillRequest, ¬ q.Fails →
      q.ask g = (⟨(q.source.fill q.buffer).2, false⟩, g) := fun q hq => by
    rw [FillRequest.ask_eq, FillRequest.read_of_not_fails hq, FillRequest.words_of_not_fails hq,
      advance_zero]
  have hmixed : ∀ q : FillRequest, q.Fails →
      q.ask g = (⟨q.mixed g.word, true⟩, g.advance q.buffer.length) := fun q hq => by
    rw [FillRequest.ask_eq, FillRequest.read_of_fails hq, FillRequest.words_of_fails hq]
  refine ⟨hserved, hmixed, fun q r hq hr hfallback hlength => ?_, fun qs => ⟨fillAll_eq g qs, ?_⟩,
    fun q qs hq hqs hbuffer => ?_⟩
  · rw [hmixed q hq, hmixed r hr, FillRequest.mixed, FillRequest.mixed, hfallback, hlength]
  · rw [fillAll_eq, FillRequest.map_length_readAll]
  · rw [hmixed q hq, fillAll_eq, FillRequest.wordsAll_of_forall_fails hqs, hbuffer]

/-- A source that writes and gives up is as good as none, also where its buffer is cut in three and
requests that are served come before and after. -/
theorem fillAll_eq_readAll_cut :
    let f : Fallback := { clock := fun i => .ofNat (1000 + 40 * i), digest := Streams.xxHash }
    let broken : EntropySource := .constant 0xA5 false
    let q : FillRequest := ⟨broken, .game, f, [1, 2, 3]⟩
    let r : FillRequest := ⟨.unavailable, .direct, f, [7, 8, 9]⟩
    let served : FillRequest := ⟨.constant 0xA5 true, .game, f, [4, 5]⟩
    let cut : List FillRequest :=
      [⟨broken, .direct, f, [1]⟩, ⟨.unavailable, .game, f, []⟩, ⟨broken, .game, f, [2, 3]⟩]
    let g : Generator := .ofSeed 2
    q.Fails ∧ r.Fails ∧ ¬ served.Fails ∧ (∀ q ∈ cut, q.Fails) ∧
      served.ask g = (⟨[0xA5, 0xA5], false⟩, g) ∧
      q.ask g = r.ask g ∧ q.ask g = (⟨[251, 15, 168], true⟩, g.advance 3) ∧
      (g.fillAll cut).2 = g.advance 3 ∧
      (g.fillAll (served :: cut ++ [served, r])).2 = g.advance 6 := by
  intro f broken q r served cut g
  obtain ⟨hserved, hmixed, hcongr, hall, hcut⟩ := fillAll_eq_readAll g
  have hq : q.Fails := rfl
  have hcutFails : ∀ q ∈ cut, q.Fails := by decide
  have hask : q.ask g = (⟨[251, 15, 168], true⟩, g.advance 3) := (hmixed q hq).trans (by decide)
  refine ⟨hq, rfl, by decide, hcutFails, hserved served (by decide), hcongr q r hq rfl rfl rfl,
    hask, (hcut q cut hq hcutFails rfl).trans (congrArg Prod.snd hask), ?_⟩
  rw [(hall _).1]
  rfl

end Generator

end RailGrid
