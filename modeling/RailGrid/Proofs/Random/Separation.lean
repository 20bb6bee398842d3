import RailGrid.Random.Entropy
import RailGrid.Random.Streams
import RailGrid.World.Basic

/-!
# The two streams do not disturb each other

Every call on the streams of a game looks at one of them and writes to it, except for the reseeding,
which overwrites both with what depends on the seed alone; bytes that no source could give are drawn
from the interactive stream. The calls that concern one stream are therefore answered, and leave it,
as if the others had not been made, and players who make the same calls on the simulation stream see
the same there, whatever each of them does beside.
-/

namespace RailGrid

open Save

/-- One of the two streams of a game. -/
inductive StreamKind where
  /-- What players must agree on is drawn from it. -/
  | sim
  /-- What only one of them sees is drawn from it. -/
  | interactive
  deriving DecidableEq, Repr

namespace StreamKind

/-- How the generator of a stream is saved. -/
def saveable : StreamKind → Saveable Generator
  | sim => Resource.sim.saveable
  | interactive => Resource.interactive.saveable

/-- The request of a stream for a word. -/
def word : StreamKind → Generator → UInt32 × Generator
  | sim => Streams.simWord
  | interactive => Streams.interactiveWord

/-- The request of a stream for a number below a limit. -/
def below (limit : UInt32) : StreamKind → Generator → UInt32 × Generator
  | sim => Streams.simBelow limit
  | interactive => Streams.interactiveBelow limit

end StreamKind

/-- A call on the streams of a game. -/
inductive StreamCall where
  /-- Draws a word. -/
  | draw (k : StreamKind)
  /-- Draws a number below a limit. -/
  | drawBelow (k : StreamKind) (limit : UInt32)
  /-- Fills a buffer from a source, or from the clock and the interactive stream. -/
  | fill (source : EntropySource) (f : Fallback) (buf : List UInt8)
  /-- Replaces a stream by the one that the bytes stand for. -/
  | load (k : StreamKind) (bs : Bytes)
  /-- Starts both streams from a seed. -/
  | reseed (seed : UInt32)

/-- The call looks at the stream or writes to it. -/
def StreamCall.Concerns (k : StreamKind) : StreamCall → Prop
  | draw j | drawBelow j _ | load j _ => j = k
  | fill .. => k = .interactive
  | reseed _ => True

instance (k : StreamKind) : (c : StreamCall) → Decidable (c.Concerns k)
  | .draw j | .drawBelow j _ | .load j _ => inferInstanceAs (Decidable (j = k))
  | .fill .. => inferInstanceAs (Decidable (k = .interactive))
  | .reseed _ => inferInstanceAs (Decidable True)

/-- What a call on the streams yields. -/
inductive StreamAnswer where
  /-- A drawn number. -/
  | number (word : UInt32)
  /-- A filled buffer. -/
  | buffer (filled : FilledBuffer)
  /-- What there is to say about a load. -/
  | notices (notices : List Notice)
  /-- Nothing. -/
  | done
  deriving DecidableEq

namespace Streams

/-- The generator of a stream. -/
def get (s : Streams) : StreamKind → Generator
  | .sim => s.sim
  | .interactive => s.interactive

/-- The streams with the generator of one replaced. -/
def set (s : Streams) (g : Generator) : StreamKind → Streams
  | .sim => { s with sim := g }
  | .interactive => { s with interactive := g }

/-- Makes a call: its answer and the streams it leaves. -/
def call (s : Streams) : StreamCall → StreamAnswer × Streams
  | .draw k =>
    let (word, g) := k.word (s.get k)
    (.number word, s.set g k)
  | .drawBelow k limit =>
    let (number, g) := k.below limit (s.get k)
    (.number number, s.set g k)
  | .fill source f buf =>
    let (filled, g) := source.fillOr f buf s.interactive
    (.buffer filled, { s with interactive := g })
  | .load k bs =>
    let (g, notices) := k.saveable.load bs
    (.notices notices, s.set g k)
  | .reseed seed => (.done, .ofSeed seed)

/-- Makes the calls in order: the answer to each, and the streams they leave. -/
def calls (s : Streams) : List StreamCall → List StreamAnswer × Streams
  | [] => ([], s)
  | c :: cs => ((s.call c).1 :: ((s.call c).2.calls cs).1, ((s.call c).2.calls cs).2)

/-- The answers to those of the calls that concern a stream. -/
def answersOn (s : Streams) (k : StreamKind) (cs : List StreamCall) : List StreamAnswer :=
  ((cs.zip (s.calls cs).1).filter (·.1.Concerns k)).map (·.2)

variable {s t : Streams} {g : Generator} {j k : StreamKind} {c : StreamCall} {cs : List StreamCall}

@[simp] theorem get_set_self : (s.set g k).get k = g := by
  cases k <;> rfl

theorem get_set_of_ne (hne : j ≠ k) : (s.set g j).get k = s.get k := by
  cases j <;> cases k <;> first | rfl | exact absurd rfl hne

theorem answersOn_cons_of_concerns (hc : c.Concerns k) :
    s.answersOn k (c :: cs) = (s.call c).1 :: (s.call c).2.answersOn k cs := by
  simp [answersOn, calls, hc]

theorem answersOn_cons_of_not_concerns (hc : ¬ c.Concerns k) :
    s.answersOn k (c :: cs) = (s.call c).2.answersOn k cs := by
  simp [answersOn, calls, hc]

/-! ### Single calls -/

/-- A call leaves a stream alone that it does not concern. -/
theorem get_call_of_not_concerns (hc : ¬ c.Concerns k) : (s.call c).2.get k = s.get k := by
  cases c with
  | draw j => exact get_set_of_ne hc
  | drawBelow j limit => exact get_set_of_ne hc
  | fill source f buf =>
    cases k with
    | sim => rfl
    | interactive => exact absurd rfl hc
  | load j bs => exact get_set_of_ne hc
  | reseed seed => exact absurd trivial hc

/-- A call that concerns a stream depends on nothing but this stream, in its answer and in what it
leaves there. -/
theorem call_congr (hc : c.Concerns k) (h : s.get k = t.get k) :
    (s.call c).1 = (t.call c).1 ∧ (s.call c).2.get k = (t.call c).2.get k := by
  cases c with
  | draw j =>
    cases hc
    simp only [call, h, get_set_self, and_self]
  | drawBelow j limit =>
    cases hc
    simp only [call, h, get_set_self, and_self]
  | fill source f buf =>
    cases hc
    have hsame : s.interactive = t.interactive := h
    simp only [call, hsame, get, and_self]
  | load j bs =>
    cases hc
    simp only [call, get_set_self, and_self]
  | reseed seed => exact ⟨rfl, rfl⟩

/-! ### Runs -/

/-- A run and the run of the calls that concern one stream, from pairs that agree on this stream, give
the same answers there and leave it the same. -/
theorem calls_filter_of_get_eq (cs : List StreamCall) (h : s.get k = t.get k) :
    s.answersOn k cs = (t.calls (cs.filter (·.Concerns k))).1 ∧
      (s.calls cs).2.get k = (t.calls (cs.filter (·.Concerns k))).2.get k := by
  -- the pairs agree on the stream throughout: both move with a call that concerns it, one of them
  -- alone with another call, which does not reach the stream
  induction cs generalizing s t with
  | nil => exact ⟨rfl, h⟩
  | cons c cs ih =>
    by_cases hc : c.Concerns k
    · obtain ⟨hanswer, hleft⟩ := call_congr hc h
      obtain ⟨hanswers, hfinal⟩ := ih hleft
      rw [List.filter_cons_of_pos (by simpa using hc), answersOn_cons_of_concerns hc, hanswer,
        hanswers]
      exact ⟨rfl, hfinal⟩
    · have hleft : (s.call c).2.get k = t.get k := (get_call_of_not_concerns hc).trans h
      rw [List.filter_cons_of_neg (by simpa using hc), answersOn_cons_of_not_concerns hc]
      exact ih hleft

/-- The answers to the calls that concern one stream, and the stream in the end, are those of the run
without the other calls. So two runs from pairs that agree on the stream, with the same calls that
concern it, agree on these answers and on the stream in the end, whatever else they do. -/
theorem calls_separate (k : StreamKind) :
    (∀ (s : Streams) (cs : List StreamCall),
      s.answersOn k cs = (s.calls (cs.filter (·.Concerns k))).1 ∧
        (s.calls cs).2.get k = (s.calls (cs.filter (·.Concerns k))).2.get k) ∧
    ∀ (s t : Streams) (cs ds : List StreamCall), s.get k = t.get k →
      cs.filter (·.Concerns k) = ds.filter (·.Concerns k) →
      s.answersOn k cs = t.answersOn k ds ∧ (s.calls cs).2.get k = (t.calls ds).2.get k := by
  refine ⟨fun s cs => calls_filter_of_get_eq cs rfl, fun s t cs ds h hcalls => ?_⟩
  obtain ⟨hanswers, hfinal⟩ := calls_filter_of_get_eq cs h
  obtain ⟨hanswers', hfinal'⟩ := calls_filter_of_get_eq (s := t) (t := t) (k := k) ds rfl
  rw [hanswers, hfinal, hcalls, hanswers', hfinal']
  exact ⟨rfl, rfl⟩

/-- The 64-bit xxHash of the eight bytes of a word, from seed zero. -/
def xxHash (w : UInt64) : UInt64 :=
  let rotateLeft (x n : UInt64) : UInt64 := x <<< n ||| x >>> (64 - n)
  let mixed := rotateLeft (w * 0xC2B2AE3D27D4EB4F) 31 * 0x9E3779B185EBCA87
  let h := rotateLeft ((0x27D4EB2F165667C5 + 8) ^^^ mixed) 27 * 0x9E3779B185EBCA87 +
    0x85EBCA77C2B2AE63
  let h := (h ^^^ h >>> 33) * 0xC2B2AE3D27D4EB4F
  let h := (h ^^^ h >>> 29) * 0x165667B19E3779F9
  h ^^^ h >>> 32

/-- Two players who start from one seed draw the same on the simulation stream, although one of them
has no source of bytes and loads an interactive stream that cannot be read, and the other one draws
from it out of turn. -/
theorem calls_separate_players :
    let fallback : Fallback := { clock := fun i => .ofNat (1000 + 40 * i), digest := xxHash }
    let s : Streams := .ofSeed 12345
    let t : Streams := { s with interactive := .ofSeed 1 }
    let cs : List StreamCall := [.draw .sim, .fill .unavailable fallback [0, 0, 0],
      .load .interactive [0xFF], .drawBelow .sim 100, .reseed 0, .draw .interactive, .draw .sim]
    let ds : List StreamCall := [.draw .interactive, .draw .sim, .drawBelow .interactive 0,
      .drawBelow .sim 100, .fill (.constant 0xA5 true) fallback [0], .reseed 0, .draw .sim]
    s.get .sim = t.get .sim ∧
      cs.filter (·.Concerns .sim) = ds.filter (·.Concerns .sim) ∧
      s.answersOn .sim cs = t.answersOn .sim ds ∧
      s.answersOn .sim cs = [.number 0x20000606, .number 81, .done, .number 0xFFFFFFFF] ∧
      (s.calls cs).2.get .sim = (t.calls ds).2.get .sim := by
  intro fallback s t cs ds
  obtain ⟨halone, htogether⟩ := calls_separate .sim
  have hfilter : cs.filter (·.Concerns .sim) = ds.filter (·.Concerns .sim) := rfl
  obtain ⟨hanswers, hfinal⟩ := htogether s t cs ds rfl hfilter
  have hown : s.answersOn .sim cs =
      (s.calls [.draw .sim, .drawBelow .sim 100, .reseed 0, .draw .sim]).1 := (halone s cs).1
  exact ⟨rfl, hfilter, hanswers, hown.trans (by decide), hfinal⟩

end Streams

end RailGrid
