import RailGrid.Digits

/-!
# Reading bytes in order

A reader takes what it needs from the front of a list of bytes and fails when there is not enough.
Whole inputs are read by readers that leave nothing over.
-/

namespace RailGrid.Save

/-- A sequence of bytes. -/
abbrev Bytes := List UInt8

/-- Takes a value from the front of the input, or fails. -/
abbrev Reader := StateT Bytes Option

namespace Reader

/-- The next `n` bytes. -/
def take (n : Nat) : Reader Bytes := fun bs =>
  if n ≤ bs.length then some (bs.splitAt n) else none

/-- The next byte as a number. -/
def byte : Reader Nat := fun bs =>
  match bs with
  | [] => none
  | b :: bs => some (b.toNat, bs)

/-- The value of an input that is read to its end. -/
def readAll? {α : Type} (r : Reader α) (bs : Bytes) : Option α :=
  match r bs with
  | some (a, []) => some a
  | _ => none

/-- The reader takes exactly `bs` from the front of any input and yields `a`. -/
def Reads {α : Type} (r : Reader α) (bs : Bytes) (a : α) : Prop :=
  ∀ rest, r (bs ++ rest) = some (a, rest)

variable {α β : Type} {r : Reader α} {s : α → Reader β} {bs cs : Bytes} {a : α} {b : β}

theorem reads_pure : Reads (pure a) [] a := fun _ => rfl

theorem reads_take : Reads (take bs.length) bs bs := by
  intro rest
  simp [take, List.splitAt_eq]

theorem reads_byte {c : UInt8} : Reads byte [c] c.toNat := fun _ => rfl

theorem Reads.bind (hr : Reads r bs a) (hs : Reads (s a) cs b) : Reads (r >>= s) (bs ++ cs) b := by
  intro rest
  simp only [Bind.bind, StateT.bind, List.append_assoc, hr (cs ++ rest), Option.bind, hs rest]

theorem Reads.map {f : α → β} (hr : Reads r bs a) : Reads (f <$> r) bs (f a) := by
  intro rest
  simp only [Functor.map, StateT.map, hr rest, Bind.bind, Option.bind]
  rfl

/-- What a reader takes exactly, it reads to the end. -/
theorem Reads.readAll? (hr : Reads r bs a) : r.readAll? bs = some a := by
  have h := hr []
  rw [List.append_nil] at h
  rw [Reader.readAll?, h]

end Reader

end RailGrid.Save
