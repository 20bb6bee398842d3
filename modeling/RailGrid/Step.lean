/-!
# Steps that may be refused part way

A step works on a state and yields a value or is refused; it leaves a state in both cases, and what
it did before a refusal stays done. Changes of a record, requests on a map and steps of an
application are all of this kind, and are put together by the same two rules.
-/

namespace RailGrid

/-- A step on a state `σ` that may be refused for a cause `ε`. -/
abbrev Step (σ ε : Type) := ExceptT ε (StateM σ)

namespace Step

variable {σ ε α β : Type} {p : Step σ ε α} {k : α → Step σ ε β} {s t : σ} {a : α} {e : ε}

/-- The second step is run where the first one ended, unless that was refused. -/
theorem run_bind : (p >>= k).run.run s =
    match p.run.run s with
    | (.ok a, t) => (k a).run.run t
    | (.error e, t) => (.error e, t) := by
  change (ExceptT.bind p k) s = _
  simp only [ExceptT.bind, ExceptT.mk, bind, StateT.bind, ExceptT.run, StateT.run]
  cases p s with
  | mk result t => cases result <;> rfl

theorem run_bind_of_ok (h : p.run.run s = (.ok a, t)) :
    (p >>= k).run.run s = (k a).run.run t := by rw [run_bind, h]

/-- A refused step is not followed by the next one. -/
theorem run_bind_of_error (h : p.run.run s = (.error e, t)) :
    (p >>= k).run.run s = (.error e, t) := by rw [run_bind, h]

end Step

end RailGrid
