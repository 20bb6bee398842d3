import RailGrid.Step
import RailGrid.Tile.Fault

/-!
# Changing a record

A `Change` of a record may be refused part way. What it wrote before the refusal stays written, so
its result is both the outcome and the record it left. Most changes are of the form `guarded`: they
look first and write nothing when they are refused.
-/

namespace RailGrid

/-- A change of one record that may be refused. -/
abbrev Change := Step Tile TileFault Unit

namespace Change

/-- The outcome of a change and the record it leaves. -/
def on (c : Change) (x : Tile) : Except TileFault Unit × Tile := c.run.run x

/-- The change that always succeeds and applies `f`. -/
def always (f : Tile → Tile) : Change := ExceptT.mk fun x => (.ok (), f x)

/-- The change that applies `f` to records that pass the check and leaves others alone. -/
def guarded (check : Tile → Except TileFault Unit) (f : Tile → Tile) : Change :=
  ExceptT.mk fun x => match check x with
    | .ok () => (.ok (), f x)
    | .error e => (.error e, x)

variable {check : Tile → Except TileFault Unit} {f : Tile → Tile} {c d : Change} {x y : Tile}
  {e : TileFault}

@[simp] theorem on_always : (always f).on x = (.ok (), f x) := rfl

theorem on_guarded_of_ok (h : check x = .ok ()) : (guarded check f).on x = (.ok (), f x) := by
  simp only [on, guarded, ExceptT.run_mk, StateT.run, h]

theorem on_guarded_of_error (h : check x = .error e) : (guarded check f).on x = (.error e, x) := by
  simp only [on, guarded, ExceptT.run_mk, StateT.run, h]

/-- After a success the second change sees what the first one left. -/
theorem on_seq_of_ok (h : c.on x = (.ok (), y)) : on (do c; d) x = d.on y := Step.run_bind_of_ok h

/-- After a refusal the second change is not made. -/
theorem on_seq_of_error (h : c.on x = (.error e, y)) : on (do c; d) x = (.error e, y) :=
  Step.run_bind_of_error h

end Change

end RailGrid
