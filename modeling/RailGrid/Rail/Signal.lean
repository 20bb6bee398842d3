import RailGrid.Enumeration

/-!
# Signals

The role of a signal in a block of track, and how it looks.
-/

namespace RailGrid

/-- The role of a signal. -/
inductive SignalKind where
  | block
  /-- At the entry of a presignal block. -/
  | entry
  /-- At the exit of a presignal block. -/
  | exit
  /-- Between two presignal blocks. -/
  | combo
  deriving DecidableEq, Repr

instance : Enumeration SignalKind where
  members := [.block, .entry, .exit, .combo]
  name
    | .block => "Normal"
    | .entry => "Entry"
    | .exit => "Exit"
    | .combo => "Combo"
  mem_members a := by cases a <;> decide
  nodup_names := by decide
  length_members_le := by decide

/-- The construction of a signal. -/
inductive SignalStyle where
  | electric | semaphore
  deriving DecidableEq, Repr

instance : Enumeration SignalStyle where
  members := [.electric, .semaphore]
  name
    | .electric => "Electric"
    | .semaphore => "Semaphore"
  mem_members a := by cases a <;> decide
  nodup_names := by decide
  length_members_le := by decide

end RailGrid
