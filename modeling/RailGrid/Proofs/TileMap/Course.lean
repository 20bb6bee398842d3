import RailGrid.Proofs.TileMap.Mutators

/-!
# Courses of edits

A course makes one edit after the other, on any tiles, and a refused edit does not stop it. What
every edit keeps is kept by a course. A question asked of a tile after an edit of this tile is a
question on the record that the change left.
-/

namespace RailGrid.TileMap

/-- Makes the edits in order: the outcome of each, and the map they leave. -/
def course (m : TileMap) : List (TileIndex × Edit) → List (Except MapFault Unit) × TileMap
  | [] => ([], m)
  | (t, e) :: steps =>
    ((m.edit t e).1 :: ((m.edit t e).2.course steps).1, ((m.edit t e).2.course steps).2)

/-- The edits of one tile among the steps of a course. -/
def editsOn (t : TileIndex) (steps : List (TileIndex × Edit)) : List Edit :=
  (steps.filter (·.1 = t)).map (·.2)

/-- The outcomes of the edits of one tile among the steps of a course. -/
def outcomesOn (m : TileMap) (t : TileIndex) (steps : List (TileIndex × Edit)) :
    List (Except MapFault Unit) :=
  ((steps.zip (m.course steps).1).filter (·.1.1 = t)).map (·.2)

variable {α : Type} {m : TileMap} {t u : TileIndex} {e : Edit} {q : Tile → Except TileFault α}
  {steps : List (TileIndex × Edit)}

/-! ### Questions -/

theorem ask_of_valid (ht : m.Valid t) : m.ask t q = ofTile t (q (m.get t ht)) := by
  rw [ask, tile_of_valid ht]
  rfl

theorem ask_of_tile {x : Tile} {a : α} (hx : m.tile t = .ok x) (hq : q x = .ok a) :
    m.ask t q = .ok a := by
  rw [ask, hx]
  exact congrArg (ofTile t) hq

/-- A question is answered when the index is on the map and the record answers it. -/
theorem ask_eq_ok_iff {a : α} : m.ask t q = .ok a ↔ ∃ ht : m.Valid t, q (m.get t ht) = .ok a := by
  constructor
  · intro h
    by_cases ht : m.Valid t
    · rw [ask_of_valid ht] at h
      refine ⟨ht, ?_⟩
      cases hq : q (m.get t ht) with
      | ok b =>
        rw [hq] at h
        exact congrArg Except.ok (Except.ok.inj h)
      | error f =>
        rw [hq] at h
        cases h
    · have htile : m.tile t = .error (.offMap t) := dif_neg ht
      rw [ask, htile] at h
      cases h
  · rintro ⟨ht, hq⟩
    rw [ask_of_valid ht, hq]
    rfl

/-! ### Single edits -/

/-- The edited tile has the record that the change left. -/
theorem get_edit_self (he : e.argumentFault? = none) (ht : m.Valid t) :
    (m.edit t e).2.get t (valid_edit_iff.mpr ht) = (e.change.on (m.get t ht)).2 := by
  simp only [edit_of_valid he ht, get]
  exact Array.getElem_set_self ht

theorem edit_outcome (he : e.argumentFault? = none) (ht : m.Valid t) :
    (m.edit t e).1 = ofTile t (e.change.on (m.get t ht)).1 := by
  rw [edit_of_valid he ht]

/-- What can be asked after an edit is asked of the record that the change left. -/
theorem ask_edit_self (he : e.argumentFault? = none) (ht : m.Valid t) :
    (m.edit t e).2.ask t q = ofTile t (q (e.change.on (m.get t ht)).2) := by
  rw [ask_of_valid (valid_edit_iff.mpr ht), get_edit_self he ht]

/-- An edit that leaves the record of its tile as it is leaves the map as it is. -/
theorem edit_eq_self (he : e.argumentFault? = none) (ht : m.Valid t)
    (hkept : (e.change.on (m.get t ht)).2 = m.get t ht) :
    m.edit t e = (ofTile t (e.change.on (m.get t ht)).1, m) := by
  rw [edit_of_valid he ht, hkept]
  have hset : m.tiles.set t.number.toNat (m.get t ht) ht = m.tiles := Array.set_getElem_self ht
  rw [hset]

/-! ### Whole courses -/

theorem editsOn_cons_self : editsOn t ((t, e) :: steps) = e :: editsOn t steps := by
  simp [editsOn]

theorem editsOn_cons_of_ne (hne : u ≠ t) : editsOn t ((u, e) :: steps) = editsOn t steps := by
  simp [editsOn, hne]

theorem outcomesOn_cons_self : m.outcomesOn t ((t, e) :: steps) =
    (m.edit t e).1 :: (m.edit t e).2.outcomesOn t steps := by
  simp [outcomesOn, course]

theorem outcomesOn_cons_of_ne (hne : u ≠ t) : m.outcomesOn t ((u, e) :: steps) =
    (m.edit u e).2.outcomesOn t steps := by
  simp [outcomesOn, course, hne]

/-- What every admitted edit keeps is kept by every course of admitted edits. -/
theorem course_induction {P : TileMap → Prop} {Q : Edit → Prop}
    (hstep : ∀ m t e, Q e → P m → P (m.edit t e).2)
    (hsteps : ∀ p ∈ steps, Q p.2) (hm : P m) : P (m.course steps).2 := by
  induction steps generalizing m with
  | nil => exact hm
  | cons p steps ih =>
    obtain ⟨t, e⟩ := p
    have hfirst : Q e := hsteps (t, e) (by simp)
    exact ih (fun p hp => hsteps p (by simp [hp])) (hstep m t e hfirst hm)

end RailGrid.TileMap
