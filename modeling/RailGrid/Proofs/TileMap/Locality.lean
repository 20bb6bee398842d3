import RailGrid.Proofs.TileMap.Course

/-!
# Calls on different tiles do not interfere

An edit looks at one record of a map and writes one record, both those of its tile. In a run of calls
on many tiles, refused ones among them, the calls on one tile therefore answer as they would alone
and leave the tile as they would alone, and neighbouring calls on different tiles may change places.
-/

namespace RailGrid

/-! ### Edits -/

namespace TileMap

variable {m n : TileMap} {t u : TileIndex} {d e : Edit} {x y : Tile}

/-- An edit whose change succeeds leaves the record of the change. -/
theorem edit_of_change (hfault : e.argumentFault? = none) (hx : m.tile t = .ok x)
    (hchange : e.change.on x = (.ok (), y)) : m.edit t e = (.ok (), m.setTile t y) := by
  simp only [edit_eq, hx, Edit.onTile, hfault, hchange, ofTile]

/-- Maps that agree on a tile agree on it after an edit of it, and on the answer. -/
theorem edit_congr (h : m.tile t = n.tile t) :
    (m.edit t e).1 = (n.edit t e).1 ∧ (m.edit t e).2.tile t = (n.edit t e).2.tile t := by
  simp only [edit_eq, h, tile_setTile_self, and_self]

/-- Of two edits on different tiles the second one answers as if it were the first, and both leave
the same map in either order. -/
theorem edit_comm_of_ne (hne : t ≠ u) :
    (m.edit t e).2.edit u d = ((m.edit u d).1, ((m.edit u d).2.edit t e).2) := by
  simp only [edit_eq, tile_setTile_of_ne hne, tile_setTile_of_ne (Ne.symm hne), setTile_comm hne]

end TileMap

/-! ### Runs of calls -/

/-- A call addressed to a tile. -/
inductive Call where
  /-- One of the edits. -/
  | edit (e : Edit)
  /-- A write to the record itself, which may keep any part of what it finds. -/
  | write (f : Tile → Tile)

/-- The edit that a call makes of a tile that reads as `r`; off the map there is nothing to write to
and the edit is refused. -/
def Call.editFor (r : Except MapFault Tile) : Call → Edit
  | edit e => e
  | write f => .overwrite ((r.toOption.map f).getD {})

namespace TileMap

variable {m n : TileMap} {t u : TileIndex} {c d : Call} {steps : List (TileIndex × Call)}

/-- Makes a call on a tile: the answer and the map it leaves. -/
def call (m : TileMap) (t : TileIndex) (c : Call) : Except MapFault Unit × TileMap :=
  m.edit t (c.editFor (m.tile t))

/-- Makes the calls in order: the answer to each, and the map they leave. -/
def calls (m : TileMap) : List (TileIndex × Call) → List (Except MapFault Unit) × TileMap
  | [] => ([], m)
  | (t, c) :: steps =>
    ((m.call t c).1 :: ((m.call t c).2.calls steps).1, ((m.call t c).2.calls steps).2)

/-- The answers to the calls on one tile among the steps of a run. -/
def answersOn (m : TileMap) (t : TileIndex) (steps : List (TileIndex × Call)) :
    List (Except MapFault Unit) :=
  ((steps.zip (m.calls steps).1).filter (·.1.1 = t)).map (·.2)

theorem answersOn_cons_self : m.answersOn t ((t, c) :: steps) =
    (m.call t c).1 :: (m.call t c).2.answersOn t steps := by
  simp [answersOn, calls]

theorem answersOn_cons_of_ne (hne : u ≠ t) :
    m.answersOn t ((u, c) :: steps) = (m.call u c).2.answersOn t steps := by
  simp [answersOn, calls, hne]

theorem tile_call_of_ne (hne : t ≠ u) : (m.call t c).2.tile u = m.tile u := tile_edit_of_ne hne

theorem call_congr (h : m.tile t = n.tile t) :
    (m.call t c).1 = (n.call t c).1 ∧ (m.call t c).2.tile t = (n.call t c).2.tile t := by
  rw [call, call, h]
  exact edit_congr h

theorem call_comm_of_ne (hne : t ≠ u) :
    (m.call t c).2.call u d = ((m.call u d).1, ((m.call u d).2.call t c).2) := by
  have hu : (m.call t c).2.tile u = m.tile u := tile_call_of_ne hne
  have ht : (m.call u d).2.tile t = m.tile t := tile_call_of_ne (Ne.symm hne)
  have hlater : (m.call u d).2.call t c = (m.call u d).2.edit t (c.editFor (m.tile t)) := by
    rw [← ht, call]
  rw [hlater, call, hu]
  exact edit_comm_of_ne hne

/-- The edges and the number of tiles stay. -/
theorem dimensions_calls (m : TileMap) (steps : List (TileIndex × Call)) :
    (m.calls steps).2.logX = m.logX ∧ (m.calls steps).2.logY = m.logY ∧
      (m.calls steps).2.size = m.size := by
  induction steps generalizing m with
  | nil => exact ⟨rfl, rfl, rfl⟩
  | cons p steps ih =>
    obtain ⟨hx, hy, hsize⟩ := ih (m.call p.1 p.2).2
    exact ⟨hx.trans logX_edit, hy.trans logY_edit, hsize.trans size_edit⟩

/-- A run on a map and the run of the calls on one tile, on a map that agrees with it on this tile,
give the same answers on the tile and leave it the same. -/
theorem calls_filter_of_tile_eq (h : m.tile t = n.tile t) :
    m.answersOn t steps = (n.calls (steps.filter (·.1 = t))).1 ∧
      (m.calls steps).2.tile t = (n.calls (steps.filter (·.1 = t))).2.tile t := by
  -- the two maps agree on the tile throughout: both move with a call on it, one of them alone
  -- with a call elsewhere, which does not reach the tile
  induction steps generalizing m n with
  | nil => exact ⟨rfl, h⟩
  | cons p steps ih =>
    obtain ⟨u, c⟩ := p
    by_cases hu : u = t
    · subst hu
      obtain ⟨hanswer, htile⟩ := call_congr (c := c) h
      obtain ⟨hanswers, hfinal⟩ := ih htile
      rw [List.filter_cons_of_pos (by simp), answersOn_cons_self, hanswer, hanswers]
      exact ⟨rfl, hfinal⟩
    · have htile : (m.call u c).2.tile t = n.tile t := (tile_call_of_ne hu).trans h
      rw [List.filter_cons_of_neg (by simpa using hu), answersOn_cons_of_ne hu]
      exact ih htile

/-- In every run of calls, refused or not, on tiles of the map or off it, the calls on one tile
answer and leave the tile as they would without the others, and the edges and the number of tiles
stay. So two calls on different tiles in a row can change places: only their answers do. -/
theorem calls_eq_calls_filter (m : TileMap) :
    (∀ (steps : List (TileIndex × Call)) (t : TileIndex),
      m.answersOn t steps = (m.calls (steps.filter (·.1 = t))).1 ∧
        (m.calls steps).2.tile t = (m.calls (steps.filter (·.1 = t))).2.tile t) ∧
    (∀ steps : List (TileIndex × Call),
      (m.calls steps).2.logX = m.logX ∧ (m.calls steps).2.logY = m.logY ∧
        (m.calls steps).2.size = m.size) ∧
    ∀ (t u : TileIndex) (c d : Call), t ≠ u →
      m.calls [(u, d), (t, c)] =
        ((m.calls [(t, c), (u, d)]).1.reverse, (m.calls [(t, c), (u, d)]).2) := by
  refine ⟨fun steps t => calls_filter_of_tile_eq rfl, dimensions_calls m, fun t u c d hne => ?_⟩
  have hanswer : ((m.call u d).2.call t c).1 = (m.call t c).1 := by
    rw [call_comm_of_ne (Ne.symm hne)]
  simp only [calls, call_comm_of_ne hne, hanswer]
  rfl

/-- A house on which track is refused for its owner, and which then takes an owner: what is done to
its neighbour and off the map in between does not matter to it, and the first two calls may change
places. -/
theorem calls_eq_calls_filter_house :
    let m : TileMap := ⟨0, 0, #[⟨0x35, 0xE3, 0xBEEF, 0xA2, 0xF5, 0x63⟩, {}]⟩
    let build : Call := .edit (.makeTrack ⟨200⟩ ⟨1⟩ .rail)
    let retype : Call := .write fun x => { x with typeHeight := 0x1F }
    let sell : Call := .edit (.setOwner ⟨5⟩)
    let steps : List (TileIndex × Call) := [(⟨0⟩, build), (⟨1⟩, retype), (⟨7⟩, .edit .makeClear),
      (⟨0⟩, sell), (⟨1⟩, .edit .removeSignals)]
    (m.answersOn ⟨0⟩ steps).map Except.isOk = [false, true] ∧
      ((m.calls steps).2.tile ⟨0⟩).toOption = some ⟨0x15, 0xE5, 0xBEEF, 0xA2, 0xF5, 0x63⟩ ∧
      (m.calls [(⟨1⟩, retype), (⟨0⟩, build)]).2 = (m.calls [(⟨0⟩, build), (⟨1⟩, retype)]).2 := by
  intro m build retype sell steps
  obtain ⟨halone, -, hcomm⟩ := calls_eq_calls_filter m
  obtain ⟨hanswers, htile⟩ := halone steps ⟨0⟩
  have hown : steps.filter (·.1 = ⟨0⟩) = [(⟨0⟩, build), (⟨0⟩, sell)] := by
    simp [steps]
  have hswap := hcomm ⟨0⟩ ⟨1⟩ build retype (by decide)
  rw [hanswers, htile, hown, hswap]
  exact ⟨by decide, by decide, rfl⟩

end TileMap

end RailGrid
