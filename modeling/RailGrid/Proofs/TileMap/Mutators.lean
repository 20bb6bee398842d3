import RailGrid.TileMap.Mutators

/-!
# What the mutators do to single records

An edit of a map is a sequence of requests that could name any tile. `MapM.ActsAs` states that a
request changes the record of one tile as a change of this record alone would, and leaves the rest
of the map; it holds of a write and of a write behind a check, and passes from the parts of a
sequence to the whole. So an edit is the change of one record, but for an argument that is refused
before any tile is looked for.
-/

namespace RailGrid

open Step

/-- What is wrong with an edit whatever tile it is asked for. -/
def Edit.argumentFault? : Edit → Option MapFault
  | .setHeight h => if h < 16 then none else some (.heightTooLarge h)
  | _ => none

/-- The map itself takes heights that fit into the record. -/
theorem Edit.argumentFault_setHeight_iff {h : UInt8} :
    (setHeight h).argumentFault? = none ↔ h < 16 := by
  simp [argumentFault?]

/-- The answer of an edit on a tile that reads as `r`, and the record it leaves there; off the map
the record does not matter. -/
def Edit.onTile (e : Edit) (t : TileIndex) (r : Except MapFault Tile) :
    Except MapFault Unit × Tile :=
  match e.argumentFault?, r with
  | none, .ok x => (TileMap.ofTile t (e.change.on x).1, (e.change.on x).2)
  | none, .error f => (.error f, {})
  | some f, .ok x => (.error f, x)
  | some f, .error _ => (.error f, {})

/-- Changes the record of a tile: the outcome, and the map with this record replaced. -/
def TileMap.change (m : TileMap) (t : TileIndex) (c : Change) : Except MapFault Unit × TileMap :=
  match m.tile t with
  | .ok x => (ofTile t (c.on x).1, m.setTile t (c.on x).2)
  | .error f => (.error f, m)

section

variable {m : TileMap} {t : TileIndex} {c : Change} {x : Tile} {f : MapFault}

theorem TileMap.change_of_tile (hx : m.tile t = .ok x) :
    m.change t c = (ofTile t (c.on x).1, m.setTile t (c.on x).2) := by
  rw [change, hx]

theorem TileMap.change_of_error (hx : m.tile t = .error f) : m.change t c = (.error f, m) := by
  rw [change, hx]

end

namespace MapM

open TileMap

variable {α : Type} {m : TileMap} {t : TileIndex} {x : Tile} {p q : MapM Unit} {c d : Change}
  {f : Tile → Tile} {check : Tile → Except TileFault Unit} {question : Tile → Except TileFault α}
  {o : Owner} {r : RailType}

/-- On every map the request does to the record of `t` what the change does, and nothing else. -/
def ActsAs (t : TileIndex) (p : MapM Unit) (c : Change) : Prop := ∀ m, p.run.run m = m.change t c

theorem run_ask : (ask t question).run.run m = (m.ask t question, m) := rfl

theorem run_ask_of_tile (hx : m.tile t = .ok x) :
    (ask t question).run.run m = (ofTile t (question x), m) := by
  rw [run_ask, TileMap.ask, hx]
  rfl

theorem run_ask_of_error {e : MapFault} (hx : m.tile t = .error e) :
    (ask t question).run.run m = (.error e, m) := by
  rw [run_ask, TileMap.ask, hx]
  rfl

theorem run_update_of_tile (hx : m.tile t = .ok x) :
    (update t f).run.run m = (.ok (), m.setTile t (f x)) := by
  simp only [update, ExceptT.run_mk, StateT.run, hx]

theorem run_update_of_error {e : MapFault} (hx : m.tile t = .error e) :
    (update t f).run.run m = (.error e, m) := by
  simp only [update, ExceptT.run_mk, StateT.run, hx]

/-! ### Writes, checks and sequences -/

theorem actsAs_update : ActsAs t (update t f) (.always f) := by
  intro m
  cases hx : m.tile t with
  | error e => rw [change_of_error hx, run_update_of_error hx]
  | ok x =>
    rw [change_of_tile hx, run_update_of_tile hx, Change.on_always]
    rfl

/-- A request behind a check acts as the change behind the check. -/
theorem actsAs_updateChecked : ActsAs t (updateChecked t check f) (.guarded check f) := by
  intro m
  cases hx : m.tile t with
  | error e =>
    rw [change_of_error hx, updateChecked, run_bind_of_error (run_ask_of_error hx)]
  | ok x =>
    have hask : (ask t check).run.run m = (ofTile t (check x), m) := run_ask_of_tile hx
    cases hcheck : check x with
    | ok u =>
      rw [hcheck] at hask
      rw [change_of_tile hx, Change.on_guarded_of_ok hcheck, updateChecked, run_bind_of_ok hask,
        run_update_of_tile hx]
      rfl
    | error e =>
      rw [hcheck] at hask
      rw [change_of_tile hx, Change.on_guarded_of_error hcheck, updateChecked,
        run_bind_of_error hask, setTile_of_tile hx]
      rfl

/-- The second request finds the record that the first one left, unless that was refused. -/
theorem ActsAs.seq (hp : ActsAs t p c) (hq : ActsAs t q d) : ActsAs t (do p; q) (do c; d) := by
  intro m
  have hfirst := hp m
  cases hx : m.tile t with
  | error e =>
    rw [change_of_error hx] at hfirst ⊢
    exact run_bind_of_error hfirst
  | ok x =>
    rw [change_of_tile hx] at hfirst ⊢
    cases hc : c.on x with
    | mk result y =>
      rw [hc] at hfirst
      cases result with
      | ok u =>
        have hy : (m.setTile t y).tile t = .ok y := tile_setTile_of_tile hx
        rw [run_bind_of_ok hfirst, hq, change_of_tile hy, setTile_setTile, Change.on_seq_of_ok hc]
      | error e =>
        rw [run_bind_of_error hfirst, Change.on_seq_of_error hc]
        rfl

/-- Nothing is done where the last part of a sequence is left out. -/
theorem ActsAs.seq_pure (hp : ActsAs t p c) : ActsAs t (do p; return ()) (do c; return ()) := by
  rw [bind_pure_unit, bind_pure_unit]
  exact hp

/-! ### The mutators -/

theorem actsAs_setHeight {h : UInt8} (hh : h < 16) : ActsAs t (setHeight t h) (.setHeight h) := by
  intro m
  have hpass : (setHeight t h).run.run m = (update t (·.put .height h)).run.run m := by
    rw [setHeight, if_pos hh]
  rw [hpass]
  exact actsAs_update m

/-- The tile is asked first, then the owner; nothing is written before both have passed. -/
theorem actsAs_setOwner : ActsAs t (setOwner t o) (.setOwner o) := by
  intro m
  cases hx : m.tile t with
  | error e => rw [change_of_error hx, setOwner, run_bind_of_error (run_ask_of_error hx)]
  | ok x =>
    have hask : (ask t Tile.requireOwned).run.run m = (ofTile t x.requireOwned, m) :=
      run_ask_of_tile hx
    rw [change_of_tile hx, setOwner]
    cases howned : x.requireOwned with
    | error e =>
      have hrefused : (Change.setOwner o).on x = (.error e, x) :=
        Change.on_guarded_of_error (by rw [howned]; rfl)
      rw [howned] at hask
      rw [run_bind_of_error hask, hrefused, setTile_of_tile hx]
      rfl
    | ok u =>
      rw [howned] at hask
      rw [run_bind_of_ok hask]
      by_cases ho : o.Fits
      · rw [if_pos ho, Change.on_setOwner_of_fits howned ho]
        exact run_update_of_tile hx
      · rw [if_neg ho, Change.on_setOwner_of_not_fits howned ho, setTile_of_tile hx]
        rfl

/-- The height that was read fits, so the tile is not refused it once it has been cleared. -/
theorem actsAs_makeClear : ActsAs t (makeClear t) .makeClear := by
  intro m
  cases hx : m.tile t with
  | error e => rw [change_of_error hx, makeClear, run_bind_of_error (run_ask_of_error hx)]
  | ok x =>
    have hread : (ask t fun x => return x.height).run.run m = (.ok x.height, m) :=
      run_ask_of_tile hx
    have hrest : ActsAs t (do update t fun _ => {}; setHeight t x.height; setOwner t .nobody)
        (do Change.always fun _ => {}; Change.setHeight x.height; Change.setOwner .nobody) :=
      actsAs_update.seq ((actsAs_setHeight Tile.height_lt).seq actsAs_setOwner)
    rw [makeClear, run_bind_of_ok hread, hrest, change_of_tile hx, change_of_tile hx]
    rfl

theorem actsAs_addSignals {k : SignalKind} {s : SignalStyle} :
    ActsAs t (addSignals t k s) (.addSignals k s) :=
  actsAs_updateChecked.seq (actsAs_updateChecked.seq actsAs_updateChecked)

theorem actsAs_makeRailway : ActsAs t (makeRailway t o r) (.makeRailway o r) :=
  actsAs_update.seq (actsAs_setOwner.seq actsAs_update)

theorem actsAs_makeTrack {s : TrackSet} : ActsAs t (makeTrack t o s r) (.makeTrack o s r) :=
  actsAs_makeRailway.seq actsAs_update

theorem actsAs_makeDepot {d : Direction} : ActsAs t (makeDepot t o d r) (.makeDepot o d r) :=
  actsAs_makeRailway.seq actsAs_update

theorem actsAs_makeWaypoint {a : Axis} {index : UInt16} :
    ActsAs t (makeWaypoint t o a r index) (.makeWaypoint o a r index) :=
  actsAs_makeRailway.seq actsAs_update

theorem actsAs_setRail {r : RailTile} : ActsAs t (setRail t r) (.setRail r) := by
  cases r with
  | track o r s => exact actsAs_makeTrack
  | signals o r s kind style => exact actsAs_makeTrack.seq actsAs_addSignals
  | depot o r d => exact actsAs_makeDepot
  | waypoint o r a index custom =>
    cases custom with
    | false => exact actsAs_makeWaypoint.seq_pure
    | true => exact actsAs_makeWaypoint.seq actsAs_updateChecked

/-- An edit acts as its change of the record, unless its argument is at fault. -/
theorem actsAs_perform {e : Edit} (he : e.argumentFault? = none) :
    ActsAs t (perform t e) e.change := by
  cases e with
  | setKind k => exact actsAs_update
  | setHeight h => exact actsAs_setHeight (Edit.argumentFault_setHeight_iff.mp he)
  | setOwner o => exact actsAs_setOwner
  | makeClear => exact actsAs_makeClear
  | setRailType r => exact actsAs_update
  | setCrossingRailType r => exact actsAs_updateChecked
  | setBridgeRailType r => exact actsAs_updateChecked
  | setTracks s => exact actsAs_updateChecked
  | setCustomSprite custom => exact actsAs_updateChecked
  | setSignalKind k => exact actsAs_updateChecked
  | setSignalStyle s => exact actsAs_updateChecked
  | addSignals k s => exact actsAs_addSignals
  | removeSignals => exact actsAs_updateChecked
  | makeTrack o s r => exact actsAs_makeTrack
  | makeDepot o d r => exact actsAs_makeDepot
  | makeWaypoint o a r index => exact actsAs_makeWaypoint
  | setRail r => exact actsAs_setRail
  | overwrite x => exact actsAs_update

end MapM

namespace TileMap

open MapM

variable {m : TileMap} {t u : TileIndex} {e : Edit} {f : MapFault}

/-- An argument at fault is reported before the tile is looked for. -/
theorem edit_of_argumentFault (h : e.argumentFault? = some f) : m.edit t e = (.error f, m) := by
  cases e with
  | setHeight height =>
    by_cases hheight : height < 16
    · rw [Edit.argumentFault?, if_pos hheight] at h
      cases h
    · rw [Edit.argumentFault?, if_neg hheight] at h
      cases h
      rw [edit, perform, setHeight, if_neg hheight]
      rfl
  | _ => cases h

/-- Any other edit is the change of the record of its tile. -/
theorem edit_of_not_argumentFault (he : e.argumentFault? = none) :
    m.edit t e = m.change t e.change :=
  actsAs_perform he m

theorem edit_of_not_valid (he : e.argumentFault? = none) (ht : ¬ m.Valid t) :
    m.edit t e = (.error (.offMap t), m) := by
  rw [edit_of_not_argumentFault he, change_of_error (tile_of_not_valid ht)]

/-- On a tile of the map an edit is its change of the record. -/
theorem edit_of_valid (he : e.argumentFault? = none) (ht : m.Valid t) :
    m.edit t e = (ofTile t (e.change.on (m.get t ht)).1,
      { m with tiles := m.tiles.set t.number.toNat (e.change.on (m.get t ht)).2 ht }) := by
  rw [edit_of_not_argumentFault he, change_of_tile (tile_of_valid ht), setTile_of_valid ht]

/-- An edit looks at its tile alone and writes to its tile alone. -/
theorem edit_eq (m : TileMap) (t : TileIndex) (e : Edit) :
    m.edit t e = ((e.onTile t (m.tile t)).1, m.setTile t (e.onTile t (m.tile t)).2) := by
  unfold Edit.onTile
  by_cases ht : m.Valid t
  · have htile := tile_of_valid ht
    cases he : e.argumentFault? with
    | none => simp only [htile, edit_of_valid he ht, setTile_of_valid ht]
    | some f => simp only [htile, edit_of_argumentFault he, setTile_of_tile htile]
  · have htile := tile_of_not_valid ht
    cases he : e.argumentFault? with
    | none => simp only [htile, edit_of_not_valid he ht, setTile_of_not_valid ht]
    | some f => simp only [htile, edit_of_argumentFault he, setTile_of_not_valid ht]

@[simp] theorem logX_edit : (m.edit t e).2.logX = m.logX := by
  rw [edit_eq, setTile]

@[simp] theorem logY_edit : (m.edit t e).2.logY = m.logY := by
  rw [edit_eq, setTile]

@[simp] theorem size_edit : (m.edit t e).2.size = m.size := by
  rw [edit_eq, setTile, size, Array.size_setIfInBounds, size]

/-- The tiles of a map stay its tiles. -/
theorem valid_edit_iff : (m.edit t e).2.Valid u ↔ m.Valid u := by
  rw [Valid, Valid, size_edit]

/-- A consistent map stays consistent. -/
theorem consistent_edit_iff : (m.edit t e).2.Consistent ↔ m.Consistent := by
  rw [Consistent, Consistent, logX_edit, logY_edit, size_edit]

theorem tile_edit_of_ne (hne : t ≠ u) : (m.edit t e).2.tile u = m.tile u := by
  rw [edit_eq, tile_setTile_of_ne hne]

/-- The other tiles are kept. -/
theorem get_edit_of_ne (hne : u ≠ t) (hu : m.Valid u) :
    (m.edit t e).2.get u (valid_edit_iff.mpr hu) = m.get u hu := by
  have htile : (m.edit t e).2.tile u = m.tile u := tile_edit_of_ne (Ne.symm hne)
  rw [tile_of_valid (valid_edit_iff.mpr hu), tile_of_valid hu] at htile
  exact Except.ok.inj htile

end TileMap

end RailGrid
