import RailGrid.Proofs.TileMap.Locality
import RailGrid.Proofs.Rail.Items

/-!
# Edits of a single field

Ten of the edits write one item each. Where such an item lies is a matter of layout, and this file
says so in bit positions: an edit of an item that succeeds changes no bit beside it, the reader of
the item answers with what was written, a second write makes the first one as if it had not been,
and writes to places that do not meet may change places. What makes this work is that no edit of an
item writes to the bits that its own check looks at.
-/

namespace RailGrid

open Enumeration

/-! ### Edits of an item -/

namespace Edit

/-- The byte and the bits of it that hold the item of an edit that writes a single item. -/
def place? : Edit → Option (Column × BitRange)
  | setKind _ => some (.typeHeight, ⟨4, 4⟩)
  | setHeight _ => some (.typeHeight, ⟨0, 4⟩)
  | setOwner _ => some (.m1, ⟨0, 5⟩)
  | setRailType _ => some (.m3, ⟨0, 4⟩)
  | setCrossingRailType _ => some (.m4, ⟨0, 4⟩)
  | setBridgeRailType _ => some (.m3, ⟨4, 4⟩)
  | setTracks _ => some (.m5, ⟨0, 6⟩)
  | setCustomSprite _ => some (.m3, ⟨4, 1⟩)
  | setSignalKind _ => some (.m4, ⟨0, 2⟩)
  | setSignalStyle _ => some (.m4, ⟨2, 1⟩)
  | makeClear | addSignals _ _ | removeSignals | makeTrack _ _ _ | makeDepot _ _ _
  | makeWaypoint _ _ _ _ | setRail _ | overwrite _ => none

/-- The field of the layout that an edit of an item writes. -/
def field? : Edit → Option Field
  | setKind _ => some .kind
  | setHeight _ => some .height
  | setOwner _ => some .owner
  | setRailType _ => some .railType
  | setCrossingRailType _ => some .crossingRailType
  | setBridgeRailType _ => some .bridgeRailType
  | setTracks _ => some .tracks
  | setCustomSprite _ => some .customSprite
  | setSignalKind _ => some .signalKind
  | setSignalStyle _ => some .signalStyle
  | makeClear | addSignals _ _ | removeSignals | makeTrack _ _ _ | makeDepot _ _ _
  | makeWaypoint _ _ _ _ | setRail _ | overwrite _ => none

/-- The number that an edit of an item writes for it. -/
def item : Edit → UInt8
  | setKind k => code k
  | setHeight h => h
  | setOwner o => o.number
  | setRailType r | setCrossingRailType r | setBridgeRailType r => code r
  | setTracks s => s.bits
  | setCustomSprite custom => custom.toUInt8
  | setSignalKind k => code k
  | setSignalStyle s => code s
  | _ => 0

/-- What an edit of an item asks of the record before it writes. -/
def check : Edit → Tile → Except TileFault Unit
  | setOwner o => fun x => do
    x.requireOwned
    unless o.Fits do throw (.ownerTooWide o)
  | setCrossingRailType _ => Tile.requireCrossing
  | setBridgeRailType _ => Tile.requireBridge
  | setTracks _ => Tile.requireTracks
  | setCustomSprite _ => Tile.requireWaypoint
  | setSignalKind _ | setSignalStyle _ => Tile.requireSignals
  | _ => fun _ => .ok ()

/-- The reader of the item of an edit answers on the tile with the item. Of tracks it answers with
the six that there are. -/
def ReadBack (m : TileMap) (t : TileIndex) : Edit → Prop
  | setKind k => m.ask t Tile.kind = .ok k
  | setHeight h => (m.tile t).map Tile.height = .ok h
  | setOwner o => m.ask t Tile.owner = .ok o
  | setRailType r => m.ask t Tile.railType = .ok r
  | setCrossingRailType r => m.ask t Tile.crossingRailType = .ok r
  | setBridgeRailType r => m.ask t Tile.bridgeRailType = .ok r
  | setTracks s => m.ask t Tile.tracks = .ok ⟨s.bits &&& 0x3F⟩
  | setCustomSprite custom => m.ask t Tile.hasCustomSprite = .ok custom
  | setSignalKind k => m.ask t Tile.signalKind = .ok k
  | setSignalStyle s => m.ask t Tile.signalStyle = .ok s
  | _ => False

variable {m : TileMap} {t : TileIndex} {e : Edit} {f : Field} {x : Tile} {v : UInt8} {o : Owner}

/-- The field of the layout is the one that lies where the item does. -/
theorem field_of_place (h : e.place? = some (f.column, f.range)) : e.field? = some f := by
  cases f
  cases e <;> cases h <;> rfl

/-- An edit of an item looks at the record and then writes the item to its field. -/
theorem change_eq_guarded (he : e.field? = some f) :
    e.change = .guarded e.check (·.put f e.item) := by
  cases e <;> cases he <;> rfl

/-- No edit of an item writes to the bits that its check looks at. -/
theorem check_put (he : e.field? = some f) : e.check (x.put f v) = e.check x := by
  -- a check looks at the kind and, on railway tiles, at the bits above those of tracks
  cases e with
  | setOwner o =>
    obtain rfl : Field.owner = f := Option.some.inj he
    have howned : (x.put .owner v).requireOwned = x.requireOwned :=
      Tile.requireOwned_put (by decide)
    simp only [check, howned]
  | setCrossingRailType r =>
    cases he
    exact Tile.requireCrossing_put (by decide)
  | setBridgeRailType r =>
    cases he
    exact Tile.requireBridge_put (by decide)
  | setTracks s =>
    cases he
    exact Tile.requireTracks_put (by decide) (by decide)
  | setCustomSprite custom =>
    cases he
    exact Tile.requireWaypoint_put (by decide) (by decide) (by decide)
  | setSignalKind k | setSignalStyle s =>
    cases he
    exact Tile.requireSignals_put (by decide) (by decide)
  | _ => rfl

theorem check_setOwner_eq_ok_iff :
    (setOwner o).check x = .ok () ↔ x.requireOwned = .ok () ∧ o.Fits := by
  unfold check
  cases howned : x.requireOwned with
  | error f => simp [howned, bind, Except.bind]
  | ok u =>
    by_cases ho : o.Fits
    · simp [howned, ho, bind, Except.bind, pure, Except.pure]
    · simp [howned, ho, bind, Except.bind, throw, throwThe, MonadExceptOf.throw]

end Edit

namespace Change

/-- A guarded change is refused for what its check says and for nothing else. -/
theorem outcome_guarded {check : Tile → Except TileFault Unit} {w : Tile → Tile} {x : Tile} :
    ((guarded check w).on x).1 = check x := by
  cases h : check x with
  | ok u => rw [on_guarded_of_ok h]
  | error f => rw [on_guarded_of_error h]

end Change

namespace TileMap

variable {m n : TileMap} {t u : TileIndex} {d e : Edit} {f g : Field} {x y : Tile} {v : UInt8}

/-- Where an item was written after its check had passed, its reader answers with it. -/
theorem readBack_of_tile (he : e.field? = some f) (hfault : e.argumentFault? = none)
    (hcheck : e.check x = .ok ()) (hy : m.tile t = .ok (x.put f e.item)) : e.ReadBack m t := by
  cases e with
  | setKind k =>
    cases he
    exact ask_of_tile hy Tile.kind_put
  | setHeight h =>
    cases he
    have hheight := Tile.height_put (x := x) (Edit.argumentFault_setHeight_iff.mp hfault)
    rw [Edit.ReadBack, hy]
    exact congrArg Except.ok hheight
  | setOwner o =>
    cases he
    obtain ⟨howned, ho⟩ := Edit.check_setOwner_eq_ok_iff.mp hcheck
    exact ask_of_tile hy (Tile.owner_put howned ho)
  | setRailType r =>
    cases he
    exact ask_of_tile hy Tile.railType_put
  | setCrossingRailType r =>
    cases he
    exact ask_of_tile hy (Tile.crossingRailType_put hcheck)
  | setBridgeRailType r =>
    cases he
    exact ask_of_tile hy (Tile.bridgeRailType_put hcheck)
  | setTracks s =>
    cases he
    exact ask_of_tile hy (Tile.tracks_put hcheck)
  | setCustomSprite custom =>
    cases he
    exact ask_of_tile hy (Tile.hasCustomSprite_put hcheck)
  | setSignalKind k =>
    cases he
    exact ask_of_tile hy (Tile.signalKind_put hcheck)
  | setSignalStyle s =>
    cases he
    exact ask_of_tile hy (Tile.signalStyle_put hcheck)
  | makeClear | addSignals k s | removeSignals | makeTrack o s r | makeDepot o d r
  | makeWaypoint o a r index | setRail r | overwrite x => cases he

/-! ### Edits of an item on a map -/

/-- What an edit of an item answers on a tile of the map: its argument and its check decide. -/
theorem edit_outcome_of_field (he : e.field? = some f) (hfault : e.argumentFault? = none)
    (hx : m.tile t = .ok x) : (m.edit t e).1 = ofTile t (e.check x) := by
  simp only [edit_eq, hx, Edit.onTile, hfault, Edit.change_eq_guarded he, Change.outcome_guarded]

/-- An edit of an item that passes its check writes its field and nothing else. -/
theorem edit_of_check (he : e.field? = some f) (hfault : e.argumentFault? = none)
    (hx : m.tile t = .ok x) (hcheck : e.check x = .ok ()) :
    m.edit t e = (.ok (), m.setTile t (x.put f e.item)) := by
  refine edit_of_change hfault hx ?_
  rw [Edit.change_eq_guarded he, Change.on_guarded_of_ok hcheck]

/-- An edit of an item that succeeds was made on a tile of the map that passed its check. -/
theorem check_of_edit (he : e.field? = some f) (hok : (m.edit t e).1 = .ok ()) :
    e.argumentFault? = none ∧ ∃ x, m.tile t = .ok x ∧ e.check x = .ok () := by
  cases hfault : e.argumentFault? with
  | some fault =>
    rw [edit_of_argumentFault hfault] at hok
    cases hok
  | none =>
    by_cases ht : m.Valid t
    · refine ⟨rfl, m.get t ht, tile_of_valid ht, ?_⟩
      rw [edit_outcome_of_field he hfault (tile_of_valid ht)] at hok
      cases hcheck : e.check (m.get t ht) with
      | ok u => rfl
      | error fault =>
        rw [hcheck] at hok
        cases hok
    · rw [edit_of_not_valid hfault ht] at hok
      cases hok

/-- An edit of an item that succeeds has written its field and nothing else. -/
theorem edit_of_ok (he : e.field? = some f) (hok : (m.edit t e).1 = .ok ())
    (hx : m.tile t = .ok x) : (m.edit t e).2 = m.setTile t (x.put f e.item) := by
  obtain ⟨hfault, z, hz, hcheck⟩ := check_of_edit he hok
  obtain rfl : x = z := Except.ok.inj (hx.symm.trans hz)
  rw [edit_of_check he hfault hx hcheck]

/-- The second map is the first but for the bits of a field of one tile. -/
structure AgreesBeside (m n : TileMap) (t : TileIndex) (f : Field) : Prop where
  /-- The edge along the x axis is the same. -/
  logX : n.logX = m.logX
  /-- The edge along the y axis is the same. -/
  logY : n.logY = m.logY
  /-- The number of tiles is the same. -/
  size : n.size = m.size
  /-- The other records are the same. -/
  others : ∀ i, i ≠ t.number.toNat → n.tiles[i]? = m.tiles[i]?
  /-- The other bits of the record are the same. -/
  record : ∃ x y, m.tile t = .ok x ∧ n.tile t = .ok y ∧ y.m2 = x.m2 ∧
    ∀ c i, ¬ (c = f.column ∧ f.range.Covers i) →
      (y.byte c).toNat.testBit i = (x.byte c).toNat.testBit i

/-- A write to a field of a record keeps everything beside the field. -/
theorem agreesBeside_setTile (hx : m.tile t = .ok x) :
    m.AgreesBeside (m.setTile t (x.put f v)) t f where
  logX := rfl
  logY := rfl
  size := Array.size_setIfInBounds
  others _ hi := Array.getElem?_setIfInBounds_ne (Ne.symm hi)
  record := ⟨x, x.put f v, hx, tile_setTile_of_tile hx, Tile.m2_put,
    fun _ _ hi => Tile.testBit_byte_put hi⟩

/-- An edit of an item that an earlier one wrote answers as if that had not been, and leaves the
map as if that had not been. -/
theorem edit_setTile (hd : d.field? = some f) (hx : m.tile t = .ok x) :
    ((m.setTile t (x.put f v)).edit t d).1 = (m.edit t d).1 ∧
      ((m.edit t d).1 = .ok () →
        ((m.setTile t (x.put f v)).edit t d).2 = (m.edit t d).2) := by
  have hy : (m.setTile t (x.put f v)).tile t = .ok (x.put f v) := tile_setTile_of_tile hx
  have hanswer : ((m.setTile t (x.put f v)).edit t d).1 = (m.edit t d).1 := by
    cases hfault : d.argumentFault? with
    | some fault => rw [edit_of_argumentFault hfault, edit_of_argumentFault hfault]
    | none =>
      rw [edit_outcome_of_field hd hfault hy, edit_outcome_of_field hd hfault hx,
        Edit.check_put hd]
  refine ⟨hanswer, fun hok => ?_⟩
  rw [edit_of_ok hd (hanswer.trans hok) hy, edit_of_ok hd hok hx, setTile_setTile, Tile.put_put]

/-- Edits of items in places that do not meet leave the same map in either order, if they succeed
in both. -/
theorem edit_comm_of_disjoint (he : e.field? = some f) (hd : d.field? = some g)
    (hapart : t ≠ u ∨ f.Disjoint g) (hfirst : (m.edit t e).1 = .ok ())
    (hsecond : ((m.edit t e).2.edit u d).1 = .ok ()) (hfirst' : (m.edit u d).1 = .ok ())
    (hsecond' : ((m.edit u d).2.edit t e).1 = .ok ()) :
    ((m.edit t e).2.edit u d).2 = ((m.edit u d).2.edit t e).2 := by
  -- on one tile both orders come to two writes to one record; on two tiles no success is needed
  by_cases hne : t = u
  · subst hne
    have hdisjoint : f.Disjoint g := hapart.resolve_left (not_not_intro rfl)
    obtain ⟨-, x, hx, -⟩ := check_of_edit he hfirst
    rw [edit_of_ok he hfirst hx] at hsecond ⊢
    rw [edit_of_ok hd hfirst' hx] at hsecond' ⊢
    rw [edit_of_ok hd hsecond (tile_setTile_of_tile hx),
      edit_of_ok he hsecond' (tile_setTile_of_tile hx), setTile_setTile, setTile_setTile,
      Tile.put_comm_of_disjoint hdisjoint]
  · rw [edit_comm_of_ne hne]

/-- An edit of an item that succeeds keeps every bit beside the item, on its tile and on all others,
and the reader of the item answers with what was written. A second edit of the item then answers
and leaves the map as if the first had not been made, and an edit of an item elsewhere may be made
before it as well as after it, if both succeed in both orders. -/
theorem edit_field (he : e.place? = some (f.column, f.range)) (hok : (m.edit t e).1 = .ok ()) :
    let n := (m.edit t e).2
    m.AgreesBeside n t f ∧ e.ReadBack n t ∧
      (∀ d, d.place? = some (f.column, f.range) → (n.edit t d).1 = (m.edit t d).1 ∧
        ((m.edit t d).1 = .ok () → (n.edit t d).2 = (m.edit t d).2)) ∧
      ∀ u d g, d.place? = some (g.column, g.range) → t ≠ u ∨ f.Disjoint g →
        (n.edit u d).1 = .ok () → (m.edit u d).1 = .ok () →
          ((m.edit u d).2.edit t e).1 = .ok () → (n.edit u d).2 = ((m.edit u d).2.edit t e).2 := by
  intro n
  have hfield := Edit.field_of_place he
  obtain ⟨hfault, x, hx, hcheck⟩ := check_of_edit hfield hok
  have hn : n = m.setTile t (x.put f e.item) := edit_of_ok hfield hok hx
  refine ⟨?_, ?_, fun d hd => ?_, fun u d g hd hapart hsecond hfirst' hsecond' => ?_⟩
  · rw [hn]
    exact agreesBeside_setTile hx
  · rw [hn]
    exact readBack_of_tile hfield hfault hcheck (tile_setTile_of_tile hx)
  · rw [hn]
    exact edit_setTile (Edit.field_of_place hd) hx
  · exact edit_comm_of_disjoint hfield (Edit.field_of_place hd) hapart hok hsecond hfirst' hsecond'

/-- A waypoint loses the look of its own, which is the bit above its rail type: the rail type can be
set before or after. -/
theorem edit_field_waypoint :
    let m : TileMap := ⟨0, 0, #[⟨0x15, 0xE3, 0xBEEF, 0xB2, 0xF5, 0xC5⟩]⟩
    let plain : Edit := .setCustomSprite false
    let maglev : Edit := .setRailType .maglev
    (m.edit ⟨0⟩ plain).1 = .ok () ∧
      (m.edit ⟨0⟩ plain).2 = ⟨0, 0, #[⟨0x15, 0xE3, 0xBEEF, 0xA2, 0xF5, 0xC5⟩]⟩ ∧
      (m.edit ⟨0⟩ plain).2.ask ⟨0⟩ Tile.hasCustomSprite = .ok false ∧
      ((m.edit ⟨0⟩ plain).2.edit ⟨0⟩ maglev).2 = ((m.edit ⟨0⟩ maglev).2.edit ⟨0⟩ plain).2 := by
  intro m plain maglev
  have hwaypoint (x : Tile) (h : x.isWaypoint = true) : plain.check x = .ok () :=
    Tile.requireFacility_eq_ok_iff.mpr h
  have hok : (m.edit ⟨0⟩ plain).1 = .ok () :=
    congrArg Prod.fst (edit_of_check rfl rfl rfl (hwaypoint _ (by decide)))
  obtain ⟨-, hread, -, hcomm⟩ := edit_field (f := .customSprite) rfl hok
  have hplain : (m.edit ⟨0⟩ plain).2 = ⟨0, 0, #[⟨0x15, 0xE3, 0xBEEF, 0xA2, 0xF5, 0xC5⟩]⟩ := by
    decide
  refine ⟨hok, hplain, hread, hcomm ⟨0⟩ maglev .railType rfl (.inr (by decide)) ?_ rfl ?_⟩
  · rw [hplain]
    rfl
  · exact congrArg Prod.fst (edit_of_check rfl rfl rfl (hwaypoint _ (by decide)))

end TileMap

end RailGrid
