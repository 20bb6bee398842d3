import RailGrid.Proofs.Rail.Stored

/-!
# The record a constructor leaves

Laying out a tile writes every byte of the record, so the result is a function of the content, the
height and the three bits beside the owner. `Tile.laidOut` is this function: it stores the content
that was asked for, and laying out the result once more changes nothing.
-/

namespace RailGrid

open Enumeration

/-- The bits beside the owner, which have no meaning. -/
def Field.besideOwner : Field := { column := .m1, range := ⟨5, 3⟩ }

namespace Tile

/-- The record as an empty railway tile. -/
def bareRailway (x : Tile) (o : Owner) (t : RailType) : Tile :=
  { (x.put .kind (code TileKind.railway)).put .owner o.number with
    m2 := 0, m3 := code t, m4 := 0, m5 := 0 }

/-- The record laid out for a content. -/
def laidOut (x : Tile) : RailTile → Tile
  | .track o t s => (x.bareRailway o t).put .tracks s.bits
  | .signals o t s k y =>
    ((((x.bareRailway o t).put .tracks s.bits).put .railTag (code RailTag.signals)).put
      .signalKind (code k)).put .signalStyle (code y)
  | .depot o t d =>
    (((x.bareRailway o t).put .railTag (code RailTag.facility)).put
      .facility (code Facility.depot)).put .depotDirection (code d)
  | .waypoint o t a i c =>
    ((({ x.bareRailway o t with m2 := i }.put .railTag (code RailTag.facility)).put
      .facility (code Facility.waypoint)).put .waypointAxis (code a)).put .customSprite c.toUInt8

variable {x y : Tile} {o : Owner} {t : RailType} {r : RailTile} {f : Field} {i : UInt16}

/-! ### Fields of an empty railway tile -/

/-- The number of the whole tile is no part of a field. -/
theorem get_with_m2 : ({ x with m2 := i } : Tile).get f = x.get f := by
  obtain ⟨column, range, hrange⟩ := f
  cases column <;> rfl

theorem readByte_zero {q : BitRange} : q.readByte 0 = 0 := by
  apply UInt8.toNat_inj.mp
  rw [BitRange.toNat_readByte]
  simp

theorem get_bareRailway_kind : (x.bareRailway o t).get .kind = code TileKind.railway := by
  have h : ((x.put .kind (code TileKind.railway)).put .owner o.number).get .kind =
      code TileKind.railway := by
    rw [get_put_of_disjoint (by decide), get_put_code (by decide)]
  exact h

theorem get_bareRailway_owner (ho : o.Fits) : (x.bareRailway o t).get .owner = o.number := by
  have h : ((x.put .kind (code TileKind.railway)).put .owner o.number).get .owner = o.number :=
    get_put_self ho
  exact h

theorem get_bareRailway_railType : (x.bareRailway o t).get .railType = code t := by
  have h : Field.railType.range.readByte (code t) = code t := by cases t <;> decide
  exact h

theorem get_bareRailway_customSprite : (x.bareRailway o t).get .customSprite = 0 := by
  have h : Field.customSprite.range.readByte (code t) = 0 := by cases t <;> decide
  exact h

/-- The columns of the form start out empty. -/
theorem get_bareRailway_of_form (h : f.column = .m4 ∨ f.column = .m5) :
    (x.bareRailway o t).get f = 0 := by
  rcases h with h | h <;> rw [get, h] <;> exact readByte_zero

theorem get_bareRailway_height : (x.bareRailway o t).get .height = x.get .height := by
  have h : ((x.put .kind (code TileKind.railway)).put .owner o.number).get .height =
      x.get .height := by
    rw [get_put_of_disjoint (by decide), get_put_of_disjoint (by decide)]
  exact h

theorem get_bareRailway_besideOwner :
    (x.bareRailway o t).get .besideOwner = x.get .besideOwner := by
  have h : ((x.put .kind (code TileKind.railway)).put .owner o.number).get .besideOwner =
      x.get .besideOwner := by
    rw [get_put_of_disjoint (by decide), get_put_of_disjoint (by decide)]
  exact h

/-- Nothing of the old record is left but the height and the bits beside the owner. -/
theorem bareRailway_eq (hheight : x.get .height = y.get .height)
    (hbeside : x.get .besideOwner = y.get .besideOwner) :
    x.bareRailway o t = y.bareRailway o t := by
  have hkind := byte_put_eq_of_get_eq (f := .kind) (g := .height) (v := code TileKind.railway)
    rfl (by decide) hheight
  have howner := byte_put_eq_of_get_eq (f := .owner) (g := .besideOwner) (v := o.number)
    rfl (by decide) hbeside
  refine ext_byte (fun c => ?_) rfl
  cases c with
  | typeHeight => exact hkind
  | m1 => exact howner
  | m3 | m4 | m5 => rfl

/-! ### The layout of a content -/

/-- What no form uses is as on the empty railway tile. -/
theorem get_laidOut (h : ∀ g ∈ Field.ofForms, f.Disjoint g) :
    (x.laidOut r).get f = (x.bareRailway r.owner r.railType).get f := by
  simp only [Field.ofForms, List.forall_mem_cons] at h
  obtain ⟨htag, htracks, hkind, hstyle, hfacility, hdirection, haxis, hsprite, -⟩ := h
  cases r with
  | track o t s => exact get_put_of_disjoint htracks
  | signals o t s k y =>
    rw [laidOut, get_put_of_disjoint hstyle, get_put_of_disjoint hkind, get_put_of_disjoint htag,
      get_put_of_disjoint htracks]
    rfl
  | depot o t d =>
    rw [laidOut, get_put_of_disjoint hdirection, get_put_of_disjoint hfacility,
      get_put_of_disjoint htag]
    rfl
  | waypoint o t a i c =>
    rw [laidOut, get_put_of_disjoint hsprite, get_put_of_disjoint haxis,
      get_put_of_disjoint hfacility, get_put_of_disjoint htag, get_with_m2]
    rfl

theorem get_laidOut_railTag : (x.laidOut r).get .railTag = code r.tag := by
  cases r with
  | track o t s =>
    rw [laidOut, get_put_of_disjoint (by decide), get_bareRailway_of_form (by decide)]
    rfl
  | signals o t s k y =>
    rw [laidOut, get_put_of_disjoint (by decide), get_put_of_disjoint (by decide),
      get_put_code (by decide)]
    rfl
  | depot o t d =>
    rw [laidOut, get_put_of_disjoint (by decide), get_put_of_disjoint (by decide),
      get_put_code (by decide)]
    rfl
  | waypoint o t a i c =>
    rw [laidOut, get_put_of_disjoint (by decide), get_put_of_disjoint (by decide),
      get_put_of_disjoint (by decide), get_put_code (by decide)]
    rfl

/-- The fields of the form hold the items, with the tracks cut down to the six that exist. -/
theorem storesForm_laidOut : (x.laidOut r).StoresForm r.truncate := by
  cases r with
  | track o t s => exact get_put
  | signals o t s k y =>
    refine ⟨?_, ?_, ?_⟩
    · rw [laidOut, get_put_of_disjoint (by decide), get_put_of_disjoint (by decide),
        get_put_of_disjoint (by decide), get_put]
      rfl
    · rw [laidOut, get_put_of_disjoint (by decide), get_put_code (by decide)]
    · rw [laidOut, get_put_code (by decide)]
  | depot o t d =>
    refine ⟨?_, ?_⟩
    · rw [laidOut, get_put_of_disjoint (by decide), get_put_code (by decide)]
    · rw [laidOut, get_put_code (by decide)]
  | waypoint o t a i c =>
    refine ⟨?_, ?_, ?_, ?_⟩
    · rw [laidOut, get_put_of_disjoint (by decide), get_put_of_disjoint (by decide),
        get_put_code (by decide)]
    · rw [laidOut, get_put_of_disjoint (by decide), get_put_code (by decide)]
    · simp only [laidOut, m2_put]
    · rw [laidOut, get_put_self (by cases c <;> decide)]

/-- The layout of a content whose owner fits holds the content. -/
theorem stores_laidOut (ho : r.owner.Fits) : (x.laidOut r).Stores r.truncate := by
  have howner : r.truncate.owner = r.owner := by cases r <;> rfl
  have htype : r.truncate.railType = r.railType := by cases r <;> rfl
  have htag : r.truncate.tag = r.tag := by cases r <;> rfl
  refine ⟨?_, ?_, ?_, ?_, storesForm_laidOut⟩
  · rw [get_laidOut (by decide), get_bareRailway_kind]
  · rw [get_laidOut (by decide), get_bareRailway_owner ho, howner]
  · rw [get_laidOut (by decide), get_bareRailway_railType, htype]
  · rw [get_laidOut_railTag, htag]

theorem get_laidOut_height : (x.laidOut r).get .height = x.get .height := by
  rw [get_laidOut (by decide), get_bareRailway_height]

theorem get_laidOut_besideOwner : (x.laidOut r).get .besideOwner = x.get .besideOwner := by
  rw [get_laidOut (by decide), get_bareRailway_besideOwner]

/-- The layout depends on the height and the bits beside the owner alone. -/
theorem laidOut_eq (hheight : x.get .height = y.get .height)
    (hbeside : x.get .besideOwner = y.get .besideOwner) : x.laidOut r = y.laidOut r := by
  cases r <;> simp only [laidOut, bareRailway_eq hheight hbeside]

/-- Laying out the result once more changes nothing. -/
@[simp] theorem laidOut_laidOut : (x.laidOut r).laidOut r = x.laidOut r :=
  laidOut_eq get_laidOut_height get_laidOut_besideOwner

/-! ### What is kept -/

theorem put_with_m2 {v : UInt8} :
    ({ x with m2 := i } : Tile).put f v = { x.put f v with m2 := i } := by
  obtain ⟨column, range, hrange⟩ := f
  cases column <;> rfl

section Kept

variable {v : UInt8} (hcolumn : f.column = .typeHeight ∨ f.column = .m1)
  (hkind : f.Disjoint .kind) (howner : f.Disjoint .owner)

include hcolumn hkind howner

/-- A field beside the kind or the owner may be written before the rest or after it. -/
theorem bareRailway_put : (x.put f v).bareRailway o t = (x.bareRailway o t).put f v := by
  have hwritten : (x.bareRailway o t).put f v =
      { ((x.put .kind (code TileKind.railway)).put .owner o.number).put f v with
        m2 := 0, m3 := code t, m4 := 0, m5 := 0 } := by
    obtain ⟨column, range, hrange⟩ := f
    rcases hcolumn with rfl | rfl <;> rfl
  rw [hwritten, ← put_comm_of_disjoint howner, ← put_comm_of_disjoint hkind]
  rfl

theorem laidOut_put : (x.put f v).laidOut r = (x.laidOut r).put f v := by
  have hcolumns : ∀ g ∈ Field.ofForms, g.column ≠ .typeHeight ∧ g.column ≠ .m1 := by decide
  have hforms : ∀ g ∈ Field.ofForms, f.Disjoint g := by
    intro g hg
    obtain ⟨htypeHeight, hm1⟩ := hcolumns g hg
    rcases hcolumn with hf | hf
    · exact .inl fun heq => htypeHeight (heq.symm.trans hf)
    · exact .inl fun heq => hm1 (heq.symm.trans hf)
  simp only [Field.ofForms, List.forall_mem_cons] at hforms
  obtain ⟨htag, htracks, hkind', hstyle, hfacility, hdirection, haxis, hsprite, -⟩ := hforms
  have hbare {o t} := bareRailway_put (x := x) (v := v) (o := o) (t := t) hcolumn hkind howner
  cases r with
  | track o t s => rw [laidOut, laidOut, hbare, ← put_comm_of_disjoint htracks]
  | signals o t s k y =>
    rw [laidOut, laidOut, hbare, ← put_comm_of_disjoint hstyle, ← put_comm_of_disjoint hkind',
      ← put_comm_of_disjoint htag, ← put_comm_of_disjoint htracks]
  | depot o t d =>
    rw [laidOut, laidOut, hbare, ← put_comm_of_disjoint hdirection,
      ← put_comm_of_disjoint hfacility, ← put_comm_of_disjoint htag]
  | waypoint o t a i c =>
    rw [laidOut, laidOut, hbare, ← put_comm_of_disjoint hsprite, ← put_comm_of_disjoint haxis,
      ← put_comm_of_disjoint hfacility, ← put_comm_of_disjoint htag,
      put_with_m2 (x := x.bareRailway o t) (i := i)]

end Kept

end Tile

namespace Change

open Tile

variable {x : Tile} {o : Owner} {t : RailType} {r : RailTile} {k : SignalKind} {y : SignalStyle}
  {s : TrackSet} {d : Direction} {a : Axis} {i : UInt16}

/-! ### Running the constructors -/

/-- Plain track takes signals: each of the three writes passes its check. -/
theorem on_addSignals (hkind : x.isKind .railway = true)
    (htag : x.get .railTag = code RailTag.plain) : (addSignals k y).on x =
      (.ok (), ((x.put .railTag (code RailTag.signals)).put .signalKind (code k)).put
        .signalStyle (code y)) := by
  have hplain := requirePlain_eq_ok_iff.mpr ⟨hkind, ofByte_m5_iff.mpr htag⟩
  let marked := x.put .railTag (code RailTag.signals)
  have hmarked : marked.requireSignals = .ok () := by
    refine requireSignals_eq_ok_iff.mpr ⟨?_, ofByte_m5_iff.mpr (get_put_code (by decide))⟩
    rw [isKind_put_of_disjoint (by decide), hkind]
  have hchosen : (marked.put .signalKind (code k)).requireSignals = .ok () := by
    refine requireSignals_eq_ok_iff.mpr ⟨?_, ofByte_m5_iff.mpr ?_⟩
    · rw [isKind_put_of_disjoint (by decide), isKind_put_of_disjoint (by decide), hkind]
    · rw [get_put_of_disjoint (by decide), get_put_code (by decide)]
  rw [addSignals, on_seq_of_ok (on_guarded_of_ok hplain), setSignalKind,
    on_seq_of_ok (on_guarded_of_ok hmarked), setSignalStyle, on_guarded_of_ok hchosen]

/-- Anything but plain track is refused at the first of the three writes. -/
theorem on_addSignals_of_error {e : TileFault} (h : x.requirePlain = .error e) :
    (addSignals k y).on x = (.error e, x) :=
  on_seq_of_error (on_guarded_of_error h)

theorem on_makeTrack_of_fits (ho : o.Fits) :
    (makeTrack o s t).on x = (.ok (), x.laidOut (.track o t s)) := by
  rw [makeTrack, on_seq_of_ok (on_makeRailway_of_fits ho), on_always]
  rfl

theorem on_makeDepot_of_fits (ho : o.Fits) :
    (makeDepot o d t).on x = (.ok (), x.laidOut (.depot o t d)) := by
  rw [makeDepot, on_seq_of_ok (on_makeRailway_of_fits ho), on_always]
  rfl

/-- A new waypoint has the common look, since the bit of the sprite is clear from the start. -/
theorem on_makeWaypoint_of_fits (ho : o.Fits) :
    (makeWaypoint o a t i).on x = (.ok (), x.laidOut (.waypoint o t a i false)) := by
  let built := (({ x.bareRailway o t with m2 := i }.put .railTag (code RailTag.facility)).put
    .facility (code Facility.waypoint)).put .waypointAxis (code a)
  have hsprite : built.get .customSprite = false.toUInt8 := by
    rw [get_put_of_disjoint (by decide), get_put_of_disjoint (by decide),
      get_put_of_disjoint (by decide), get_with_m2, get_bareRailway_customSprite]
    rfl
  have hlaid : x.laidOut (.waypoint o t a i false) = built := by
    have hput : x.laidOut (.waypoint o t a i false) = built.put .customSprite false.toUInt8 := rfl
    rw [hput, ← hsprite, put_get]
  rw [makeWaypoint, on_seq_of_ok (on_makeRailway_of_fits ho), on_always, hlaid]
  rfl

/-- A content whose owner fits is never refused, and leaves its layout. -/
theorem on_setRail_of_fits (ho : r.owner.Fits) : (setRail r).on x = (.ok (), x.laidOut r) := by
  cases r with
  | track o t s => exact on_makeTrack_of_fits ho
  | signals o t s k y =>
    have hstores := stores_laidOut (x := x) (r := .track o t s) ho
    have htrack := on_makeTrack_of_fits (o := o) (t := t) (s := s) (x := x) ho
    rw [setRail, on_seq_of_ok htrack, on_addSignals hstores.isKind hstores.tag]
    rfl
  | depot o t d => exact on_makeDepot_of_fits ho
  | waypoint o t a i c =>
    have hbuilt := on_makeWaypoint_of_fits (o := o) (t := t) (a := a) (i := i) (x := x) ho
    rw [setRail, on_seq_of_ok hbuilt]
    cases c with
    | false => rfl
    | true =>
      have hstores := stores_laidOut (x := x) (r := .waypoint o t a i false) ho
      have hwaypoint : (x.laidOut (.waypoint o t a i false)).requireWaypoint = .ok () :=
        hstores.requireWaypoint_iff.mpr rfl
      have hrun := on_guarded_of_ok (f := (·.put .customSprite true.toUInt8)) hwaypoint
      rw [laidOut, put_put] at hrun
      exact hrun

/-- A constructor stops at an owner too wide for the record, once the tile is a railway tile. -/
theorem on_makeRailway_then_of_not_fits {c : Change} (ho : ¬ o.Fits) :
    on (do makeRailway o t; c) x =
      (.error (.ownerTooWide o), x.put .kind (code TileKind.railway)) :=
  on_seq_of_error (on_makeRailway_of_not_fits ho)

theorem on_setRail_of_not_fits (ho : ¬ r.owner.Fits) : (setRail r).on x =
    (.error (.ownerTooWide r.owner), x.put .kind (code TileKind.railway)) := by
  cases r with
  | track o t s => exact on_makeRailway_then_of_not_fits ho
  | signals o t s k y => exact on_seq_of_error (on_makeRailway_then_of_not_fits ho)
  | depot o t d => exact on_makeRailway_then_of_not_fits ho
  | waypoint o t a i c => exact on_seq_of_error (on_makeRailway_then_of_not_fits ho)

/-- Making a waypoint is laying out a waypoint with the common look. -/
theorem on_makeWaypoint :
    (makeWaypoint o a t i).on x = (setRail (.waypoint o t a i false)).on x := by
  by_cases ho : o.Fits
  · rw [on_makeWaypoint_of_fits ho]
    exact (on_setRail_of_fits (r := .waypoint o t a i false) ho).symm
  · have hbuilt : (makeWaypoint o a t i).on x = _ := on_makeRailway_then_of_not_fits ho
    rw [hbuilt]
    exact (on_setRail_of_not_fits (r := .waypoint o t a i false) ho).symm

end Change

end RailGrid
