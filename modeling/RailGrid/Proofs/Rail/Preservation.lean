import RailGrid.Proofs.Rail.Construction
import RailGrid.Proofs.Tile.WellFormed
import RailGrid.Tile.Edit

/-!
# Edits keep records well formed

The layout of a content is well formed, and every edit but the replacement of the whole record keeps
a well-formed record so: a guarded write by what its check says, a constructor also when it is
refused half way.
-/

namespace RailGrid

open Enumeration

namespace Tile.WellFormed

variable {x : Tile} {t : RailType} {r : RailTile} {o : Owner}

/-! ### Constructors -/

theorem empty : ({} : Tile).WellFormed :=
  ⟨by decide, by decide, by decide, by decide, by decide, by decide⟩

theorem bareRailway (h : x.WellFormed) : (x.bareRailway o t).WellFormed := by
  have hheader := (h.put_kind (k := .railway)).put_owner (v := o.number)
  have hcode : (code t).toNat < 4 := code_lt t
  have hm3 : (x.bareRailway o t).m3.toNat = (code t).toNat := rfl
  exact { kind_le := hheader.kind_le
          m1_le := hheader.m1_le
          m3_low_le := by omega
          m3_high_le := by omega
          m4_le := Nat.zero_le 7
          m5_assigned := Or.inl (Nat.zero_le _) }

/-- The byte of a depot: the tag, no facility bits, and one of four edges. -/
theorem depot_byte (d : Direction) :
    let b := Field.depotDirection.range.writeByte (Field.facility.range.writeByte
      (Field.railTag.range.writeByte 0 (code RailTag.facility)) (code Facility.depot)) (code d)
    0xC0 ≤ b.toNat ∧ b.toNat ≤ 0xC5 := by
  cases d <;> decide

/-- The byte of a waypoint: the tag, the lowest facility bit, and one of two axes. -/
theorem waypoint_byte (a : Axis) :
    let b := Field.waypointAxis.range.writeByte (Field.facility.range.writeByte
      (Field.railTag.range.writeByte 0 (code RailTag.facility)) (code Facility.waypoint)) (code a)
    0xC0 ≤ b.toNat ∧ b.toNat ≤ 0xC5 := by
  cases a <;> decide

theorem laidOut (h : x.WellFormed) : (x.laidOut r).WellFormed := by
  have hbare : (x.bareRailway r.owner r.railType).WellFormed := h.bareRailway
  have hempty : (x.bareRailway r.owner r.railType).m5.toNat ≤ 0x7F := Nat.zero_le _
  cases r with
  | track o t s => exact hbare.put_tracks hempty
  | signals o t s k y =>
    have htracks := hbare.put_tracks (v := s.bits) hempty
    have hm5 := toNat_m5_put_tracks_le (v := s.bits) hempty
    exact ((htracks.put_railTag hm5 (by decide)).put_signalKind).put_signalStyle
  | depot o t d => exact { hbare with m5_assigned := Or.inr (depot_byte d) }
  | waypoint o t a i c =>
    have hsprite := hbare.put_customSprite (v := c.toUInt8)
    exact { hsprite with m5_assigned := Or.inr (waypoint_byte a) }

/-! ### Changes -/

/-- A guarded change keeps well-formed records if its write does so where the check passes. -/
theorem on_guarded {check : Tile → Except TileFault Unit} {f : Tile → Tile} (h : x.WellFormed)
    (hwrite : check x = .ok () → (f x).WellFormed) :
    ((Change.guarded check f).on x).2.WellFormed := by
  cases hcheck : check x with
  | ok _ =>
    rw [Change.on_guarded_of_ok hcheck]
    exact hwrite hcheck
  | error e =>
    rw [Change.on_guarded_of_error hcheck]
    exact h

/-- Tags that store tracks are below those of facilities. -/
theorem toNat_m5_le (htag : (RailTag.ofByte x.m5).hasTracks = true) : x.m5.toNat ≤ 0x7F := by
  have hfield : (x.get .railTag).toNat = x.m5.toNat / 64 % 4 := toNat_get
  have hlt : x.m5.toNat < 256 := x.m5.toNat_lt
  rw [ofByte_m5_iff.mp rfl] at hfield
  cases hcase : RailTag.ofByte x.m5 with
  | plain =>
    rw [hcase, show (code RailTag.plain).toNat = 0 from rfl] at hfield
    omega
  | signals =>
    rw [hcase, show (code RailTag.signals).toNat = 1 from rfl] at hfield
    omega
  | unused | facility =>
    rw [hcase] at htag
    cases htag

theorem on_addSignals {k : SignalKind} {y : SignalStyle} (h : x.WellFormed) :
    ((Change.addSignals k y).on x).2.WellFormed := by
  -- the check of plain track is the only one that can fail, so nothing is left half way
  cases hplain : x.requirePlain with
  | ok _ =>
    obtain ⟨hkind, htag⟩ := requirePlain_eq_ok_iff.mp hplain
    have hm5 := toNat_m5_le (by rw [htag]; rfl)
    rw [Change.on_addSignals hkind (ofByte_m5_iff.mp htag)]
    exact ((h.put_railTag hm5 (by decide)).put_signalKind).put_signalStyle
  | error e =>
    rw [Change.on_addSignals_of_error hplain]
    exact h

/-- An owner that is refused leaves the tile a railway tile and the rest of it as it was. -/
theorem on_setRail (h : x.WellFormed) : ((Change.setRail r).on x).2.WellFormed := by
  by_cases ho : r.owner.Fits
  · rw [Change.on_setRail_of_fits ho]
    exact h.laidOut
  · rw [Change.on_setRail_of_not_fits ho]
    exact h.put_kind

/-- Every edit but the replacement of the whole record keeps well-formed records, also when it is
refused. -/
theorem on_change {e : Edit} (he : ∀ y, e ≠ .overwrite y) (h : x.WellFormed) :
    (e.change.on x).2.WellFormed := by
  cases e with
  | setKind k => exact h.put_kind
  | setHeight v => exact h.put_height
  | setOwner o => exact h.on_guarded fun _ => h.put_owner
  | makeClear =>
    rw [Edit.change, Change.on_makeClear]
    exact empty.put_height.put_owner
  | setRailType t => exact h.put_railType
  | setCrossingRailType t => exact h.on_guarded fun _ => h.put_crossingRailType
  | setBridgeRailType t => exact h.on_guarded fun _ => h.put_bridgeRailType
  | setTracks s =>
    exact h.on_guarded fun hcheck =>
      h.put_tracks (toNat_m5_le (requireTracks_eq_ok_iff.mp hcheck).2)
  | setCustomSprite c => exact h.on_guarded fun _ => h.put_customSprite
  | setSignalKind k => exact h.on_guarded fun _ => h.put_signalKind
  | setSignalStyle y => exact h.on_guarded fun _ => h.put_signalStyle
  | addSignals k y => exact h.on_addSignals
  | removeSignals =>
    refine h.on_guarded fun hcheck => ?_
    obtain ⟨-, htag⟩ := requireSignals_eq_ok_iff.mp hcheck
    have hm5 : x.m5.toNat ≤ 0x7F := toNat_m5_le (by rw [htag]; rfl)
    exact h.put_signals.put_railTag hm5 (by decide)
  | makeTrack o s t => exact h.on_setRail (r := .track o t s)
  | makeDepot o d t => exact h.on_setRail (r := .depot o t d)
  | makeWaypoint o a t i =>
    rw [Edit.change, Change.on_makeWaypoint]
    exact h.on_setRail
  | setRail r => exact h.on_setRail
  | overwrite y => exact absurd rfl (he y)

end Tile.WellFormed

end RailGrid
