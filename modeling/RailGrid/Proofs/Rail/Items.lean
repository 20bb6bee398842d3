import RailGrid.Proofs.Rail.Stored

/-!
# Writing and reading one item

A record after a write to one of its fields: no bit beside the field has changed, so the checks that
look elsewhere pass or fail as before, and the reader of the item that was written answers with it
wherever its check had passed before the write.
-/

namespace RailGrid

open Enumeration

/-! ### Writes to a field, bit by bit -/

namespace BitRange

/-- A write to a range of a byte keeps the bits beside the range. -/
theorem testBit_writeByte_of_not_covers {r : BitRange} {b v : UInt8} {i : Nat}
    (h : ¬ r.Covers i) : (r.writeByte b v).toNat.testBit i = b.toNat.testBit i := by
  by_cases hi : i < 8
  · have hwrite : (r.write b.toBitVec v.toBitVec).getLsbD i = b.toBitVec.getLsbD i := by
      rw [getLsbD_write hi, if_neg h]
    exact hwrite
  · have hhigh (c : UInt8) : c.toNat.testBit i = false :=
      Nat.testBit_lt_two_pow (Nat.lt_of_lt_of_le c.toNat_lt
        (Nat.pow_le_pow_right (by decide) (Nat.not_lt.mp hi)))
    rw [hhigh, hhigh]

end BitRange

namespace Tile

variable {x : Tile} {f : Field} {v : UInt8} {c : Column} {i : Nat} {r : RailType} {o : Owner}

/-- A write to a field keeps every other bit of the packed bytes. -/
theorem testBit_byte_put (h : ¬ (c = f.column ∧ f.range.Covers i)) :
    ((x.put f v).byte c).toNat.testBit i = (x.byte c).toNat.testBit i := by
  by_cases hc : c = f.column
  · subst hc
    rw [byte_put_self, BitRange.testBit_writeByte_of_not_covers fun hi => h ⟨rfl, hi⟩]
  · rw [byte_put_of_ne hc]

/-! ### Checks do not see writes beside the bits they look at -/

theorem requireOwned_put (h : Field.kind.Disjoint f) :
    (x.put f v).requireOwned = x.requireOwned := by
  simp only [requireOwned, isKind_put_of_disjoint h]

theorem requireCrossing_put (h : Field.kind.Disjoint f) :
    (x.put f v).requireCrossing = x.requireCrossing := by
  simp only [requireCrossing, isKind_put_of_disjoint h]

theorem requireBridge_put (h : Field.kind.Disjoint f) :
    (x.put f v).requireBridge = x.requireBridge := by
  simp only [requireBridge, isKind_put_of_disjoint h]

theorem railTag_put (hkind : Field.kind.Disjoint f) (htag : Field.railTag.Disjoint f) :
    (x.put f v).railTag = x.railTag := by
  have hbyte : RailTag.ofByte (x.put f v).m5 = RailTag.ofByte x.m5 :=
    congrArg (ofCodeD · RailTag.facility) (get_put_of_disjoint htag)
  simp only [railTag, requireRailway, isKind_put_of_disjoint hkind, hbyte]

theorem requireTracks_put (hkind : Field.kind.Disjoint f) (htag : Field.railTag.Disjoint f) :
    (x.put f v).requireTracks = x.requireTracks := by
  simp only [requireTracks, railTag_put hkind htag]

theorem requireSignals_put (hkind : Field.kind.Disjoint f) (htag : Field.railTag.Disjoint f) :
    (x.put f v).requireSignals = x.requireSignals := by
  simp only [requireSignals, railTag_put hkind htag]

theorem requireWaypoint_put (hkind : Field.kind.Disjoint f) (htag : Field.railTag.Disjoint f)
    (hfacility : Field.facility.Disjoint f) : (x.put f v).requireWaypoint = x.requireWaypoint := by
  have hbyte : Facility.ofByte? (x.put f v).m5 = Facility.ofByte? x.m5 :=
    congrArg ofCode? (get_put_of_disjoint hfacility)
  simp only [requireWaypoint, requireFacility, testFacility, facility, railTag_put hkind htag,
    isKind_put_of_disjoint hkind, hbyte]

/-! ### What the readers answer -/

theorem kind_put {k : TileKind} : (x.put .kind (code k)).kind = .ok k :=
  kind_eq_ok_iff.mpr (by rw [isKind_put_kind, decide_eq_true rfl])

theorem height_put {h : UInt8} (hh : h < 16) : (x.put .height h).height = h :=
  get_put_self (UInt8.lt_iff_toNat_lt.mp hh)

theorem owner_put (hx : x.requireOwned = .ok ()) (ho : o.Fits) :
    (x.put .owner o.number).owner = .ok o := by
  have hnumber : (x.put .owner o.number).get .owner = o.number := get_put_self ho
  rw [owner, requireOwned_put (by decide), hx, hnumber]
  rfl

theorem railType_put : (x.put .railType (code r)).railType = .ok r :=
  railTypeIn_eq_ok_iff.mpr (get_put_code (by decide))

theorem crossingRailType_put (hx : x.requireCrossing = .ok ()) :
    (x.put .crossingRailType (code r)).crossingRailType = .ok r := by
  rw [crossingRailType, requireCrossing_put (by decide), hx]
  exact railTypeIn_eq_ok_iff.mpr (get_put_code (by decide))

theorem bridgeRailType_put (hx : x.requireBridge = .ok ()) :
    (x.put .bridgeRailType (code r)).bridgeRailType = .ok r := by
  rw [bridgeRailType, requireBridge_put (by decide), hx]
  exact railTypeIn_eq_ok_iff.mpr (get_put_code (by decide))

theorem tracks_put {s : TrackSet} (hx : x.requireTracks = .ok ()) :
    (x.put .tracks s.bits).tracks = .ok ⟨s.bits &&& 0x3F⟩ := by
  rw [tracks, requireTracks_put (by decide) (by decide), hx, truncate_get_tracks, get_put]
  rfl

theorem hasCustomSprite_put {custom : Bool} (hx : x.requireWaypoint = .ok ()) :
    (x.put .customSprite custom.toUInt8).hasCustomSprite = .ok custom := by
  have hbit : (x.put .customSprite custom.toUInt8).get .customSprite = custom.toUInt8 :=
    get_put_self (by cases custom <;> decide)
  rw [hasCustomSprite, requireWaypoint_put (by decide) (by decide) (by decide), hx, hbit]
  cases custom <;> rfl

theorem signalKind_put {k : SignalKind} (hx : x.requireSignals = .ok ()) :
    (x.put .signalKind (code k)).signalKind = .ok k := by
  rw [signalKind, requireSignals_put (by decide) (by decide), hx, get_put_code (by decide),
    ofCodeD_code]
  rfl

theorem signalStyle_put {y : SignalStyle} (hx : x.requireSignals = .ok ()) :
    (x.put .signalStyle (code y)).signalStyle = .ok y := by
  rw [signalStyle, requireSignals_put (by decide) (by decide), hx, get_put_code (by decide),
    ofCodeD_code]
  rfl

end Tile

end RailGrid
