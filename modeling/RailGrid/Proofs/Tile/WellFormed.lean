import RailGrid.Proofs.Rail.Stored

/-!
# Well-formed records

The edits leave parts of a record behind that its kind does not use, and a later edit may bring
them back into use. The bounds of `Tile.WellFormed` therefore hold for every kind at once. They are
kept by writes to single fields, and a record within them can be read by every reader.
-/

namespace RailGrid

open Enumeration

namespace Tile

/-- The bytes of the record stay within what the edits can write. -/
structure WellFormed (x : Tile) : Prop where
  /-- The kind is one of the eleven known ones. -/
  kind_le : x.typeHeight.toNat / 16 ≤ 10
  /-- The bits beside the owner are clear. -/
  m1_le : x.m1.toNat ≤ 31
  /-- The lower half is a rail type. -/
  m3_low_le : x.m3.toNat % 16 ≤ 3
  /-- The upper half is a rail type. -/
  m3_high_le : x.m3.toNat / 16 ≤ 3
  /-- Nothing lies beside the signals. -/
  m4_le : x.m4.toNat ≤ 7
  /-- The tag has a layout, and a facility is a depot or a waypoint. -/
  m5_assigned : x.m5.toNat ≤ 0x7F ∨ (0xC0 ≤ x.m5.toNat ∧ x.m5.toNat ≤ 0xC5)

variable {x : Tile} {f : Field} {v : UInt8} {k : TileKind} {t : RailType}

/-- The tracks and the tag of a record without facility stay below those of a facility. -/
theorem toNat_m5_put_tracks_le (h : x.m5.toNat ≤ 0x7F) : (x.put .tracks v).m5.toNat ≤ 0x7F := by
  have hbyte : (x.put .tracks v).m5.toNat =
      x.m5.toNat / 64 * 64 + v.toNat % 64 * 1 + x.m5.toNat % 1 := toNat_byte_put x .tracks v
  omega

theorem toNat_m5_put_railTag_le (h : x.m5.toNat ≤ 0x7F) (hv : v.toNat ≤ 1) :
    (x.put .railTag v).m5.toNat ≤ 0x7F := by
  have hbyte : (x.put .railTag v).m5.toNat =
      x.m5.toNat / 256 * 256 + v.toNat % 4 * 64 + x.m5.toNat % 64 := toNat_byte_put x .railTag v
  omega

/-- The four lowest numbers are read as rail types. -/
theorem exists_railTypeIn (h : (x.get f).toNat ≤ 3) : ∃ t, x.railTypeIn f = .ok t := by
  obtain ⟨t, hcode⟩ := exists_ofCode?_get (α := RailType) (Nat.lt_succ_of_le h)
  exact ⟨t, by rw [railTypeIn, hcode]⟩

namespace WellFormed

/-! ### Single fields -/

theorem put_kind (h : x.WellFormed) : (x.put .kind (code k)).WellFormed := by
  have hcode : (code k).toNat < 11 := code_lt k
  have hlt : x.typeHeight.toNat < 256 := x.typeHeight.toNat_lt
  have hbyte : (x.put .kind (code k)).typeHeight.toNat =
      x.typeHeight.toNat / 256 * 256 + (code k).toNat % 16 * 16 + x.typeHeight.toNat % 16 :=
    toNat_byte_put x .kind (code k)
  exact { h with kind_le := by omega }

theorem put_height (h : x.WellFormed) : (x.put .height v).WellFormed := by
  have hkind := h.kind_le
  have hbyte : (x.put .height v).typeHeight.toNat =
      x.typeHeight.toNat / 16 * 16 + v.toNat % 16 * 1 + x.typeHeight.toNat % 1 :=
    toNat_byte_put x .height v
  exact { h with kind_le := by omega }

theorem put_owner (h : x.WellFormed) : (x.put .owner v).WellFormed := by
  have hm1 := h.m1_le
  have hbyte : (x.put .owner v).m1.toNat =
      x.m1.toNat / 32 * 32 + v.toNat % 32 * 1 + x.m1.toNat % 1 := toNat_byte_put x .owner v
  exact { h with m1_le := by omega }

theorem put_railType (h : x.WellFormed) : (x.put .railType (code t)).WellFormed := by
  have hcode : (code t).toNat < 4 := code_lt t
  have hhigh := h.m3_high_le
  have hbyte : (x.put .railType (code t)).m3.toNat =
      x.m3.toNat / 16 * 16 + (code t).toNat % 16 * 1 + x.m3.toNat % 1 :=
    toNat_byte_put x .railType (code t)
  exact { h with m3_low_le := by omega, m3_high_le := by omega }

theorem put_bridgeRailType (h : x.WellFormed) : (x.put .bridgeRailType (code t)).WellFormed := by
  have hcode : (code t).toNat < 4 := code_lt t
  have hlow := h.m3_low_le
  have hlt : x.m3.toNat < 256 := x.m3.toNat_lt
  have hbyte : (x.put .bridgeRailType (code t)).m3.toNat =
      x.m3.toNat / 256 * 256 + (code t).toNat % 16 * 16 + x.m3.toNat % 16 :=
    toNat_byte_put x .bridgeRailType (code t)
  exact { h with m3_low_le := by omega, m3_high_le := by omega }

theorem put_crossingRailType (h : x.WellFormed) :
    (x.put .crossingRailType (code t)).WellFormed := by
  have hcode : (code t).toNat < 4 := code_lt t
  have hm4 := h.m4_le
  have hbyte : (x.put .crossingRailType (code t)).m4.toNat =
      x.m4.toNat / 16 * 16 + (code t).toNat % 16 * 1 + x.m4.toNat % 1 :=
    toNat_byte_put x .crossingRailType (code t)
  exact { h with m4_le := by omega }

/-- The sprite bit is the lowest of the upper half, which stays a rail type with it. -/
theorem put_customSprite (h : x.WellFormed) : (x.put .customSprite v).WellFormed := by
  have hlow := h.m3_low_le
  have hhigh := h.m3_high_le
  have hbyte : (x.put .customSprite v).m3.toNat =
      x.m3.toNat / 32 * 32 + v.toNat % 2 * 16 + x.m3.toNat % 16 := toNat_byte_put x .customSprite v
  exact { h with m3_low_le := by omega, m3_high_le := by omega }

theorem put_signalKind (h : x.WellFormed) : (x.put .signalKind v).WellFormed := by
  have hm4 := h.m4_le
  have hbyte : (x.put .signalKind v).m4.toNat =
      x.m4.toNat / 4 * 4 + v.toNat % 4 * 1 + x.m4.toNat % 1 := toNat_byte_put x .signalKind v
  exact { h with m4_le := by omega }

theorem put_signalStyle (h : x.WellFormed) : (x.put .signalStyle v).WellFormed := by
  have hm4 := h.m4_le
  have hbyte : (x.put .signalStyle v).m4.toNat =
      x.m4.toNat / 8 * 8 + v.toNat % 2 * 4 + x.m4.toNat % 4 := toNat_byte_put x .signalStyle v
  exact { h with m4_le := by omega }

theorem put_signals (h : x.WellFormed) : (x.put .signals v).WellFormed := by
  have hm4 := h.m4_le
  have hbyte : (x.put .signals v).m4.toNat =
      x.m4.toNat / 8 * 8 + v.toNat % 8 * 1 + x.m4.toNat % 1 := toNat_byte_put x .signals v
  exact { h with m4_le := by omega }

/-- Tracks may be written where no facility stands. -/
theorem put_tracks (h : x.WellFormed) (hm5 : x.m5.toNat ≤ 0x7F) :
    (x.put .tracks v).WellFormed :=
  { h with m5_assigned := Or.inl (toNat_m5_put_tracks_le hm5) }

/-- The tag may be set to track or signals where no facility stands. -/
theorem put_railTag (h : x.WellFormed) (hm5 : x.m5.toNat ≤ 0x7F) (hv : v.toNat ≤ 1) :
    (x.put .railTag v).WellFormed :=
  { h with m5_assigned := Or.inl (toNat_m5_put_railTag_le hm5 hv) }

/-! ### Readers -/

/-- The kind of a well-formed record is known. -/
theorem exists_kind (h : x.WellFormed) : ∃ k, x.kind = .ok k := by
  have hkind := h.kind_le
  have hfield : (x.get .kind).toNat = x.typeHeight.toNat / 16 % 16 := toNat_get
  have hlt : (x.get .kind).toNat < (members : List TileKind).length := by
    rw [hfield]
    exact Nat.lt_of_le_of_lt (Nat.mod_le _ _) (Nat.lt_succ_of_le hkind)
  obtain ⟨k, hcode⟩ := exists_ofCode?_get hlt
  exact ⟨k, by rw [Tile.kind, hcode]⟩

theorem exists_railType (h : x.WellFormed) : ∃ t, x.railType = .ok t := by
  have hlow := h.m3_low_le
  have hfield : (x.get .railType).toNat = x.m3.toNat / 1 % 16 := toNat_get
  exact exists_railTypeIn (by omega)

theorem exists_bridgeRailType (h : x.WellFormed) (hkind : x.isKind .tunnelBridge = true) :
    ∃ t, x.bridgeRailType = .ok t := by
  have hhigh := h.m3_high_le
  have hfield : (x.get .bridgeRailType).toNat = x.m3.toNat / 16 % 16 := toNat_get
  obtain ⟨t, ht⟩ := exists_railTypeIn (x := x) (f := .bridgeRailType) (by omega)
  refine ⟨t, ?_⟩
  rw [Tile.bridgeRailType, requireBridge, if_pos hkind]
  exact ht

/-- The tag of a well-formed record is assigned, and so are the facility bits under it. -/
theorem exists_spelled (h : x.WellFormed) (t : RailType) : ∃ r, x.spelled? t = some r := by
  have hm5 := h.m5_assigned
  have htag : (code (RailTag.ofByte x.m5)).toNat = x.m5.toNat / 64 % 4 := by
    rw [← ofByte_m5_iff.mp rfl]
    exact toNat_get
  unfold spelled?
  cases hcase : RailTag.ofByte x.m5 with
  | plain => exact ⟨_, rfl⟩
  | signals => exact ⟨_, rfl⟩
  | unused =>
    rw [hcase, show (code RailTag.unused).toNat = 2 from rfl] at htag
    omega
  | facility =>
    rw [hcase, show (code RailTag.facility).toNat = 3 from rfl] at htag
    have hfield : (x.get .facility).toNat = x.m5.toNat / 4 % 16 := toNat_get
    have hlt : (x.get .facility).toNat < (members : List Facility).length := by
      rw [hfield, show (members : List Facility).length = 2 from rfl]
      omega
    obtain ⟨f, hcode⟩ := exists_ofCode?_get hlt
    have hf : Facility.ofByte? x.m5 = some f := hcode
    simp only [hf]
    cases f with
    | depot => exact ⟨_, rfl⟩
    | waypoint => exact ⟨_, rfl⟩

/-- A well-formed record is decoded, to a content exactly when the tile is a railway tile. -/
theorem exists_rail (h : x.WellFormed) :
    ∃ c, x.rail = .ok c ∧ (c.isSome = true ↔ x.isKind .railway = true) := by
  cases hkind : x.isKind .railway with
  | false => exact ⟨none, rail_of_not_railway hkind, by simp⟩
  | true =>
    obtain ⟨t, ht⟩ := h.exists_railType
    obtain ⟨r, hr⟩ := h.exists_spelled t
    refine ⟨some r, ?_, by simp⟩
    rw [rail_of_railway hkind, ht]
    exact congrArg Except.ok hr

end WellFormed

end Tile

end RailGrid
