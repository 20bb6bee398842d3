import RailGrid.Datum.Vehicles
import RailGrid.Proofs.Datum.Lawful
import RailGrid.Proofs.Text.Flags

/-!
# Canonical forms of tiles, maps and vehicles

Every type of this library that is written as data is read back from it, part by part. Each datum
that is accepted for such a type therefore has one canonical form, however it spells the value.
-/

namespace RailGrid

open Form LawfulForm

/-! ### Numbers and flag sets with a type of their own -/

instance : LawfulForm TileIndex where
  ofDatum?_toDatum t := congrArg (Option.map TileIndex.mk) (ofDatum?_toDatum t.number)

instance : LawfulForm Owner where
  ofDatum?_toDatum o := congrArg (Option.map Owner.mk) (ofDatum?_toDatum o.number)

instance : LawfulForm TrackSet where
  ofDatum?_toDatum s :=
    congrArg (Option.map TrackSet.mk) (FlagTable.read?_text TrackSet.flags_lawful s.bits)

instance : LawfulForm VehicleStatus where
  ofDatum?_toDatum s :=
    congrArg (Option.map VehicleStatus.mk) (FlagTable.read?_text VehicleStatus.flags_lawful s.bits)

/-! ### Records -/

instance : LawfulForm Tile where
  ofDatum?_toDatum _ := Datum.fields?_bind_ofFields (by decide) rfl (by simp)

instance : LawfulForm MapConfig where
  ofDatum?_toDatum _ := Datum.fields?_bind_ofFields (by decide) rfl (by simp)

instance : LawfulForm Generator where
  ofDatum?_toDatum _ := Datum.fields?_bind_ofFields (by decide) rfl (by simp)

instance : LawfulForm TileMap where
  ofDatum?_toDatum _ := Datum.fields?_bind_ofFields (by decide) rfl (by simp)

instance : LawfulForm RoadState where
  ofDatum?_toDatum _ := Datum.fields?_bind_ofFields (by decide) rfl (by simp)

/-! ### Choices with content -/

instance : LawfulForm VehicleKind where
  ofDatum?_toDatum kind := by
    cases kind with
    | road r =>
      have hstate : (ofDatum? (toDatum r)).bind (fun s => some (VehicleKind.road s)) =
          some (.road r) := by rw [ofDatum?_toDatum, Option.bind_some]
      exact hstate
    | train => rfl
    | ship => rfl
    | aircraft => rfl
    | special => rfl
    | disaster => rfl

instance : LawfulForm RailTile where
  ofDatum?_toDatum r := by
    -- the name selects the form of content, whose fields then follow
    cases r with
    | track o t s =>
      refine Option.bind_eq_some_iff.mpr ⟨_, rfl, ?_⟩
      exact Datum.namedFields?_bind_ofFields (by decide) rfl (by simp)
    | signals o t s k y =>
      refine Option.bind_eq_some_iff.mpr ⟨_, rfl, ?_⟩
      exact Datum.namedFields?_bind_ofFields (by decide) rfl (by simp)
    | depot o t d =>
      refine Option.bind_eq_some_iff.mpr ⟨_, rfl, ?_⟩
      exact Datum.namedFields?_bind_ofFields (by decide) rfl (by simp)
    | waypoint o t a i c =>
      refine Option.bind_eq_some_iff.mpr ⟨_, rfl, ?_⟩
      exact Datum.namedFields?_bind_ofFields (by decide) rfl (by simp)

instance : LawfulForm Vehicle where
  ofDatum?_toDatum _ := Datum.fields?_bind_ofFields (by decide) rfl (by simp)

/-- Each of these types is read back from what it is written as, whatever its value: a map need not
be consistent and a flag set may have bits without a name. Each datum accepted for one of them has
one canonical form. -/
theorem canonical_forms :
    Canonical RailTile ∧ Canonical Vehicle ∧ Canonical RoadState ∧ Canonical Tile ∧
      Canonical TileMap ∧ Canonical MapConfig ∧ Canonical Generator ∧ Canonical TrackSet ∧
      Canonical VehicleStatus :=
  ⟨canonical RailTile, canonical Vehicle, canonical RoadState, canonical Tile, canonical TileMap,
    canonical MapConfig, canonical Generator, canonical TrackSet, canonical VehicleStatus⟩

/-- Signals whose fields stand in another order, with a field that is not theirs, a style given with
nothing and tracks named twice, and a road vehicle whose parts have no names: both have the form in
which each part is written once under its name. -/
theorem canonical_forms_spelled :
    let signals : Datum := .obj [("Signals", .obj [("variant", .obj [("Electric", .null)]),
      ("note", .fraction), ("tracks", .str "\u2003Y| 0x80 |CROSS|0x+40\t"), ("owner", .int 17),
      ("rail_type", .str "Maglev"), ("signal_type", .str "Exit")])]
    let signalsWritten : Datum := .obj [("Signals", .ofFields RailTile.signalFields
      [.int 17, .str "Maglev", .str "X | Y | 0xc0", .str "Exit", .str "Electric"])]
    let vehicle : Datum :=
      .arr [.int 7, .str "  ", .obj [("Road", .arr [.int 254, .int 0, .int 300])]]
    let vehicleWritten : Datum := .ofFields Vehicle.fieldNames [.int 7, .str "",
      .obj [("Road", .ofFields RoadState.fieldNames [.int 254, .int 0, .int 300])]]
    canonical? RailTile signals = some signalsWritten ∧
      canonical? RailTile signalsWritten = some signalsWritten ∧
      (ofDatum? signalsWritten : Option RailTile) = ofDatum? signals ∧
      canonical? Vehicle vehicle = some vehicleWritten ∧
      canonical? Vehicle vehicleWritten = some vehicleWritten ∧
      (ofDatum? vehicleWritten : Option Vehicle) = ofDatum? vehicle := by
  intro signals signalsWritten vehicle vehicleWritten
  have hsignals : ofDatum? signals =
      some (RailTile.signals ⟨17⟩ .maglev ⟨0xC3⟩ .exit .electric) := by decide
  have hvehicle : ofDatum? vehicle = some (Vehicle.mk ⟨7⟩ ⟨0⟩ (.road ⟨254, 0, 300⟩)) := by decide
  have hsignalsForm : canonical? RailTile signals = some signalsWritten :=
    canonical?_eq_some_iff.mpr ⟨_, hsignals, rfl⟩
  have hvehicleForm : canonical? Vehicle vehicle = some vehicleWritten :=
    canonical?_eq_some_iff.mpr ⟨_, hvehicle, rfl⟩
  obtain ⟨hrail, hroad, -⟩ := canonical_forms
  exact ⟨hsignalsForm, hrail.stable _ _ hsignalsForm, hrail.same_value _ _ hsignalsForm,
    hvehicleForm, hroad.stable _ _ hvehicleForm, hroad.same_value _ _ hvehicleForm⟩

end RailGrid
