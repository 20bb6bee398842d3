import RailGrid.Proofs.Rail.Items
import RailGrid.Proofs.Rail.Refinement
import RailGrid.Proofs.TileMap.Locality
import RailGrid.Proofs.TileMap.Reachable

/-!
# What a refused edit leaves

Most changes look before they write, or make all their checks pass by what they wrote before. The
constructors do not: they make the tile a railway tile and only then look at the owner. So a refused
edit leaves the map as it was, except that a constructor that was refused for its owner has written
the kind of the tile.
-/

namespace RailGrid

open Enumeration

namespace Change

/-- When the change is refused it leaves the record as it was. -/
def AllOrNothing (c : Change) : Prop := ∀ x f, (c.on x).1 = .error f → (c.on x).2 = x

variable {check : Tile → Except TileFault Unit} {f : Tile → Tile}

theorem allOrNothing_always : (always f).AllOrNothing := fun _ _ h => nomatch h

theorem allOrNothing_guarded : (guarded check f).AllOrNothing := by
  intro x fault hfault
  cases hcheck : check x with
  | ok u =>
    rw [on_guarded_of_ok hcheck] at hfault
    cases hfault
  | error e => rw [on_guarded_of_error hcheck]

theorem allOrNothing_makeClear : makeClear.AllOrNothing := by
  intro x fault hfault
  rw [on_makeClear] at hfault
  cases hfault

/-- Once the signals are marked, what is set about them cannot be refused any more. -/
theorem allOrNothing_addSignals {k : SignalKind} {y : SignalStyle} :
    (addSignals k y).AllOrNothing := by
  intro x fault hfault
  cases hplain : x.requirePlain with
  | ok u =>
    obtain ⟨hkind, htag⟩ := Tile.requirePlain_eq_ok_iff.mp hplain
    rw [on_addSignals hkind (Tile.ofByte_m5_iff.mp htag)] at hfault
    cases hfault
  | error e => rw [on_addSignals_of_error hplain]

end Change

namespace Edit

open Change

/-- Every edit but the constructors makes its change fully or not at all. -/
theorem allOrNothing_change {e : Edit} (he : e.content? = none) : e.change.AllOrNothing := by
  cases e with
  | setKind k => exact allOrNothing_always
  | setHeight h => exact allOrNothing_always
  | setOwner o => exact allOrNothing_guarded
  | makeClear => exact allOrNothing_makeClear
  | setRailType r => exact allOrNothing_always
  | setCrossingRailType r => exact allOrNothing_guarded
  | setBridgeRailType r => exact allOrNothing_guarded
  | setTracks s => exact allOrNothing_guarded
  | setCustomSprite custom => exact allOrNothing_guarded
  | setSignalKind k => exact allOrNothing_guarded
  | setSignalStyle s => exact allOrNothing_guarded
  | addSignals k s => exact allOrNothing_addSignals
  | removeSignals => exact allOrNothing_guarded
  | overwrite x => exact allOrNothing_always
  | makeTrack o s r => cases he
  | makeDepot o d r => cases he
  | makeWaypoint o a r index => cases he
  | setRail r => cases he

theorem argumentFault_of_content {e : Edit} {r : RailTile} (he : e.content? = some r) :
    e.argumentFault? = none := by
  cases e <;> cases he <;> rfl

end Edit

namespace Owner

theorem fits_iff {o : Owner} : o.Fits ↔ o.number < 32 := by
  rw [UInt8.lt_iff_toNat_lt, Fits]
  rfl

theorem not_fits_iff {o : Owner} : ¬ o.Fits ↔ 32 ≤ o.number := by
  rw [fits_iff, UInt8.not_lt]

end Owner

namespace Tile

/-- Writing the kind touches one byte, and there spares the height. -/
theorem put_kind_spec {x : Tile} {k : TileKind} :
    (x.put .kind (code k)).kind = .ok k ∧ (x.put .kind (code k)).height = x.height ∧
      x.put .kind (code k) = { x with typeHeight := (x.put .kind (code k)).typeHeight } :=
  ⟨kind_put, get_put_of_disjoint (by decide), rfl⟩

end Tile

namespace TileMap

variable {m : TileMap} {t : TileIndex} {x : Tile} {e : Edit} {r : RailTile}

/-- An edit that is no constructor is refused without a trace, on the map as on the tile. -/
theorem edit_of_refused {f : MapFault} (hf : (m.edit t e).1 = .error f)
    (hrecord : e.content? = none ∨ ¬ m.Valid t) : (m.edit t e).2 = m := by
  cases hfault : e.argumentFault? with
  | some g => rw [edit_of_argumentFault hfault]
  | none =>
    by_cases ht : m.Valid t
    · rw [edit_outcome hfault ht] at hf
      have he := hrecord.resolve_right (not_not_intro ht)
      cases hchange : (e.change.on (m.get t ht)).1 with
      | ok u =>
        rw [hchange] at hf
        cases hf
      | error g => rw [edit_eq_self hfault ht (Edit.allOrNothing_change he _ g hchange)]
    · rw [edit_of_not_valid hfault ht]

/-- A constructor whose owner fits lays out its content over the record of the tile. -/
theorem edit_of_content (hx : m.tile t = .ok x) (he : e.content? = some r) (ho : r.owner.Fits) :
    m.edit t e = (.ok (), m.setTile t (x.laidOut r)) := by
  refine edit_of_change (Edit.argumentFault_of_content he) hx ?_
  rw [Site.on_change_of_content he, Change.on_setRail_of_fits ho]

/-- A constructor succeeds on every tile of the map, whatever is there, if its owner fits. -/
theorem edit_of_content_of_fits (he : e.content? = some r) (ht : m.Valid t) (ho : r.owner.Fits) :
    (m.edit t e).1 = .ok () := by
  rw [edit_of_content (tile_of_valid ht) he ho]

/-- A constructor whose owner does not fit has written the kind of the tile. -/
theorem edit_of_content_of_not_fits (he : e.content? = some r) (ht : m.Valid t)
    (ho : ¬ r.owner.Fits) :
    let railway := (m.get t ht).put .kind (code TileKind.railway)
    m.edit t e = (.error (.tile t (.ownerTooWide r.owner)),
      { m with tiles := m.tiles.set t.number.toNat railway ht }) := by
  intro railway
  rw [edit_of_valid (Edit.argumentFault_of_content he) ht, Site.on_change_of_content he,
    Change.on_setRail_of_not_fits ho]
  rfl

/-- A refused edit leaves the whole map as it was, unless it is a constructor with too wide an owner
on a tile of the map: that has made the tile a railway tile and nothing else. Constructors are
refused for no other reason than an index off the map or such an owner, and clearing only for an
index off the map. -/
theorem edit_refused (m : TileMap) (t : TileIndex) (e : Edit) :
    (∀ f, (m.edit t e).1 = .error f →
      (∀ r, e.content? = some r → m.Valid t → r.owner.number < 32) → (m.edit t e).2 = m) ∧
    (∀ r, e.content? = some r → ∀ ht : m.Valid t, 32 ≤ r.owner.number →
      (m.edit t e).1 = .error (.tile t (.ownerTooWide r.owner)) ∧
        ∃ y, (m.edit t e).2 = { m with tiles := m.tiles.set t.number.toNat y ht } ∧
          y.kind = .ok .railway ∧ y.height = (m.get t ht).height ∧
          y = { m.get t ht with typeHeight := y.typeHeight }) ∧
    (∀ r, e.content? = some r →
      ((m.edit t e).1 = .ok () ↔ m.Valid t ∧ r.owner.number < 32)) ∧
    ((m.edit t .makeClear).1 = .ok () ↔ m.Valid t) := by
  refine ⟨fun f hf hexcept => ?_, fun r he ht ho => ?_, fun r he => ?_, ?_⟩
  · cases he : e.content? with
    | none => exact edit_of_refused hf (.inl he)
    | some r =>
      by_cases ht : m.Valid t
      · rw [edit_of_content_of_fits he ht (Owner.fits_iff.mpr (hexcept r he ht))] at hf
        cases hf
      · exact edit_of_refused hf (.inr ht)
  · rw [edit_of_content_of_not_fits he ht (Owner.not_fits_iff.mpr ho)]
    exact ⟨rfl, _, rfl, Tile.put_kind_spec⟩
  · constructor
    · intro hok
      by_cases ht : m.Valid t
      · refine ⟨ht, Decidable.byContradiction fun ho => ?_⟩
        rw [edit_of_content_of_not_fits he ht (mt Owner.fits_iff.mp ho)] at hok
        cases hok
      · rw [edit_of_not_valid (Edit.argumentFault_of_content he) ht] at hok
        cases hok
    · rintro ⟨ht, ho⟩
      exact edit_of_content_of_fits he ht (Owner.fits_iff.mpr ho)
  · constructor
    · intro hok
      by_cases ht : m.Valid t
      · exact ht
      · rw [edit_of_not_valid rfl ht] at hok
        cases hok
    · intro ht
      rw [edit_outcome rfl ht, Edit.change, Change.on_makeClear]
      rfl

/-- A house takes no owner and stays as it is; a depot for too wide an owner turns it into a railway
tile with the same height and otherwise the same bytes, and for the widest owner replaces it. -/
theorem edit_refused_house :
    let x : Tile := ⟨0x35, 0xE3, 0xBEEF, 0xA2, 0xF5, 0x63⟩
    let m : TileMap := ⟨0, 0, #[x]⟩
    (m.edit ⟨0⟩ (.setOwner ⟨1⟩)).1 = .error (.tile ⟨0⟩ .storesNoOwner) ∧
      (m.edit ⟨0⟩ (.setOwner ⟨1⟩)).2 = m ∧
      (m.edit ⟨0⟩ (.makeDepot ⟨32⟩ .southWest .rail)).1 =
        .error (.tile ⟨0⟩ (.ownerTooWide ⟨32⟩)) ∧
      (m.edit ⟨0⟩ (.makeDepot ⟨32⟩ .southWest .rail)).2 =
        ⟨0, 0, #[{ x with typeHeight := 0x15 }]⟩ ∧
      (m.edit ⟨0⟩ (.makeDepot ⟨31⟩ .southWest .rail)).1 = .ok () ∧
      (m.edit ⟨0⟩ .makeClear).1 = .ok () := by
  intro x m
  have ht : m.Valid ⟨0⟩ := by decide
  have hhouse : x.requireOwned = .error .storesNoOwner := if_pos (by decide)
  have hchange : (Change.setOwner ⟨1⟩).on x = (.error .storesNoOwner, x) :=
    Change.on_guarded_of_error (by rw [hhouse]; rfl)
  have howner : (m.edit ⟨0⟩ (.setOwner ⟨1⟩)).1 = .error (.tile ⟨0⟩ .storesNoOwner) :=
    (edit_outcome rfl ht).trans (congrArg (fun p => ofTile ⟨0⟩ p.1) hchange)
  have hwide := (edit_refused m ⟨0⟩ (.makeDepot ⟨32⟩ .southWest .rail)).2.1 _ rfl ht (by decide)
  have hwidest := (edit_refused m ⟨0⟩ (.makeDepot ⟨31⟩ .southWest .rail)).2.2.1 _ rfl
  refine ⟨howner, ?_, hwide.1, by decide, hwidest.mpr ⟨ht, by decide⟩, ?_⟩
  · exact (edit_refused m ⟨0⟩ (.setOwner ⟨1⟩)).1 _ howner fun r hr => nomatch hr
  · exact (edit_refused m ⟨0⟩ .makeClear).2.2.2.mpr ht

end TileMap

end RailGrid
