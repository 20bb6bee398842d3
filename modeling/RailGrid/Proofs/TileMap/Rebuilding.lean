import RailGrid.Proofs.TileMap.Refusals

/-!
# Building over a tile

A constructor writes every bit of a record but the height and the bits beside the owner, and
clearing a tile writes every bit but the height. What they leave is therefore one record for each
content, raised to the height of the tile; whatever else was stored there before is gone.
-/

namespace RailGrid

/-- The record of a content at height zero, with no bits set beside the owner. -/
def RailTile.record (r : RailTile) : Tile := ({} : Tile).laidOut r

namespace Tile

variable {x : Tile} {r : RailTile}

/-- The layout of a content is its record, with the height and the bits beside the owner put in. -/
theorem laidOut_eq_put : x.laidOut r =
    (r.record.put .height (x.get .height)).put .besideOwner (x.get .besideOwner) := by
  let kept := (({} : Tile).put .height (x.get .height)).put .besideOwner (x.get .besideOwner)
  have hheight : x.get .height = kept.get .height := by
    rw [get_put_of_disjoint (by decide), get_put_self toNat_get_lt]
  have hbeside : x.get .besideOwner = kept.get .besideOwner := by
    rw [get_put_self toNat_get_lt]
  rw [laidOut_eq hheight hbeside, RailTile.record,
    ← laidOut_put (.inl rfl) (by decide) (by decide),
    ← laidOut_put (.inr rfl) (by decide) (by decide)]

end Tile

namespace TileMap

variable {m n : TileMap} {t u : TileIndex} {x y : Tile} {logX logY : UInt32}

/-- Clearing a tile leaves a fresh record at the height of the old one. -/
theorem edit_makeClear (hx : m.tile t = .ok x) :
    m.edit t .makeClear = (.ok (), m.setTile t (Tile.blank.put .height (x.get .height))) := by
  have hblank : (({} : Tile).put .height x.height).put .owner Owner.nobody.number =
      Tile.blank.put .height (x.get .height) :=
    Tile.put_comm_of_disjoint (by decide)
  rw [← hblank]
  exact edit_of_change rfl hx Change.on_makeClear

theorem edit_setHeight {h : UInt8} (hx : m.tile t = .ok x) (hh : h < 16) :
    m.edit t (.setHeight h) = (.ok (), m.setTile t (x.put .height h)) :=
  edit_of_change (if_pos hh) hx Change.on_always

theorem tile_of_ofLogs (hm : ofLogs logX logY = .ok m) (ht : m.Valid t) :
    m.tile t = .ok .blank := by
  have hblank : m.get t ht = .blank := eq_blank_of_ofLogs hm _ (Array.getElem_mem ht)
  rw [tile_of_valid ht, hblank]

/-- Nothing of the old record survives a constructor but the height and the three bits beside the
owner: what it leaves is the record of its content with these two put in. Of a tile that is cleared
the height alone survives, and what is left is a tile of a fresh map raised to that height. So the
same call on two tiles leaves the same record wherever these agree, whatever else was stored. -/
theorem edit_leaves_no_residue (hx : m.tile t = .ok x) (hy : n.tile u = .ok y) :
    (∀ (e : Edit) (r : RailTile), e.content? = some r → r.owner.number < 32 →
      (∃ z, m.edit t e = (.ok (), m.setTile t z) ∧
        z = (r.record.put .height (x.get .height)).put .besideOwner (x.get .besideOwner) ∧
        z.get .height = x.get .height ∧ z.get .besideOwner = x.get .besideOwner) ∧
      (x.get .height = y.get .height → x.get .besideOwner = y.get .besideOwner →
        (m.edit t e).2.tile t = (n.edit u e).2.tile u)) ∧
    (∃ z, m.edit t .makeClear = (.ok (), m.setTile t z) ∧ z.get .height = x.get .height ∧
      ∀ logX logY fresh v, ofLogs logX logY = .ok fresh → fresh.Valid v →
        fresh.edit v (.setHeight (x.get .height)) = (.ok (), fresh.setTile v z)) ∧
    (x.get .height = y.get .height →
      (m.edit t .makeClear).2.tile t = (n.edit u .makeClear).2.tile u) := by
  refine ⟨fun e r he hr => ?_, ?_, fun hheight => ?_⟩
  · have ho : r.owner.Fits := Owner.fits_iff.mpr hr
    have hedit := edit_of_content hx he ho
    refine ⟨⟨x.laidOut r, hedit, Tile.laidOut_eq_put, Tile.get_laidOut_height,
      Tile.get_laidOut_besideOwner⟩, fun hheight hbeside => ?_⟩
    rw [hedit, edit_of_content hy he ho, tile_setTile_of_tile hx, tile_setTile_of_tile hy,
      Tile.laidOut_eq hheight hbeside]
  · have hlt : x.get .height < 16 := Tile.height_lt
    refine ⟨Tile.blank.put .height (x.get .height), edit_makeClear hx,
      Tile.get_put_self Tile.toNat_get_lt, fun logX logY fresh v hfresh hv => ?_⟩
    exact edit_setHeight (tile_of_ofLogs hfresh hv) hlt
  · rw [edit_makeClear hx, edit_makeClear hy, tile_setTile_of_tile hx, tile_setTile_of_tile hy,
      hheight]

/-- A waypoint with stray bits and a house agree in the height and the bits beside the owner: as a
depot, as a signal tile and cleared they are the same, and cleared they are a fresh tile at height
five. -/
theorem edit_leaves_no_residue_waypoint_house :
    let x : Tile := ⟨0x15, 0xE3, 0xBEEF, 0xB2, 0xF5, 0xFB⟩
    let y : Tile := ⟨0x35, 0xF1, 0x1234, 0x07, 0x80, 0x2C⟩
    let m : TileMap := ⟨0, 0, #[x]⟩
    let n : TileMap := ⟨1, 0, #[{}, y]⟩
    let fresh : TileMap := ⟨6, 7, .replicate (2 ^ (6 + 7)) .blank⟩
    let signals : RailTile := .signals ⟨31⟩ .maglev ⟨0x23⟩ .combo .semaphore
    (m.edit ⟨0⟩ (.makeDepot ⟨9⟩ .southWest .monorail)).2.tile ⟨0⟩ =
        (n.edit ⟨1⟩ (.makeDepot ⟨9⟩ .southWest .monorail)).2.tile ⟨1⟩ ∧
      (m.edit ⟨0⟩ (.setRail signals)).2.tile ⟨0⟩ = (n.edit ⟨1⟩ (.setRail signals)).2.tile ⟨1⟩ ∧
      (m.edit ⟨0⟩ .makeClear).2.tile ⟨0⟩ = (n.edit ⟨1⟩ .makeClear).2.tile ⟨1⟩ ∧
      ofLogs 6 7 = .ok fresh ∧
      (m.edit ⟨0⟩ .makeClear).2.tile ⟨0⟩ = (fresh.edit ⟨4097⟩ (.setHeight 5)).2.tile ⟨4097⟩ := by
  intro x y m n fresh signals
  have hx : m.tile ⟨0⟩ = .ok x := rfl
  have hy : n.tile ⟨1⟩ = .ok y := rfl
  have hheight : x.get .height = y.get .height := by decide
  have hbeside : x.get .besideOwner = y.get .besideOwner := by decide
  have hm : ofLogs 6 7 = .ok fresh := if_pos (by decide)
  have hv : fresh.Valid ⟨4097⟩ := by
    rw [Valid, show fresh.size = 2 ^ (6 + 7) from Array.size_replicate]
    decide
  obtain ⟨hbuilt, ⟨z, hclear, -, hfresh⟩, hcleared⟩ := edit_leaves_no_residue hx hy
  have hraised := hfresh 6 7 fresh ⟨4097⟩ hm hv
  rw [show x.get .height = 5 by decide] at hraised
  refine ⟨(hbuilt _ _ rfl (by decide)).2 hheight hbeside,
    (hbuilt _ signals rfl (by decide)).2 hheight hbeside, hcleared hheight, hm, ?_⟩
  rw [hclear, hraised, tile_setTile_of_tile hx, tile_setTile_of_tile (tile_of_ofLogs hm hv)]

end TileMap

end RailGrid
