import RailGrid.Proofs.Rail.Construction
import RailGrid.Proofs.TileMap.Course

/-!
# Encoding and decoding railway tiles

Laying out a content and decoding the tile gives the content back, whatever the tile was before,
with the tracks cut down to the six that exist. Laying out what was decoded keeps the height, the
bits beside the owner and the content; the remaining bits settle at once, so that a second time
changes nothing.
-/

namespace RailGrid

open Enumeration Change

namespace Tile.Stores

variable {x : Tile} {r : RailTile}

/-- An owner that was read from a record fits into one. -/
theorem owner_fits (h : x.Stores r) : r.owner.Fits := by
  have hlt : (x.get .owner).toNat < 2 ^ Owner.width := toNat_get_lt
  rw [h.owner] at hlt
  exact hlt

/-- Tracks that were read from a record have no bits without a meaning. -/
theorem truncate_eq (h : x.Stores r) : r.truncate = r := by
  have hform := h.form
  cases r with
  | track o t s =>
    have hs : s = ⟨x.get .tracks⟩ := congrArg TrackSet.mk hform.symm
    rw [RailTile.truncate, hs, truncate_get_tracks]
  | signals o t s k y =>
    have hs : s = ⟨x.get .tracks⟩ := congrArg TrackSet.mk hform.1.symm
    rw [RailTile.truncate, hs, truncate_get_tracks]
  | depot o t d => rfl
  | waypoint o t a i c => rfl

end Tile.Stores

namespace TileMap

/-- Decoding undoes encoding for every content with an owner that fits. Encoding undoes decoding
up to the content: the height and the bits beside the owner are kept, and a second encoding
changes no byte of the map. -/
theorem rail_setRail (m : TileMap) (t : TileIndex) (ht : m.Valid t) :
    (∀ r : RailTile, r.owner.Fits →
      (m.edit t (.setRail r)).1 = .ok () ∧
        (m.edit t (.setRail r)).2.ask t Tile.rail = .ok (some r.truncate)) ∧
    (∀ r : RailTile, m.ask t Tile.rail = .ok (some r) →
      let n := (m.edit t (.setRail r)).2
      (m.edit t (.setRail r)).1 = .ok () ∧ n.ask t Tile.rail = .ok (some r) ∧
        (n.tile t).map (·.get .height) = (m.tile t).map (·.get .height) ∧
        (n.tile t).map (·.get .besideOwner) = (m.tile t).map (·.get .besideOwner) ∧
        n.edit t (.setRail r) = (.ok (), n)) := by
  have hrun (r : RailTile) (ho : r.owner.Fits) :
      (Edit.setRail r).change.on (m.get t ht) = (.ok (), (m.get t ht).laidOut r) :=
    on_setRail_of_fits ho
  have hdecode (r : RailTile) (ho : r.owner.Fits) :
      (m.edit t (.setRail r)).1 = .ok () ∧
        (m.edit t (.setRail r)).2.ask t Tile.rail = .ok (some r.truncate) := by
    rw [edit_outcome rfl ht, ask_edit_self rfl ht, hrun r ho,
      Tile.rail_eq_some_iff.mpr (Tile.stores_laidOut ho)]
    exact ⟨rfl, rfl⟩
  refine ⟨hdecode, fun r hr => ?_⟩
  obtain ⟨_, hrail⟩ := ask_eq_ok_iff.mp hr
  have hstores := Tile.rail_eq_some_iff.mp hrail
  have ho := hstores.owner_fits
  have htruncate := hstores.truncate_eq
  intro n
  have hn : n.Valid t := valid_edit_iff.mpr ht
  have hget : n.get t hn = (m.get t ht).laidOut r := by
    rw [get_edit_self rfl ht, hrun r ho]
  obtain ⟨hok, hcontent⟩ := hdecode r ho
  rw [htruncate] at hcontent
  refine ⟨hok, hcontent, ?_, ?_, ?_⟩
  · rw [tile_of_valid hn, tile_of_valid ht, hget]
    exact congrArg Except.ok Tile.get_laidOut_height
  · rw [tile_of_valid hn, tile_of_valid ht, hget]
    exact congrArg Except.ok Tile.get_laidOut_besideOwner
  · have hagain : (Edit.setRail r).change.on (n.get t hn) = (.ok (), n.get t hn) := by
      rw [hget]
      exact (on_setRail_of_fits ho).trans (by rw [Tile.laidOut_laidOut])
    rw [edit_eq_self rfl hn (by rw [hagain]), hagain]
    rfl

/-- A record of no kind at all takes signals on tracks of which two do not exist, and takes what is
decoded from it once more. -/
theorem rail_setRail_corrupt :
    let m : TileMap := ⟨0, 0, #[⟨0xF5, 0xFF, 0xFFFF, 0xFF, 0xFF, 0xFF⟩]⟩
    let r : RailTile := .signals ⟨7⟩ .electric ⟨0xFF⟩ .exit .semaphore
    let s : RailTile := .signals ⟨7⟩ .electric ⟨0x3F⟩ .exit .semaphore
    let n := (m.edit ⟨0⟩ (.setRail r)).2
    m.Valid ⟨0⟩ ∧ r.owner.Fits ∧ n.ask ⟨0⟩ Tile.rail = .ok (some s) ∧
      (n.edit ⟨0⟩ (.setRail s)).2.ask ⟨0⟩ Tile.rail = .ok (some s) := by
  intro m r s n
  have ht : m.Valid ⟨0⟩ := by decide
  have ho : r.owner.Fits := by decide
  have hs : n.ask ⟨0⟩ Tile.rail = .ok (some s) := ((rail_setRail m ⟨0⟩ ht).1 r ho).2
  obtain ⟨-, hagain, -⟩ := (rail_setRail n ⟨0⟩ (valid_edit_iff.mpr ht)).2 s hs
  exact ⟨ht, ho, hs, hagain⟩

end TileMap

end RailGrid
