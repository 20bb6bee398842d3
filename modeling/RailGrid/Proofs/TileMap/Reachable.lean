import RailGrid.Proofs.Rail.Preservation
import RailGrid.Proofs.TileMap.Course

/-!
# Reachable maps

A fresh map has well-formed records only, and every edit but the replacement of a whole record keeps
them so. In every map that such edits can reach, the readers of kind, rail type and content
therefore answer on every tile, and the tiles with a content are the railway tiles.
-/

namespace RailGrid

open Enumeration

namespace Tile

theorem blank_wellFormed : Tile.blank.WellFormed := WellFormed.empty.put_owner

end Tile

namespace TileMap

variable {m : TileMap} {t : TileIndex} {e : Edit} {logX logY : UInt32}

/-- The tiles of a fresh map are blank. -/
theorem eq_blank_of_ofLogs (hm : ofLogs logX logY = .ok m) : ∀ x ∈ m.tiles, x = .blank := by
  intro x hx
  obtain ⟨-, rfl⟩ := ofLogs_eq_ok_iff.mp hm
  exact (Array.mem_replicate.mp hx).2

theorem wellFormed_of_ofLogs (hm : ofLogs logX logY = .ok m) : ∀ x ∈ m.tiles, x.WellFormed := by
  intro x hx
  rw [eq_blank_of_ofLogs hm x hx]
  exact Tile.blank_wellFormed

/-- An edit writes one record at most, and writes a well-formed one. -/
theorem wellFormed_edit (he : ∀ y, e ≠ .overwrite y) (hm : ∀ x ∈ m.tiles, x.WellFormed) :
    ∀ x ∈ (m.edit t e).2.tiles, x.WellFormed := by
  intro x hx
  cases hfault : e.argumentFault? with
  | some f =>
    rw [edit_of_argumentFault hfault] at hx
    exact hm x hx
  | none =>
    by_cases ht : m.Valid t
    · rw [edit_of_valid hfault ht] at hx
      rcases Array.mem_or_eq_of_mem_set (w := ht) hx with hold | hnew
      · exact hm x hold
      · have hrecord : (m.get t ht).WellFormed := hm _ (Array.getElem_mem ht)
        rw [hnew]
        exact hrecord.on_change he
    · rw [edit_of_not_valid hfault ht] at hx
      exact hm x hx

/-- In every map that is reached from a fresh one without replacing whole records, all records are
well formed, and the readers of kind, rail type and content answer on every tile. -/
theorem wellFormed_course (hm : ofLogs logX logY = .ok m) {steps : List (TileIndex × Edit)}
    (hsteps : ∀ p ∈ steps, ∀ y, p.2 ≠ .overwrite y) :
    let n := (m.course steps).2
    (∀ x ∈ n.tiles, x.WellFormed) ∧
      ∀ t, n.Valid t →
        (∃ k, n.ask t Tile.kind = .ok k) ∧ (∃ r, n.ask t Tile.railType = .ok r) ∧
        (n.ask t Tile.kind = .ok .tunnelBridge → ∃ r, n.ask t Tile.bridgeRailType = .ok r) ∧
        ∃ c, n.ask t Tile.rail = .ok c ∧
          (c.isSome = true ↔ n.ask t Tile.kind = .ok .railway) := by
  intro n
  have hall : ∀ x ∈ n.tiles, x.WellFormed :=
    course_induction (P := fun m => ∀ x ∈ m.tiles, x.WellFormed)
      (fun _ _ _ he h => wellFormed_edit he h) hsteps (wellFormed_of_ofLogs hm)
  refine ⟨hall, fun t ht => ?_⟩
  have hx : (n.get t ht).WellFormed := hall _ (Array.getElem_mem ht)
  have hkind (k : TileKind) : n.ask t Tile.kind = .ok k ↔ (n.get t ht).isKind k = true := by
    rw [ask_eq_ok_iff, ← Tile.kind_eq_ok_iff]
    exact ⟨fun ⟨_, h⟩ => h, fun h => ⟨ht, h⟩⟩
  refine ⟨?_, ?_, ?_, ?_⟩
  · obtain ⟨k, hk⟩ := hx.exists_kind
    exact ⟨k, ask_eq_ok_iff.mpr ⟨ht, hk⟩⟩
  · obtain ⟨r, hr⟩ := hx.exists_railType
    exact ⟨r, ask_eq_ok_iff.mpr ⟨ht, hr⟩⟩
  · intro hbridge
    obtain ⟨r, hr⟩ := hx.exists_bridgeRailType ((hkind .tunnelBridge).mp hbridge)
    exact ⟨r, ask_eq_ok_iff.mpr ⟨ht, hr⟩⟩
  · obtain ⟨c, hc, hsome⟩ := hx.exists_rail
    refine ⟨c, ask_eq_ok_iff.mpr ⟨ht, hc⟩, ?_⟩
    rw [hkind, hsome]

/-- Retyping by hand, arbitrary tracks and a constructor refused for its owner keep the records of
the smallest map well formed. -/
theorem wellFormed_course_smallest :
    let m : TileMap := ⟨6, 6, .replicate (2 ^ (6 + 6)) .blank⟩
    let steps : List (TileIndex × Edit) := [(⟨0⟩, .makeTrack ⟨200⟩ ⟨1⟩ .rail),
      (⟨0⟩, .setTracks ⟨0xFF⟩), (⟨0⟩, .setKind .tunnelBridge), (⟨4096⟩, .makeClear)]
    ofLogs 6 6 = .ok m ∧ (∀ p ∈ steps, ∀ y, p.2 ≠ .overwrite y) ∧
      ∀ x ∈ (m.course steps).2.tiles, x.WellFormed := by
  intro m steps
  have hm : ofLogs 6 6 = .ok m := if_pos (by decide)
  have hsteps : ∀ p ∈ steps, ∀ y, p.2 ≠ .overwrite y := by
    simp [steps]
  exact ⟨hm, hsteps, (wellFormed_course hm hsteps).1⟩

end TileMap

end RailGrid
