import RailGrid.Proofs.Rail.Stored
import RailGrid.Proofs.TileMap.Course

/-!
# When decoding answers

Of a railway tile decoding reads the rail type before it looks at the tag. A record is therefore
refused for a rail type that does not exist even where no layout is assigned to its tag or to its
facility bits, and only otherwise does it count as a tile without content. On all other records the
layout decides: a railway tile with a layout has a content, any other tile has none.
-/

namespace RailGrid

open Enumeration

namespace Tile

variable {x : Tile} {e : TileFault}

/-- A rail type is read exactly if it is one of the four that exist. -/
theorem railType_cases (x : Tile) :
    4 ≤ (x.get .railType).toNat ∧ x.railType = .error (.invalidRailType (x.get .railType)) ∨
      (x.get .railType).toNat < 4 ∧ ∃ t, x.railType = .ok t := by
  cases hcode : (ofCode? (x.get .railType) : Option RailType) with
  | none =>
    refine .inl ⟨ofCode?_eq_none_iff.mp hcode, ?_⟩
    rw [railType, railTypeIn, hcode]
  | some t =>
    have ht : x.railType = .ok t := railTypeIn_eq_ok_iff.mpr (ofCode?_eq_some_iff.mp hcode)
    refine .inr ⟨?_, t, ht⟩
    rw [ofCode?_eq_some_iff.mp hcode]
    exact code_lt t

/-- The order in which decoding asks: for the kind, for the rail type, and for the rest last. -/
theorem rail_cases (x : Tile) :
    x.isKind .railway = false ∧ x.rail = .ok none ∨
      x.isKind .railway = true ∧ 4 ≤ (x.get .railType).toNat ∧
        x.rail = .error (.invalidRailType (x.get .railType)) ∨
      x.isKind .railway = true ∧ (x.get .railType).toNat < 4 ∧
        ∃ t, x.rail = .ok (x.spelled? t) := by
  cases hkind : x.isKind .railway with
  | false => exact .inl ⟨rfl, rail_of_not_railway hkind⟩
  | true =>
    refine .inr ?_
    rw [rail_of_railway hkind]
    rcases railType_cases x with ⟨hbound, ht⟩ | ⟨hlt, t, ht⟩
    · exact .inl ⟨rfl, hbound, by rw [ht, Except.map]⟩
    · exact .inr ⟨rfl, hlt, t, by rw [ht, Except.map]⟩

/-- Decoding is refused on railway tiles alone, and for their rail type alone. -/
theorem rail_eq_error_iff : x.rail = .error e ↔
    x.isKind .railway = true ∧ 4 ≤ (x.get .railType).toNat ∧
      e = .invalidRailType (x.get .railType) := by
  rcases rail_cases x with ⟨hkind, hrail⟩ | ⟨hkind, hbound, hrail⟩ | ⟨hkind, hlt, t, hrail⟩
  · simp [hkind, hrail]
  · simp [hkind, hrail, hbound, eq_comm]
  · simp [hkind, hrail, Nat.not_le.mpr hlt]

/-- A tile has no content for its kind, or for want of a layout when its rail type exists. -/
theorem rail_eq_none_iff : x.rail = .ok none ↔
    x.isKind .railway = false ∨ ¬ x.HasLayout ∧ (x.get .railType).toNat < 4 := by
  rcases rail_cases x with ⟨hkind, hrail⟩ | ⟨hkind, hbound, hrail⟩ | ⟨hkind, hlt, t, hrail⟩
  · simp [hkind, hrail]
  · simp [hkind, hrail, Nat.not_lt.mpr hbound]
  · simp [hkind, hrail, hlt, spelled_eq_none_iff]

/-- A railway tile with a layout and a rail type that exists has a content. -/
theorem exists_rail_iff : (∃ r, x.rail = .ok (some r)) ↔
    x.isKind .railway = true ∧ x.HasLayout ∧ (x.get .railType).toNat < 4 := by
  rcases rail_cases x with ⟨hkind, hrail⟩ | ⟨hkind, hbound, hrail⟩ | ⟨hkind, hlt, t, hrail⟩
  · simp [hkind, hrail]
  · simp [hkind, hrail, Nat.not_lt.mpr hbound]
  · have hspelled : x.spelled? t ≠ none ↔ x.HasLayout := by
      rw [ne_eq, spelled_eq_none_iff, Decidable.not_not]
    simp [hkind, hrail, hlt, ← hspelled, Option.ne_none_iff_exists']

end Tile

namespace TileMap

variable {m : TileMap} {t : TileIndex}

theorem ask_eq_error_iff {α : Type} {q : Tile → Except TileFault α} {e : MapFault}
    (ht : m.Valid t) : m.ask t q = .error e ↔ ∃ f, q (m.get t ht) = .error f ∧ e = .tile t f := by
  rw [ask_of_valid ht]
  cases q (m.get t ht) with
  | ok a => simp [ofTile]
  | error f => simp [ofTile, eq_comm]

/-- What decoding answers on every record. Tiles of other kinds have no content. A railway tile with
a rail type that does not exist is refused, with or without a layout. Of the other railway tiles
those with a layout have a content and those without have none; so that a missing layout gives no
content exactly where the rail type exists. -/
theorem rail_of_record (ht : m.Valid t) :
    let x := m.get t ht
    (m.ask t Tile.rail = .ok none ↔
      x.isKind .railway = false ∨ ¬ x.HasLayout ∧ (x.get .railType).toNat < 4) ∧
    ((∃ r, m.ask t Tile.rail = .ok (some r)) ↔
      x.isKind .railway = true ∧ x.HasLayout ∧ (x.get .railType).toNat < 4) ∧
    (∀ e, m.ask t Tile.rail = .error e ↔
      x.isKind .railway = true ∧ 4 ≤ (x.get .railType).toNat ∧
        e = .tile t (.invalidRailType (x.get .railType))) := by
  intro x
  have hask {c : Option RailTile} : m.ask t Tile.rail = .ok c ↔ x.rail = .ok c :=
    ask_eq_ok_iff.trans ⟨fun ⟨_, hc⟩ => hc, fun hc => ⟨ht, hc⟩⟩
  refine ⟨hask.trans Tile.rail_eq_none_iff, ?_, fun e => ?_⟩
  · rw [← Tile.exists_rail_iff]
    exact exists_congr fun r => hask
  · rw [ask_eq_error_iff ht]
    constructor
    · rintro ⟨f, hf, rfl⟩
      obtain ⟨hkind, hbound, rfl⟩ := Tile.rail_eq_error_iff.mp hf
      exact ⟨hkind, hbound, rfl⟩
    · rintro ⟨hkind, hbound, rfl⟩
      exact ⟨_, Tile.rail_eq_error_iff.mpr ⟨hkind, hbound, rfl⟩, rfl⟩

/-- Two railway tiles with the unassigned tag: the one of maglev rail has no content, the one with
stray bits in place of a rail type is refused. -/
theorem rail_of_record_unused :
    let x : Tile := ⟨0x15, 0xE3, 0xBEEF, 0xF3, 0xFF, 0xBF⟩
    let y : Tile := ⟨0x15, 0xE3, 0xBEEF, 0x04, 0xFF, 0xBF⟩
    let m : TileMap := ⟨0, 0, #[x, y]⟩
    m.Valid ⟨0⟩ ∧ m.Valid ⟨1⟩ ∧ m.ask ⟨0⟩ Tile.rail = .ok none ∧
      m.ask ⟨1⟩ Tile.rail = .error (.tile ⟨1⟩ (.invalidRailType 4)) := by
  intro x y m
  have hfirst : m.Valid ⟨0⟩ := by decide
  have hsecond : m.Valid ⟨1⟩ := by decide
  have hx : ¬ x.HasLayout ∧ (x.get .railType).toNat < 4 := by decide
  have hkind : y.isKind .railway = true := by decide
  have htype : y.get .railType = 4 := by decide
  exact ⟨hfirst, hsecond, (rail_of_record hfirst).1.mpr (.inr hx),
    ((rail_of_record hsecond).2.2 _).mpr ⟨hkind, htype ▸ Nat.le_refl 4, htype ▸ rfl⟩⟩

/-- The tag is not looked at before anything else: a railway tile with the unassigned tag is refused
for its rail type. -/
theorem rail_refused_without_layout : ¬ ∀ (m : TileMap) (t : TileIndex) (ht : m.Valid t),
    (m.get t ht).isKind .railway = false ∨ ¬ (m.get t ht).HasLayout →
      m.ask t Tile.rail = .ok none := by
  intro hfirst
  let x : Tile := ⟨0x10, 0x10, 0, 0x04, 0, 0x80⟩
  let m : TileMap := ⟨0, 0, #[x]⟩
  have hlayout : ¬ x.HasLayout := by decide
  have hnone : x.rail = .ok none :=
    (ask_eq_ok_iff.mp (hfirst m ⟨0⟩ (by decide) (.inr hlayout))).2
  have hrefused : x.rail = .error (.invalidRailType 4) :=
    Tile.rail_eq_error_iff.mpr (by decide)
  rw [hrefused] at hnone
  cases hnone

end TileMap

end RailGrid
