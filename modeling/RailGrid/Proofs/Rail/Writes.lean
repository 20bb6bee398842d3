import RailGrid.Proofs.Rail.Construction
import RailGrid.Proofs.Rail.Site

/-!
# Writes to the record of a site

Fields that do not meet can be written one at a time: a write to a field of a stored content stores
the content with this item replaced, for whatever the other bits of the record hold. The same is
shown of the record of cleared land, which stays cleared until the kind is written.
-/

namespace RailGrid

open Enumeration

namespace Tile

variable {x : Tile} {f : Field} {v : UInt8} {r n : RailTile} {o : Owner} {t : RailType}

/-! ### Writes to a stored content -/

/-- Writes beside the fields of the forms are not seen by them. -/
theorem storesForm_put (hf : ∀ g ∈ Field.ofForms, g.Disjoint f) (h : x.StoresForm r) :
    (x.put f v).StoresForm r := by
  simp only [Field.ofForms, List.forall_mem_cons] at hf
  obtain ⟨-, htracks, hkind, hstyle, hfacility, hdirection, haxis, hsprite, -⟩ := hf
  cases r with
  | track o t s => exact (get_put_of_disjoint htracks).trans h
  | signals o t s k y =>
    obtain ⟨h₁, h₂, h₃⟩ := h
    exact ⟨(get_put_of_disjoint htracks).trans h₁, (get_put_of_disjoint hkind).trans h₂,
      (get_put_of_disjoint hstyle).trans h₃⟩
  | depot o t d =>
    obtain ⟨h₁, h₂⟩ := h
    exact ⟨(get_put_of_disjoint hfacility).trans h₁, (get_put_of_disjoint hdirection).trans h₂⟩
  | waypoint o t a i c =>
    obtain ⟨h₁, h₂, h₃, h₄⟩ := h
    exact ⟨(get_put_of_disjoint hfacility).trans h₁, (get_put_of_disjoint haxis).trans h₂,
      m2_put.trans h₃, (get_put_of_disjoint hsprite).trans h₄⟩

namespace Stores

/-- A write beside kind, owner and rail type only has to get the tag and the form right. -/
theorem of_put (h : x.Stores r) (hf : ∀ g ∈ [Field.kind, Field.owner, Field.railType], g.Disjoint f)
    (howner : n.owner = r.owner) (htype : n.railType = r.railType)
    (htag : (x.put f v).get .railTag = code n.tag) (hform : (x.put f v).StoresForm n) :
    (x.put f v).Stores n := by
  simp only [List.forall_mem_cons] at hf
  obtain ⟨hkind, howned, htyped, -⟩ := hf
  refine ⟨?_, ?_, ?_, htag, hform⟩
  · rw [get_put_of_disjoint hkind, h.kind]
  · rw [get_put_of_disjoint howned, h.owner, howner]
  · rw [get_put_of_disjoint htyped, h.railType, htype]

theorem put_height (h : x.Stores r) : (x.put .height v).Stores r := by
  refine h.of_put (by decide) rfl rfl ?_ (storesForm_put (by decide) h.form)
  rw [get_put_of_disjoint (by decide), h.tag]

theorem put_owner (h : x.Stores r) (ho : o.Fits) :
    (x.put .owner o.number).Stores (r.withOwner o) := by
  have howner : (r.withOwner o).owner = o := by cases r <;> rfl
  have htype : (r.withOwner o).railType = r.railType := by cases r <;> rfl
  have htag : (r.withOwner o).tag = r.tag := by cases r <;> rfl
  have hform : (x.put .owner o.number).StoresForm r := storesForm_put (by decide) h.form
  have hwritten : (x.put .owner o.number).get .owner = o.number := get_put_self ho
  refine ⟨?_, ?_, ?_, ?_, ?_⟩
  · rw [get_put_of_disjoint (by decide), h.kind]
  · rw [hwritten, howner]
  · rw [get_put_of_disjoint (by decide), h.railType, htype]
  · rw [get_put_of_disjoint (by decide), h.tag, htag]
  · cases r <;> exact hform

theorem put_railType (h : x.Stores r) :
    (x.put .railType (code t)).Stores (r.withRailType t) := by
  have howner : (r.withRailType t).owner = r.owner := by cases r <;> rfl
  have htype : (r.withRailType t).railType = t := by cases r <;> rfl
  have htag : (r.withRailType t).tag = r.tag := by cases r <;> rfl
  have hform : (x.put .railType (code t)).StoresForm r := storesForm_put (by decide) h.form
  refine ⟨?_, ?_, ?_, ?_, ?_⟩
  · rw [get_put_of_disjoint (by decide), h.kind]
  · rw [get_put_of_disjoint (by decide), h.owner, howner]
  · rw [get_put_code (by decide), htype]
  · rw [get_put_of_disjoint (by decide), h.tag, htag]
  · cases r <;> exact hform

/-- Writing tracks replaces the tracks by their six low bits. -/
theorem put_tracks {s : TrackSet} (h : x.Stores r) (hn : r.withTracks? s.truncate = some n) :
    (x.put .tracks s.bits).Stores n := by
  have htag : (x.put .tracks s.bits).get .railTag = code r.tag := by
    rw [get_put_of_disjoint (by decide), h.tag]
  have hform := h.form
  cases r with
  | track o t u =>
    cases hn
    exact h.of_put (by decide) rfl rfl htag get_put
  | signals o t u k y =>
    cases hn
    obtain ⟨-, hkind, hstyle⟩ := hform
    refine h.of_put (by decide) rfl rfl htag ⟨get_put, ?_, ?_⟩
    · rw [get_put_of_disjoint (by decide), hkind]
    · rw [get_put_of_disjoint (by decide), hstyle]
  | depot o t d | waypoint o t a i c => cases hn

theorem put_signalKind {k : SignalKind} (h : x.Stores r) (hn : r.withSignalKind? k = some n) :
    (x.put .signalKind (code k)).Stores n := by
  have htag : (x.put .signalKind (code k)).get .railTag = code r.tag := by
    rw [get_put_of_disjoint (by decide), h.tag]
  have hform := h.form
  cases r with
  | signals o t u j y =>
    cases hn
    obtain ⟨htracks, -, hstyle⟩ := hform
    refine h.of_put (by decide) rfl rfl htag ⟨?_, get_put_code (by decide), ?_⟩
    · rw [get_put_of_disjoint (by decide), htracks]
    · rw [get_put_of_disjoint (by decide), hstyle]
  | track o t u | depot o t d | waypoint o t a i c => cases hn

theorem put_signalStyle {y : SignalStyle} (h : x.Stores r) (hn : r.withSignalStyle? y = some n) :
    (x.put .signalStyle (code y)).Stores n := by
  have htag : (x.put .signalStyle (code y)).get .railTag = code r.tag := by
    rw [get_put_of_disjoint (by decide), h.tag]
  have hform := h.form
  cases r with
  | signals o t u k z =>
    cases hn
    obtain ⟨htracks, hkind, -⟩ := hform
    refine h.of_put (by decide) rfl rfl htag ⟨?_, ?_, get_put_code (by decide)⟩
    · rw [get_put_of_disjoint (by decide), htracks]
    · rw [get_put_of_disjoint (by decide), hkind]
  | track o t u | depot o t d | waypoint o t a i c => cases hn

theorem put_customSprite {c : Bool} (h : x.Stores r) (hn : r.withCustomSprite? c = some n) :
    (x.put .customSprite c.toUInt8).Stores n := by
  have htag : (x.put .customSprite c.toUInt8).get .railTag = code r.tag := by
    rw [get_put_of_disjoint (by decide), h.tag]
  have hform := h.form
  cases r with
  | waypoint o t a i b =>
    cases hn
    obtain ⟨hfacility, haxis, hindex, -⟩ := hform
    refine h.of_put (by decide) rfl rfl htag ⟨?_, ?_, m2_put.trans hindex, ?_⟩
    · rw [get_put_of_disjoint (by decide), hfacility]
    · rw [get_put_of_disjoint (by decide), haxis]
    · exact get_put_self (by cases c <;> decide)
  | track o t u | signals o t u k y | depot o t d => cases hn

/-- The tag of signals turns plain track into a signal tile, whose signals are what the record
happens to hold in their place. -/
theorem put_railTag_signals {s : TrackSet} (h : x.Stores (.track o t s)) :
    ∃ k y, (x.put .railTag (code RailTag.signals)).Stores (.signals o t s k y) := by
  let marked := x.put .railTag (code RailTag.signals)
  refine ⟨ofCodeD (marked.get .signalKind) .combo, ofCodeD (marked.get .signalStyle) .electric, ?_⟩
  refine h.of_put (by decide) rfl rfl (get_put_code (by decide)) ⟨?_, ?_, ?_⟩
  · have htracks : x.get .tracks = s.bits := h.form
    rw [get_put_of_disjoint (by decide), htracks]
  · exact (code_ofCodeD_get (by decide)).symm
  · exact (code_ofCodeD_get (by decide)).symm

/-- Clearing the signals and the tag leaves the track of a signal tile. -/
theorem put_railTag_plain (h : x.Stores r) (hn : r.removeSignals? = some n) :
    ((x.put .signals 0).put .railTag (code RailTag.plain)).Stores n := by
  have hform := h.form
  cases r with
  | signals o t s k y =>
    cases hn
    have howner : x.get .owner = o.number := h.owner
    have htype : x.get .railType = code t := h.railType
    refine ⟨?_, ?_, ?_, get_put_code (by decide), ?_⟩
    · rw [get_put_of_disjoint (by decide), get_put_of_disjoint (by decide), h.kind]
    · rw [get_put_of_disjoint (by decide), get_put_of_disjoint (by decide), howner]
      rfl
    · rw [get_put_of_disjoint (by decide), get_put_of_disjoint (by decide), htype]
      rfl
    · have hcleared : (x.put .signals 0).get .tracks = s.bits :=
        (get_put_of_disjoint (by decide)).trans hform.1
      exact (get_put_of_disjoint (by decide)).trans hcleared
  | track o t s | depot o t d | waypoint o t a i c => cases hn

end Stores

/-- The record is that of cleared land on which an owner and a rail type may have been set. -/
structure IsCleared (x : Tile) (o : Owner) (t : RailType) : Prop where
  /-- The tile is clear land. -/
  kind : x.get .kind = code TileKind.clear
  /-- The owner is kept. -/
  owner : x.get .owner = o.number
  /-- The rail type is kept. -/
  railType : x.get .railType = code t
  /-- The byte of the form is empty. -/
  m5 : x.m5 = 0

namespace IsCleared

theorem isKind (h : x.IsCleared o t) : x.isKind .clear = true := isKind_iff.mpr h.kind

theorem not_isRailway (h : x.IsCleared o t) : x.isKind .railway = false :=
  isKind_eq_false h.isKind (by decide)

/-- Clearing leaves land of nobody. -/
theorem of_makeClear :
    ((({} : Tile).put .height x.height).put .owner Owner.nobody.number).IsCleared
      .nobody .rail := by
  refine ⟨?_, get_put_self Owner.fits_nobody, ?_, rfl⟩
  · rw [get_put_of_disjoint (by decide), get_put_of_disjoint (by decide)]
    rfl
  · rw [get_put_of_disjoint (by decide), get_put_of_disjoint (by decide)]
    rfl

theorem put_height (h : x.IsCleared o t) : (x.put .height v).IsCleared o t := by
  refine ⟨?_, ?_, ?_, h.m5⟩
  · rw [get_put_of_disjoint (by decide), h.kind]
  · rw [get_put_of_disjoint (by decide), h.owner]
  · rw [get_put_of_disjoint (by decide), h.railType]

theorem put_owner {p : Owner} (h : x.IsCleared o t) (hp : p.Fits) :
    (x.put .owner p.number).IsCleared p t := by
  refine ⟨?_, get_put_self hp, ?_, h.m5⟩
  · rw [get_put_of_disjoint (by decide), h.kind]
  · rw [get_put_of_disjoint (by decide), h.railType]

theorem put_railType {u : RailType} (h : x.IsCleared o t) :
    (x.put .railType (code u)).IsCleared o u := by
  refine ⟨?_, ?_, get_put_code (by decide), h.m5⟩
  · rw [get_put_of_disjoint (by decide), h.kind]
  · rw [get_put_of_disjoint (by decide), h.owner]

/-- Made a railway tile, cleared land is plain track without a single track. -/
theorem put_kind (h : x.IsCleared o t) :
    (x.put .kind (code TileKind.railway)).Stores (.track o t ⟨0⟩) := by
  have hm5 : (x.put .kind (code TileKind.railway)).m5 = 0 := h.m5
  refine ⟨get_put_code (by decide), ?_, ?_, ?_, ?_⟩
  · exact (get_put_of_disjoint (by decide)).trans h.owner
  · exact (get_put_of_disjoint (by decide)).trans h.railType
  · exact (congrArg _ hm5).trans readByte_zero
  · exact (congrArg _ hm5).trans readByte_zero

end IsCleared

end Tile

end RailGrid
