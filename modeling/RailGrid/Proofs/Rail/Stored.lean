import RailGrid.Proofs.Tile.Fields
import RailGrid.Rail.View

/-!
# The content stored in a record

A railway content is stored field by field: kind, owner, rail type and tag in the same places for
every form, the other items in places that only this form reads. `Tile.Stores` lists the fields,
and `rail_eq_some_iff` says that decoding yields a content exactly when the record stores it. The
other bits of the record are not looked at.
-/

namespace RailGrid

open Enumeration

namespace RailTile

/-- The tag of tiles with this content. -/
def tag : RailTile → RailTag
  | track _ _ _ => .plain
  | signals _ _ _ _ _ => .signals
  | depot _ _ _ | waypoint _ _ _ _ _ => .facility

/-- The facility that stands on tiles with this content. -/
def facility? : RailTile → Option Facility
  | track _ _ _ | signals _ _ _ _ _ => none
  | depot _ _ _ => some .depot
  | waypoint _ _ _ _ _ => some .waypoint

/-- The content without the track bits that have no meaning. -/
def truncate : RailTile → RailTile
  | track o r s => track o r s.truncate
  | signals o r s k y => signals o r s.truncate k y
  | depot o r d => depot o r d
  | waypoint o r a i c => waypoint o r a i c

end RailTile

/-- The fields that only some forms of content use, and the tag that tells them apart. -/
def Field.ofForms : List Field :=
  [.railTag, .tracks, .signalKind, .signalStyle, .facility, .depotDirection, .waypointAxis,
    .customSprite]

namespace Tile

/-- The fields that only one form of content uses hold its items. -/
def StoresForm (x : Tile) : RailTile → Prop
  | .track _ _ s => x.get .tracks = s.bits
  | .signals _ _ s k y =>
    x.get .tracks = s.bits ∧ x.get .signalKind = code k ∧ x.get .signalStyle = code y
  | .depot _ _ d => x.get .facility = code Facility.depot ∧ x.get .depotDirection = code d
  | .waypoint _ _ a i c =>
    x.get .facility = code Facility.waypoint ∧ x.get .waypointAxis = code a ∧ x.m2 = i ∧
      x.get .customSprite = c.toUInt8

/-- The record is a railway tile whose fields hold the given content. -/
structure Stores (x : Tile) (r : RailTile) : Prop where
  /-- The tile is a railway tile. -/
  kind : x.get .kind = code TileKind.railway
  /-- The owner is that of the content. -/
  owner : x.get .owner = r.owner.number
  /-- The rail type is that of the content. -/
  railType : x.get .railType = code r.railType
  /-- The tag is that of the form of the content. -/
  tag : x.get .railTag = code r.tag
  /-- The other fields of this form hold its items. -/
  form : x.StoresForm r

/-- The content that the fields of a railway tile spell, if a layout is assigned to its tag. -/
def spelled? (x : Tile) (t : RailType) : Option RailTile :=
  match RailTag.ofByte x.m5 with
  | .plain => some (.track ⟨x.get .owner⟩ t ⟨x.get .tracks⟩)
  | .signals => some (.signals ⟨x.get .owner⟩ t ⟨x.get .tracks⟩ (ofCodeD (x.get .signalKind) .combo)
      (ofCodeD (x.get .signalStyle) .electric))
  | .unused => none
  | .facility =>
    match Facility.ofByte? x.m5 with
    | none => none
    | some .depot => some (.depot ⟨x.get .owner⟩ t (ofCodeD (x.get .depotDirection) .northEast))
    | some .waypoint => some (.waypoint ⟨x.get .owner⟩ t (ofCodeD (x.get .waypointAxis) .x) x.m2
        (x.get .customSprite == 1))

/-- A layout is assigned to the tag of the record and, where this is the tag of facilities, to the
bits that name the facility. -/
def HasLayout (x : Tile) : Prop :=
  RailTag.ofByte x.m5 ≠ .unused ∧
    (RailTag.ofByte x.m5 = .facility → Facility.ofByte? x.m5 ≠ none)

instance (x : Tile) : Decidable x.HasLayout := inferInstanceAs (Decidable (_ ∧ _))

variable {x : Tile} {r : RailTile} {t : RailType} {tag : RailTag} {k : TileKind}

theorem isKind_iff : x.isKind k = true ↔ x.get .kind = code k := beq_iff_eq

/-- The kind that is read is the kind the tile is of. -/
theorem kind_eq_ok_iff : x.kind = .ok k ↔ x.isKind k = true := by
  rw [isKind_iff, kind, ← ofCode?_eq_some_iff]
  cases (ofCode? (x.get .kind) : Option TileKind) <;> simp

/-- A tile is of one kind at most. -/
theorem isKind_eq_false {j : TileKind} (h : x.isKind k = true) (hne : k ≠ j) :
    x.isKind j = false := by
  rw [isKind, isKind_iff.mp h, beq_eq_false_iff_ne]
  exact fun heq => hne (code_injective heq)

/-- The tag is the member of its field: every two bits are a tag. -/
theorem ofByte_m5_iff : RailTag.ofByte x.m5 = tag ↔ x.get .railTag = code tag := by
  have hlt : (x.get .railTag).toNat < (members : List RailTag).length := toNat_get_lt
  have hcode : code (RailTag.ofByte x.m5) = x.get .railTag := code_ofCodeD hlt
  rw [← hcode]
  exact ⟨congrArg code, code_injective⟩

/-- The tracks of a record have no bits without a meaning. -/
theorem truncate_get_tracks : TrackSet.truncate ⟨x.get .tracks⟩ = ⟨x.get .tracks⟩ := by
  have hlt : (x.get .tracks).toNat < 2 ^ 6 := toNat_get_lt
  exact congrArg TrackSet.mk (BitRange.and_lowOnesByte hlt)

/-- The fields spell a content where they have a layout, whatever the rail type. -/
theorem spelled_eq_none_iff : x.spelled? t = none ↔ ¬ x.HasLayout := by
  unfold spelled? HasLayout
  cases RailTag.ofByte x.m5 with
  | plain => simp
  | signals => simp
  | unused => simp
  | facility =>
    cases Facility.ofByte? x.m5 with
    | none => simp
    | some f => cases f <;> simp

/-! ### What the checks ask for -/

/-- A check of the tag passes on railway tiles whose tag is admitted. -/
theorem requireTag_eq_ok_iff {p : RailTag → Prop} [DecidablePred p] {fault : RailTag → TileFault} :
    (do let tag ← x.railTag; unless p tag do throw (fault tag)) =
      (.ok () : Except TileFault Unit) ↔ x.isKind .railway = true ∧ p (.ofByte x.m5) := by
  cases h : x.isKind .railway with
  | false =>
    rw [railTag_of_not_railway h]
    simp only [bind, Except.bind, reduceCtorEq, Bool.false_eq_true, false_and]
  | true =>
    rw [railTag_of_railway h]
    by_cases htag : p (.ofByte x.m5)
    · simp only [bind, Except.bind, htag, if_true, pure, Except.pure, and_self]
    · simp only [bind, Except.bind, htag, if_false, throw, throwThe, MonadExceptOf.throw,
        reduceCtorEq, and_false]

theorem requireTracks_eq_ok_iff : x.requireTracks = .ok () ↔
    x.isKind .railway = true ∧ (RailTag.ofByte x.m5).hasTracks = true :=
  requireTag_eq_ok_iff

theorem requireSignals_eq_ok_iff : x.requireSignals = .ok () ↔
    x.isKind .railway = true ∧ RailTag.ofByte x.m5 = .signals :=
  requireTag_eq_ok_iff

theorem requirePlain_eq_ok_iff : x.requirePlain = .ok () ↔
    x.isKind .railway = true ∧ RailTag.ofByte x.m5 = .plain :=
  requireTag_eq_ok_iff

/-- A facility stands on a railway tile whose tag and whose facility bits say so. -/
theorem hasFacility_iff {f : Facility} : x.hasFacility f = true ↔
    x.isKind .railway = true ∧ RailTag.ofByte x.m5 = .facility ∧
      Facility.ofByte? x.m5 = some f := by
  unfold hasFacility facility
  cases h : x.isKind .railway with
  | false =>
    rw [railTag_of_not_railway h]
    simp only [bind, Except.bind, Bool.false_eq_true, false_and]
  | true =>
    rw [railTag_of_railway h]
    by_cases htag : RailTag.ofByte x.m5 = .facility
    · simp only [bind, Except.bind, htag, if_true, pure, Except.pure, beq_iff_eq, true_and]
    · simp only [bind, Except.bind, htag, if_false, throw, throwThe, MonadExceptOf.throw,
        Bool.false_eq_true, false_and, and_false]

theorem requireWaypoint_eq_ok_iff :
    x.requireWaypoint = .ok () ↔ x.hasFacility .waypoint = true := by
  rw [requireWaypoint, requireFacility_eq_ok_iff]

/-- Where tracks are stored they are read as they are. -/
theorem tracks_of_hasTracks (h : x.isKind .railway = true)
    (htag : (RailTag.ofByte x.m5).hasTracks = true) : x.tracks = .ok ⟨x.get .tracks⟩ := by
  rw [tracks, requireTracks_eq_ok_iff.mpr ⟨h, htag⟩, truncate_get_tracks]
  rfl

/-! ### Decoding -/

/-- Tiles of other kinds have no content. -/
theorem rail_of_not_railway (h : x.isKind .railway = false) : x.rail = .ok none := by
  rw [rail, h]
  rfl

/-- On a railway tile decoding can only fail at the rail type; the rest is spelled by the fields. -/
theorem rail_of_railway (h : x.isKind .railway = true) : x.rail = x.railType.map x.spelled? := by
  have howner : x.owner = .ok ⟨x.get .owner⟩ := by
    rw [owner, requireOwned_of_isKind h (by decide) (by decide)]
    rfl
  unfold rail
  simp only [h, howner, railTag_of_railway h, if_true, bind, Except.bind, pure, Except.pure]
  cases hrailType : x.railType with
  | error e => rfl
  | ok t =>
    -- every item that the tag admits can be read, so no later step is refused
    simp only [Except.map, spelled?]
    cases htag : RailTag.ofByte x.m5 with
    | plain =>
      have htracks := tracks_of_hasTracks h (by rw [htag]; rfl)
      simp only [htracks]
    | signals =>
      have htracks := tracks_of_hasTracks h (by rw [htag]; rfl)
      have hsignals := requireSignals_eq_ok_iff.mpr ⟨h, htag⟩
      simp only [htracks, signalKind, signalStyle, hsignals, bind, Except.bind, pure, Except.pure]
    | unused => rfl
    | facility =>
      have hfacility : x.facility = .ok (Facility.ofByte? x.m5) := by
        rw [facility, railTag_of_railway h, htag]
        rfl
      simp only [hfacility]
      cases hf : Facility.ofByte? x.m5 with
      | none => rfl
      | some f =>
        have hstands := hasFacility_iff.mpr ⟨h, htag, hf⟩
        cases f with
        | depot =>
          have hdepot : x.requireDepot = .ok () := requireFacility_eq_ok_iff.mpr hstands
          simp only [depotDirection, hdepot, bind, Except.bind, pure, Except.pure]
        | waypoint =>
          have hwaypoint : x.requireWaypoint = .ok () := requireFacility_eq_ok_iff.mpr hstands
          simp only [waypointAxis, waypointIndex, hasCustomSprite, hwaypoint, bind, Except.bind,
            pure, Except.pure]

/-! ### Stored and decoded contents -/

theorem railTypeIn_eq_ok_iff {f : Field} : x.railTypeIn f = .ok t ↔ x.get f = code t := by
  rw [railTypeIn, ← ofCode?_eq_some_iff]
  cases (ofCode? (x.get f) : Option RailType) <;> simp

/-- A field that has a member for each of its values keeps the code of the one it is read as. -/
theorem code_ofCodeD_get {α : Type} [DecidableEq α] [Enumeration α] {f : Field} {d : α}
    (hall : 2 ^ f.range.length ≤ (members : List α).length) :
    code (ofCodeD (x.get f) d) = x.get f :=
  code_ofCodeD (Nat.lt_of_lt_of_le toNat_get_lt hall)

theorem toUInt8_get_customSprite : (x.get .customSprite == 1).toUInt8 = x.get .customSprite := by
  have hlt : (x.get .customSprite).toNat < 2 := toNat_get_lt
  have hcases : x.get .customSprite = 0 ∨ x.get .customSprite = 1 := by
    rcases Nat.lt_or_ge (x.get .customSprite).toNat 1 with hzero | hone
    · exact Or.inl (UInt8.toNat_inj.mp (Nat.lt_one_iff.mp hzero))
    · exact Or.inr (UInt8.toNat_inj.mp (Nat.le_antisymm (Nat.lt_succ_iff.mp hlt) hone))
  rcases hcases with h | h <;> rw [h] <;> rfl

/-- What the fields spell is stored in them. -/
theorem stores_of_spelled (h : x.isKind .railway = true) (ht : x.railType = .ok t)
    (hr : x.spelled? t = some r) : x.Stores r := by
  have hkind : x.get .kind = code TileKind.railway := isKind_iff.mp h
  have htype : x.get .railType = code t := railTypeIn_eq_ok_iff.mp ht
  unfold spelled? at hr
  cases htag : RailTag.ofByte x.m5 with
  | plain =>
    simp only [htag, Option.some.injEq] at hr
    subst hr
    exact ⟨hkind, rfl, htype, ofByte_m5_iff.mp htag, rfl⟩
  | signals =>
    simp only [htag, Option.some.injEq] at hr
    subst hr
    exact ⟨hkind, rfl, htype, ofByte_m5_iff.mp htag, rfl,
      (code_ofCodeD_get (by decide)).symm, (code_ofCodeD_get (by decide)).symm⟩
  | unused =>
    simp only [htag, reduceCtorEq] at hr
  | facility =>
    simp only [htag] at hr
    cases hf : Facility.ofByte? x.m5 with
    | none => simp only [hf, reduceCtorEq] at hr
    | some f =>
      have hfacility : x.get .facility = code f := (code_eq_of_ofCode? hf).symm
      cases f with
      | depot =>
        simp only [hf, Option.some.injEq] at hr
        subst hr
        exact ⟨hkind, rfl, htype, ofByte_m5_iff.mp htag, hfacility,
          (code_ofCodeD_get (by decide)).symm⟩
      | waypoint =>
        simp only [hf, Option.some.injEq] at hr
        subst hr
        exact ⟨hkind, rfl, htype, ofByte_m5_iff.mp htag, hfacility,
          (code_ofCodeD_get (by decide)).symm, rfl, toUInt8_get_customSprite.symm⟩

namespace Stores

/-- A record that stores a content is a railway tile. -/
theorem isKind (h : x.Stores r) : x.isKind .railway = true := isKind_iff.mpr h.kind

theorem ofByte_m5 (h : x.Stores r) : RailTag.ofByte x.m5 = r.tag := ofByte_m5_iff.mpr h.tag

theorem railType_eq (h : x.Stores r) : x.railType = .ok r.railType :=
  railTypeIn_eq_ok_iff.mpr h.railType

/-- The fields spell the content that is stored in them. -/
theorem spelled (h : x.Stores r) : x.spelled? r.railType = some r := by
  have htag := h.ofByte_m5
  have howner := h.owner
  have hform := h.form
  unfold spelled?
  cases r with
  | track o t s =>
    have htracks : x.get .tracks = s.bits := hform
    simp only [htag, RailTile.tag, howner, htracks, RailTile.owner, RailTile.railType]
  | signals o t s k y =>
    obtain ⟨htracks, hkind, hstyle⟩ := hform
    simp only [htag, RailTile.tag, howner, htracks, hkind, hstyle, ofCodeD_code, RailTile.owner,
      RailTile.railType]
  | depot o t d =>
    obtain ⟨hfacility, hdirection⟩ := hform
    have hf : Facility.ofByte? x.m5 = some .depot :=
      (congrArg ofCode? hfacility).trans (ofCode?_code _)
    simp only [htag, RailTile.tag, howner, hf, hdirection, ofCodeD_code, RailTile.owner,
      RailTile.railType]
  | waypoint o t a i c =>
    obtain ⟨hfacility, haxis, hindex, hsprite⟩ := hform
    have hf : Facility.ofByte? x.m5 = some .waypoint :=
      (congrArg ofCode? hfacility).trans (ofCode?_code _)
    have hcustom : (c.toUInt8 == 1) = c := by cases c <;> rfl
    simp only [htag, RailTile.tag, howner, hf, haxis, hindex, hsprite, hcustom, ofCodeD_code,
      RailTile.owner, RailTile.railType]

theorem requireTracks_iff (h : x.Stores r) : x.requireTracks = .ok () ↔ r.tag.hasTracks = true := by
  rw [requireTracks_eq_ok_iff, h.ofByte_m5]
  exact and_iff_right h.isKind

theorem requireSignals_iff (h : x.Stores r) : x.requireSignals = .ok () ↔ r.tag = .signals := by
  rw [requireSignals_eq_ok_iff, h.ofByte_m5]
  exact and_iff_right h.isKind

theorem requirePlain_iff (h : x.Stores r) : x.requirePlain = .ok () ↔ r.tag = .plain := by
  rw [requirePlain_eq_ok_iff, h.ofByte_m5]
  exact and_iff_right h.isKind

/-- A facility stands on the tile exactly when it is that of the content. -/
theorem hasFacility_iff (h : x.Stores r) {f : Facility} :
    x.hasFacility f = true ↔ r.facility? = some f := by
  have hform := h.form
  rw [Tile.hasFacility_iff, h.ofByte_m5]
  cases r with
  | track o t s =>
    constructor
    · rintro ⟨-, htag, -⟩
      cases htag
    · intro hnone
      cases hnone
  | signals o t s k y =>
    constructor
    · rintro ⟨-, htag, -⟩
      cases htag
    · intro hnone
      cases hnone
  | depot o t d =>
    have hf : Facility.ofByte? x.m5 = some .depot :=
      (congrArg ofCode? hform.1).trans (ofCode?_code _)
    rw [hf]
    exact ⟨fun hstands => hstands.2.2, fun hdepot => ⟨h.isKind, rfl, hdepot⟩⟩
  | waypoint o t a i c =>
    have hf : Facility.ofByte? x.m5 = some .waypoint :=
      (congrArg ofCode? hform.1).trans (ofCode?_code _)
    rw [hf]
    exact ⟨fun hstands => hstands.2.2, fun hwaypoint => ⟨h.isKind, rfl, hwaypoint⟩⟩

theorem requireWaypoint_iff (h : x.Stores r) :
    x.requireWaypoint = .ok () ↔ r.facility? = some .waypoint := by
  rw [requireWaypoint_eq_ok_iff, h.hasFacility_iff]

end Stores

/-- Decoding yields exactly the content that the record stores. -/
theorem rail_eq_some_iff : x.rail = .ok (some r) ↔ x.Stores r := by
  constructor
  · intro hrail
    cases hkind : x.isKind .railway with
    | false =>
      rw [rail_of_not_railway hkind] at hrail
      cases hrail
    | true =>
      rw [rail_of_railway hkind] at hrail
      cases ht : x.railType with
      | error e =>
        rw [ht] at hrail
        cases hrail
      | ok t =>
        rw [ht] at hrail
        exact stores_of_spelled hkind ht (Except.ok.inj hrail)
  · intro h
    rw [rail_of_railway h.isKind, h.railType_eq]
    exact congrArg Except.ok h.spelled

end Tile

end RailGrid
