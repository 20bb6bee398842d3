import RailGrid.Proofs.Rail.Stored
import RailGrid.Proofs.TileMap.Course

/-!
# Readers and the decoded content

Each reader of a railway tile looks at the tag by a check of its own. Where decoding answers, the
checks pass exactly on the contents that have the item that is read, and the reader then yields that
item. So every reader can be foretold from the content, and where there is no content none of those
answers that ask for an item of one form.
-/

namespace RailGrid

open Enumeration

namespace RailTile

/-- The content is track, with or without signals. -/
def isTrack : RailTile → Bool
  | track _ _ _ | signals _ _ _ _ _ => true
  | depot _ _ _ | waypoint _ _ _ _ _ => false

/-- The role and the construction of the signals, where there are signals. -/
def signals? : RailTile → Option (SignalKind × SignalStyle)
  | signals _ _ _ k y => some (k, y)
  | track _ _ _ | depot _ _ _ | waypoint _ _ _ _ _ => none

/-- The edge to which the depot opens, if the content is a depot. -/
def depot? : RailTile → Option Direction
  | depot _ _ d => some d
  | track _ _ _ | signals _ _ _ _ _ | waypoint _ _ _ _ _ => none

/-- The axis, the number and the look of the waypoint, if the content is one. -/
def waypoint? : RailTile → Option (Axis × UInt16 × Bool)
  | waypoint _ _ a i c => some (a, i, c)
  | track _ _ _ | signals _ _ _ _ _ | depot _ _ _ => none

variable {r : RailTile}

theorem isTrack_eq : r.isTrack = r.tag.hasTracks := by cases r <;> rfl

theorem isSome_signals : r.signals?.isSome = true ↔ r.tag = .signals := by
  cases r <;> simp [signals?, tag]

theorem isSome_depot : r.depot?.isSome = true ↔ r.facility? = some .depot := by
  cases r <;> simp [depot?, facility?]

theorem isSome_waypoint : r.waypoint?.isSome = true ↔ r.facility? = some .waypoint := by
  cases r <;> simp [waypoint?, facility?]

theorem tracks_of_depot {d : Direction} (h : r.depot? = some d) :
    r.tracks = .single (.along d.axis) := by
  cases r <;> cases h
  rfl

end RailTile

namespace Tile

variable {x : Tile} {c : Option RailTile} {r : RailTile} {f : Facility}

/-- No tile is both a depot and a waypoint. -/
theorem not_isDepot_and_isWaypoint : ¬ (x.isDepot = true ∧ x.isWaypoint = true) := by
  rintro ⟨hdepot, hwaypoint⟩
  have hsame := (hasFacility_iff.mp hdepot).2.2.symm.trans (hasFacility_iff.mp hwaypoint).2.2
  cases hsame

/-! ### The checks, told from the content -/

/-- A railway tile has no content for want of a layout for its tag or for its facility bits. -/
theorem unassigned_of_rail_eq_none (hc : x.rail = .ok none) (hkind : x.isKind .railway = true) :
    RailTag.ofByte x.m5 = .unused ∨
      RailTag.ofByte x.m5 = .facility ∧ Facility.ofByte? x.m5 = none := by
  rw [rail_of_railway hkind] at hc
  cases ht : x.railType with
  | error e =>
    rw [ht] at hc
    cases hc
  | ok t =>
    rw [ht] at hc
    have hlayout : ¬ x.HasLayout := spelled_eq_none_iff.mp (Except.ok.inj hc)
    by_cases hunused : RailTag.ofByte x.m5 = .unused
    · exact .inl hunused
    · refine .inr (Decidable.byContradiction fun hassigned => hlayout ⟨hunused, ?_⟩)
      exact fun hfacility hnone => hassigned ⟨hfacility, hnone⟩

/-- Without a content no check of the tag passes that asks for a layout of track. -/
theorem not_admitted_of_rail_eq_none {p : RailTag → Prop} (hc : x.rail = .ok none)
    (hunused : ¬ p .unused) (hfacility : ¬ p .facility) :
    ¬ (x.isKind .railway = true ∧ p (.ofByte x.m5)) := by
  rintro ⟨hkind, htag⟩
  rcases unassigned_of_rail_eq_none hc hkind with h | ⟨h, -⟩
  · exact hunused (h ▸ htag)
  · exact hfacility (h ▸ htag)

theorem requireTracks_iff_of_rail (hc : x.rail = .ok c) :
    x.requireTracks = .ok () ↔ (c.filter RailTile.isTrack).isSome = true := by
  cases c with
  | some r =>
    rw [(rail_eq_some_iff.mp hc).requireTracks_iff, ← RailTile.isTrack_eq, Option.filter_some]
    cases r.isTrack <;> simp
  | none =>
    refine ⟨fun h => ?_, fun h => nomatch h⟩
    exact absurd (requireTracks_eq_ok_iff.mp h)
      (not_admitted_of_rail_eq_none hc (p := fun tag => tag.hasTracks = true) nofun nofun)

theorem requireSignals_iff_of_rail (hc : x.rail = .ok c) :
    x.requireSignals = .ok () ↔ (c.bind RailTile.signals?).isSome = true := by
  cases c with
  | some r =>
    rw [(rail_eq_some_iff.mp hc).requireSignals_iff, Option.bind_some, RailTile.isSome_signals]
  | none =>
    refine ⟨fun h => ?_, fun h => nomatch h⟩
    exact absurd (requireSignals_eq_ok_iff.mp h)
      (not_admitted_of_rail_eq_none hc (p := (· = .signals)) nofun nofun)

theorem hasFacility_iff_of_rail (hc : x.rail = .ok c) :
    x.hasFacility f = true ↔ c.bind RailTile.facility? = some f := by
  cases c with
  | some r => exact (rail_eq_some_iff.mp hc).hasFacility_iff
  | none =>
    refine ⟨fun h => ?_, fun h => nomatch h⟩
    obtain ⟨hkind, hfacility, hstands⟩ := hasFacility_iff.mp h
    rcases unassigned_of_rail_eq_none hc hkind with htag | ⟨-, hnone⟩
    · cases htag.symm.trans hfacility
    · cases hnone.symm.trans hstands

theorem isDepot_of_rail (hc : x.rail = .ok c) : x.isDepot = (c.bind RailTile.depot?).isSome := by
  rw [Bool.eq_iff_iff, isDepot, hasFacility_iff_of_rail hc]
  cases c with
  | some r => exact RailTile.isSome_depot.symm
  | none => simp

theorem isWaypoint_of_rail (hc : x.rail = .ok c) :
    x.isWaypoint = (c.bind RailTile.waypoint?).isSome := by
  rw [Bool.eq_iff_iff, isWaypoint, hasFacility_iff_of_rail hc]
  cases c with
  | some r => exact RailTile.isSome_waypoint.symm
  | none => simp

theorem requireDepot_iff_of_rail (hc : x.rail = .ok c) :
    x.requireDepot = .ok () ↔ (c.bind RailTile.depot?).isSome = true := by
  rw [← isDepot_of_rail hc]
  exact requireFacility_eq_ok_iff

theorem requireWaypoint_iff_of_rail (hc : x.rail = .ok c) :
    x.requireWaypoint = .ok () ↔ (c.bind RailTile.waypoint?).isSome = true := by
  rw [← isWaypoint_of_rail hc]
  exact requireWaypoint_eq_ok_iff

/-! ### The readers, told from the content -/

section Checked

variable {α β : Type} {check : Except TileFault Unit} {v : β} {part : α → β}

/-- A reader whose check passes where there is an item, and which then yields a part of it. -/
theorem toOption_require {item : Option α} (hcheck : check = .ok () ↔ item.isSome = true)
    (hv : ∀ a, item = some a → v = part a) :
    (do check; return v : Except TileFault β).toOption = item.map part := by
  cases item with
  | some a =>
    rw [hcheck.mpr rfl, hv a rfl]
    rfl
  | none =>
    cases check with
    | ok u => cases hcheck.mp rfl
    | error e => rfl

/-- A reader behind a check yields a part of the item for which the check looks. -/
theorem toOption_checked {item? : RailTile → Option α} (hc : x.rail = .ok c)
    (hcheck : check = .ok () ↔ (c.bind item?).isSome = true)
    (hv : ∀ r a, x.Stores r → item? r = some a → v = part a) :
    (do check; return v : Except TileFault β).toOption = (c.bind item?).map part := by
  refine toOption_require hcheck fun a ha => ?_
  obtain ⟨r, rfl, hr⟩ := Option.bind_eq_some_iff.mp ha
  exact hv r a (rail_eq_some_iff.mp hc) hr

end Checked

theorem owner_of_rail (hc : x.rail = .ok (some r)) : x.owner = .ok r.owner := by
  have h := rail_eq_some_iff.mp hc
  rw [owner, requireOwned_of_isKind h.isKind (by decide) (by decide), h.owner]
  rfl

/-- The tracks that are read of a tile of track are the tracks of its content. -/
theorem toOption_tracks (hc : x.rail = .ok c) :
    x.tracks.toOption = (c.filter RailTile.isTrack).map RailTile.tracks := by
  refine toOption_require (requireTracks_iff_of_rail hc) fun r hr => ?_
  obtain ⟨rfl, htrack⟩ := Option.filter_eq_some_iff.mp hr
  have hstores : x.Stores r := rail_eq_some_iff.mp hc
  rw [truncate_get_tracks]
  cases r with
  | track o t s => exact congrArg TrackSet.mk hstores.form
  | signals o t s k y => exact congrArg TrackSet.mk hstores.form.1
  | depot o t d => cases htrack
  | waypoint o t a i b => cases htrack

theorem toOption_signalKind (hc : x.rail = .ok c) :
    x.signalKind.toOption = (c.bind RailTile.signals?).map (·.1) := by
  refine toOption_checked hc (requireSignals_iff_of_rail hc) fun r a hr ha => ?_
  cases r <;> cases ha
  rw [hr.form.2.1, ofCodeD_code]

theorem toOption_signalStyle (hc : x.rail = .ok c) :
    x.signalStyle.toOption = (c.bind RailTile.signals?).map (·.2) := by
  refine toOption_checked hc (requireSignals_iff_of_rail hc) fun r a hr ha => ?_
  cases r <;> cases ha
  rw [hr.form.2.2, ofCodeD_code]

theorem toOption_depotDirection (hc : x.rail = .ok c) :
    x.depotDirection.toOption = c.bind RailTile.depot? := by
  have hread : x.depotDirection.toOption = (c.bind RailTile.depot?).map id := by
    refine toOption_checked hc (requireDepot_iff_of_rail hc) fun r d hr hd => ?_
    cases r <;> cases hd
    rw [hr.form.2, ofCodeD_code]
    rfl
  rw [hread, Option.map_id_apply]

theorem toOption_waypointAxis (hc : x.rail = .ok c) :
    x.waypointAxis.toOption = (c.bind RailTile.waypoint?).map (·.1) := by
  refine toOption_checked hc (requireWaypoint_iff_of_rail hc) fun r a hr ha => ?_
  cases r <;> cases ha
  rw [hr.form.2.1, ofCodeD_code]

theorem toOption_waypointTrack (hc : x.rail = .ok c) :
    x.waypointTrack.toOption = (c.bind RailTile.waypoint?).map fun a => .along a.1 := by
  have hread : x.waypointTrack.toOption = x.waypointAxis.toOption.map Track.along := by
    rw [waypointTrack]
    cases x.waypointAxis <;> rfl
  rw [hread, toOption_waypointAxis hc, Option.map_map]
  rfl

/-- The tracks that are read of a waypoint are the tracks of its content. -/
theorem toOption_waypointTracks (hc : x.rail = .ok c) :
    x.waypointTracks.toOption = (c.filter (·.waypoint?.isSome)).map RailTile.tracks := by
  have hread : x.waypointTracks.toOption = x.waypointTrack.toOption.map TrackSet.single := by
    rw [waypointTracks]
    cases x.waypointTrack <;> rfl
  rw [hread, toOption_waypointTrack hc]
  cases c with
  | none => rfl
  | some r => cases r <;> rfl

theorem toOption_waypointIndex (hc : x.rail = .ok c) :
    x.waypointIndex.toOption = (c.bind RailTile.waypoint?).map (·.2.1) := by
  refine toOption_checked hc (requireWaypoint_iff_of_rail hc) fun r a hr ha => ?_
  cases r <;> cases ha
  exact hr.form.2.2.1

theorem toOption_hasCustomSprite (hc : x.rail = .ok c) :
    x.hasCustomSprite.toOption = (c.bind RailTile.waypoint?).map (·.2.2) := by
  refine toOption_checked hc (requireWaypoint_iff_of_rail hc) fun r a hr ha => ?_
  cases r with
  | waypoint o t a i b =>
    cases ha
    rw [hr.form.2.2.2]
    cases b <;> rfl
  | _ => cases ha

end Tile

namespace TileMap

variable {m : TileMap} {t : TileIndex} {c : Option RailTile}

theorem toOption_ask {α : Type} {q : Tile → Except TileFault α} (ht : m.Valid t) :
    (m.ask t q).toOption = (q (m.get t ht)).toOption := by
  rw [ask_of_valid ht]
  cases q (m.get t ht) <;> rfl

theorem ask_testFacility {f : Facility} (ht : m.Valid t) :
    m.ask t (Tile.testFacility f) = .ok ((m.get t ht).hasFacility f) := by
  rw [ask_of_valid ht, Tile.testFacility_eq]
  rfl

/-- The readers of a tile answer as a content does, and are refused where it has no answer. -/
structure ReadsAs (m : TileMap) (t : TileIndex) (c : Option RailTile) : Prop where
  /-- Any content has an owner. -/
  owner : ∀ r, c = some r → m.ask t Tile.owner = .ok r.owner
  /-- Any content has a rail type. -/
  railType : ∀ r, c = some r → m.ask t Tile.railType = .ok r.railType
  /-- Track with or without signals has the tracks of its content. -/
  tracks : (m.ask t Tile.tracks).toOption = (c.filter RailTile.isTrack).map RailTile.tracks
  /-- Signals have a role. -/
  signalKind : (m.ask t Tile.signalKind).toOption = (c.bind RailTile.signals?).map (·.1)
  /-- Signals have a construction. -/
  signalStyle : (m.ask t Tile.signalStyle).toOption = (c.bind RailTile.signals?).map (·.2)
  /-- A depot opens to an edge. -/
  depotDirection : (m.ask t Tile.depotDirection).toOption = c.bind RailTile.depot?
  /-- The tracks of a depot are the straight track to its edge. -/
  depotTracks : ∀ r d, c = some r → m.ask t Tile.depotDirection = .ok d →
    r.tracks = .single (.along d.axis)
  /-- A waypoint has an axis. -/
  waypointAxis : (m.ask t Tile.waypointAxis).toOption = (c.bind RailTile.waypoint?).map (·.1)
  /-- A waypoint has the track along its axis. -/
  waypointTrack :
    (m.ask t Tile.waypointTrack).toOption = (c.bind RailTile.waypoint?).map fun a => .along a.1
  /-- A waypoint has the tracks of its content. -/
  waypointTracks : (m.ask t Tile.waypointTracks).toOption =
    (c.filter (·.waypoint?.isSome)).map RailTile.tracks
  /-- A waypoint has a number. -/
  waypointIndex : (m.ask t Tile.waypointIndex).toOption = (c.bind RailTile.waypoint?).map (·.2.1)
  /-- A waypoint has a look of its own or not. -/
  hasCustomSprite :
    (m.ask t Tile.hasCustomSprite).toOption = (c.bind RailTile.waypoint?).map (·.2.2)
  /-- The test for a depot succeeds on depots alone. -/
  isDepot : m.ask t (Tile.testFacility .depot) = .ok (c.bind RailTile.depot?).isSome
  /-- The test for a waypoint succeeds on waypoints alone. -/
  isWaypoint : m.ask t (Tile.testFacility .waypoint) = .ok (c.bind RailTile.waypoint?).isSome

/-- Where decoding answers, every reader agrees with the content or its absence; the tests for the
two facilities answer on any record at all, and never both with yes. -/
theorem readsAs_rail (ht : m.Valid t) :
    (∀ c, m.ask t Tile.rail = .ok c → m.ReadsAs t c) ∧
      m.ask t (Tile.testFacility .depot) = .ok (m.get t ht).isDepot ∧
      m.ask t (Tile.testFacility .waypoint) = .ok (m.get t ht).isWaypoint ∧
      ¬ ((m.get t ht).isDepot = true ∧ (m.get t ht).isWaypoint = true) := by
  refine ⟨fun c hask => ?_, ask_testFacility ht, ask_testFacility ht,
    Tile.not_isDepot_and_isWaypoint⟩
  obtain ⟨_, hc⟩ := ask_eq_ok_iff.mp hask
  have hdepot : (m.ask t Tile.depotDirection).toOption = c.bind RailTile.depot? :=
    (toOption_ask ht).trans (Tile.toOption_depotDirection hc)
  constructor
  case owner =>
    rintro r rfl
    exact ask_eq_ok_iff.mpr ⟨ht, Tile.owner_of_rail hc⟩
  case railType =>
    rintro r rfl
    exact ask_eq_ok_iff.mpr ⟨ht, (Tile.rail_eq_some_iff.mp hc).railType_eq⟩
  case tracks => exact (toOption_ask ht).trans (Tile.toOption_tracks hc)
  case signalKind => exact (toOption_ask ht).trans (Tile.toOption_signalKind hc)
  case signalStyle => exact (toOption_ask ht).trans (Tile.toOption_signalStyle hc)
  case depotDirection => exact hdepot
  case depotTracks =>
    rintro r d rfl hd
    rw [hd] at hdepot
    exact RailTile.tracks_of_depot hdepot.symm
  case waypointAxis => exact (toOption_ask ht).trans (Tile.toOption_waypointAxis hc)
  case waypointTrack => exact (toOption_ask ht).trans (Tile.toOption_waypointTrack hc)
  case waypointTracks => exact (toOption_ask ht).trans (Tile.toOption_waypointTracks hc)
  case waypointIndex => exact (toOption_ask ht).trans (Tile.toOption_waypointIndex hc)
  case hasCustomSprite => exact (toOption_ask ht).trans (Tile.toOption_hasCustomSprite hc)
  case isDepot => rw [ask_testFacility ht, ← Tile.isDepot_of_rail hc, Tile.isDepot]
  case isWaypoint => rw [ask_testFacility ht, ← Tile.isWaypoint_of_rail hc, Tile.isWaypoint]

/-- A waypoint among stray bits is read as its content says, and a railway tile with an unassigned
facility beside it is refused by every reader of one form. -/
theorem readsAs_rail_waypoint :
    let x : Tile := ⟨0x15, 0xE3, 0xBEEF, 0xB2, 0xF5, 0xC5⟩
    let y : Tile := ⟨0x15, 0xE3, 0xBEEF, 0xB2, 0xF5, 0xC8⟩
    let m : TileMap := ⟨0, 0, #[x, y]⟩
    let r : RailTile := .waypoint ⟨3⟩ .monorail .y 0xBEEF true
    m.Valid ⟨0⟩ ∧ m.Valid ⟨1⟩ ∧ m.ask ⟨0⟩ Tile.rail = .ok (some r) ∧
      m.ask ⟨1⟩ Tile.rail = .ok none ∧ m.ReadsAs ⟨0⟩ (some r) ∧ m.ReadsAs ⟨1⟩ none := by
  intro x y m r
  have hfirst : m.Valid ⟨0⟩ := by decide
  have hsecond : m.Valid ⟨1⟩ := by decide
  have hstores : x.Stores r :=
    ⟨by decide, by decide, by decide, by decide, by decide, by decide, by decide, by decide⟩
  have hr : m.ask ⟨0⟩ Tile.rail = .ok (some r) :=
    ask_eq_ok_iff.mpr ⟨hfirst, Tile.rail_eq_some_iff.mpr hstores⟩
  have htype : y.railType = .ok .monorail := Tile.railTypeIn_eq_ok_iff.mpr (by decide)
  have hspelled : y.spelled? .monorail = none := by decide
  have hy : y.rail = .ok none := by
    rw [Tile.rail_of_railway (by decide), htype]
    exact congrArg Except.ok hspelled
  have hnone : m.ask ⟨1⟩ Tile.rail = .ok none := ask_eq_ok_iff.mpr ⟨hsecond, hy⟩
  exact ⟨hfirst, hsecond, hr, hnone, (readsAs_rail hfirst).1 _ hr, (readsAs_rail hsecond).1 _ hnone⟩

end TileMap

end RailGrid
