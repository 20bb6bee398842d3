import RailGrid.Proofs.Rail.Construction
import RailGrid.Proofs.TileMap.FieldEdits

/-!
# Signals put up and taken away

What a signal tile will be without its signals does not depend on them: it has the tracks of the
tile and the rest of the record. Signals may therefore be put up, changed together with the tracks
and taken away again, and nothing of them is left; and signals that are taken away can be put up
again as they were.
-/

namespace RailGrid

open Enumeration

namespace Tile

variable {x : Tile} {f : Field} {v : UInt8} {s t : Option TrackSet} {k : SignalKind}
  {y : SignalStyle}

/-- The record with signals put up. -/
def signalled (x : Tile) (k : SignalKind) (y : SignalStyle) : Tile :=
  ((x.put .railTag (code RailTag.signals)).put .signalKind (code k)).put .signalStyle (code y)

/-- The record with other tracks, if there are any to write. -/
def withTracks (x : Tile) : Option TrackSet → Tile
  | none => x
  | some s => x.put .tracks s.bits

/-! ### Fields behind the signals -/

theorem stripped_put_of_within (h : f.Within .signals) : (x.put f v).stripped = x.stripped := by
  rw [stripped, put_put_of_within h, stripped]

theorem stripped_put_railTag : (x.put .railTag v).stripped = x.stripped := by
  rw [stripped, put_comm_of_disjoint (f := .railTag) (by decide), put_put, stripped]

theorem stripped_put_tracks : (x.put .tracks v).stripped = x.stripped.put .tracks v := by
  rw [stripped, put_comm_of_disjoint (f := .tracks) (by decide),
    put_comm_of_disjoint (f := .tracks) (by decide), stripped]

/-- Signals that are put up are taken away without a trace. -/
theorem stripped_signalled : (x.signalled k y).stripped = x.stripped := by
  rw [signalled, stripped_put_of_within (by decide), stripped_put_of_within (by decide),
    stripped_put_railTag]

/-- Where no signals stand, their bits are cleared all the same. -/
theorem stripped_of_requirePlain (h : x.requirePlain = .ok ()) : x.stripped = x.put .signals 0 := by
  obtain ⟨-, htag⟩ := requirePlain_eq_ok_iff.mp h
  have hget : (x.put .signals 0).get .railTag = code RailTag.plain := by
    rw [get_put_of_disjoint (by decide), ofByte_m5_iff.mp htag]
  rw [stripped, ← hget, put_get]

/-- Signals that were taken away are put up again as they were. -/
theorem signalled_stripped (h : x.requireSignals = .ok ()) (hk : code k = x.get .signalKind)
    (hy : code y = x.get .signalStyle) : x.stripped.signalled k y = x := by
  obtain ⟨-, htag⟩ := requireSignals_eq_ok_iff.mp h
  have hget : (x.put .signals 0).get .railTag = code RailTag.signals := by
    rw [get_put_of_disjoint (by decide), ofByte_m5_iff.mp htag]
  rw [stripped, signalled, put_put, ← hget, put_get, hk, hy]
  exact put_get_of_covers (f := .signals) rfl rfl (by decide)

theorem requirePlain_stripped (h : x.requireSignals = .ok ()) :
    x.stripped.requirePlain = .ok () := by
  obtain ⟨hkind, -⟩ := requireSignals_eq_ok_iff.mp h
  refine requirePlain_eq_ok_iff.mpr ⟨?_, ofByte_m5_iff.mpr (get_put_code (by decide))⟩
  rw [stripped, isKind_put_of_disjoint (by decide), isKind_put_of_disjoint (by decide), hkind]

theorem requireSignals_signalled (h : x.requirePlain = .ok ()) :
    (x.signalled k y).requireSignals = .ok () := by
  obtain ⟨hkind, -⟩ := requirePlain_eq_ok_iff.mp h
  rw [signalled, requireSignals_put (by decide) (by decide),
    requireSignals_put (by decide) (by decide)]
  refine requireSignals_eq_ok_iff.mpr ⟨?_, ofByte_m5_iff.mpr (get_put_code (by decide))⟩
  rw [isKind_put_of_disjoint (by decide), hkind]

theorem requireTracks_of_requireSignals (h : x.requireSignals = .ok ()) :
    x.requireTracks = .ok () := by
  obtain ⟨hkind, htag⟩ := requireSignals_eq_ok_iff.mp h
  exact requireTracks_eq_ok_iff.mpr ⟨hkind, by rw [htag]; rfl⟩

theorem withTracks_withTracks : (x.withTracks s).withTracks t = x.withTracks (t.or s) := by
  cases t with
  | none => rfl
  | some t =>
    cases s with
    | none => rfl
    | some s => exact put_put

/-! ### Bytes -/

theorem get_signals : x.get .signals = x.m4 &&& 0x07 := BitRange.readByte_low

theorem put_signals_zero : x.put .signals 0 = { x with m4 := x.m4 &&& 0xF8 } := by
  have hbyte : Field.signals.range.writeByte x.m4 0 = x.m4 &&& 0xF8 := by
    rw [Field.signals, BitRange.writeByte_low, UInt8.zero_and, UInt8.or_zero]
    rfl
  rw [← hbyte]
  rfl

theorem put_tracks : x.put .tracks v = { x with m5 := (x.m5 &&& 0xC0) ||| (v &&& 0x3F) } := by
  have hbyte : Field.tracks.range.writeByte x.m5 v = (x.m5 &&& 0xC0) ||| (v &&& 0x3F) := by
    rw [Field.tracks, BitRange.writeByte_low]
    rfl
  rw [← hbyte]
  rfl

/-- Plain track with its signals taken away and its tracks replaced, byte for byte. -/
theorem withTracks_stripped (h : x.requirePlain = .ok ()) : x.stripped.withTracks s =
    { x with
      m4 := x.m4 &&& 0xF8
      m5 := match s with
        | none => x.m5
        | some s => (x.m5 &&& 0xC0) ||| (s.bits &&& 0x3F) } := by
  rw [stripped_of_requirePlain h, put_signals_zero]
  cases s with
  | none => rfl
  | some s => exact put_tracks

/-- Where no signals stand and their bits are clear there is nothing to take away. -/
theorem stripped_eq_self (h : x.requirePlain = .ok ()) (hclear : x.m4 &&& 0x07 = 0) :
    x.stripped = x := by
  rw [stripped_of_requirePlain h, ← hclear, ← get_signals, put_get]

/-! ### Checks by the tag -/

theorem requirePlain_of_railTag (h : x.railTag = .ok .plain) : x.requirePlain = .ok () := by
  rw [requirePlain, h]
  rfl

theorem requireSignals_of_railTag (h : x.railTag = .ok .signals) : x.requireSignals = .ok () := by
  rw [requireSignals, h]
  rfl

/-- A signal tile shows the role and the construction that it stores. -/
theorem exists_signals (h : x.requireSignals = .ok ()) : ∃ k y, x.signalKind = .ok k ∧
    x.signalStyle = .ok y ∧ code k = x.get .signalKind ∧ code y = x.get .signalStyle := by
  refine ⟨_, _, ?_, ?_, code_ofCodeD_get (d := SignalKind.combo) (by decide),
    code_ofCodeD_get (d := SignalStyle.electric) (by decide)⟩
  · rw [signalKind, h]
    rfl
  · rw [signalStyle, h]
    rfl

end Tile

namespace Edit

/-- The edit changes signals or tracks, on a signal tile. -/
def KeepsSignals : Edit → Prop
  | setSignalKind _ | setSignalStyle _ | setTracks _ => True
  | _ => False

/-- The tracks that the edit writes. -/
def tracks? : Edit → Option TrackSet
  | setTracks s => some s
  | _ => none

/-- The tracks that are written last. -/
def lastTracks? (es : List Edit) : Option TrackSet := (es.filterMap tracks?).getLast?

variable {e : Edit} {es : List Edit} {x : Tile}

theorem lastTracks?_cons : lastTracks? (e :: es) = (lastTracks? es).or e.tracks? := by
  cases he : e.tracks? with
  | none => rw [lastTracks?, List.filterMap_cons_none he, Option.or_none, lastTracks?]
  | some s =>
    rw [lastTracks?, List.filterMap_cons_some he, List.getLast?_cons, ← lastTracks?]
    cases lastTracks? es <;> rfl

/-- While signals stand, each of these edits writes its field, keeps the signals up and leaves what
is behind them as it was but for the tracks. -/
theorem put_of_keepsSignals (he : e.KeepsSignals) (hx : x.requireSignals = .ok ()) :
    ∃ f, e.field? = some f ∧ e.argumentFault? = none ∧ e.check x = .ok () ∧
      (x.put f e.item).requireSignals = .ok () ∧
      (x.put f e.item).stripped = x.stripped.withTracks e.tracks? := by
  have hstand {f : Field} (hkind : Field.kind.Disjoint f) (htag : Field.railTag.Disjoint f) :
      (x.put f e.item).requireSignals = .ok () := (Tile.requireSignals_put hkind htag).trans hx
  cases e with
  | setSignalKind k =>
    exact ⟨.signalKind, rfl, rfl, hx, hstand (by decide) (by decide),
      Tile.stripped_put_of_within (by decide)⟩
  | setSignalStyle y =>
    exact ⟨.signalStyle, rfl, rfl, hx, hstand (by decide) (by decide),
      Tile.stripped_put_of_within (by decide)⟩
  | setTracks s =>
    exact ⟨.tracks, rfl, rfl, Tile.requireTracks_of_requireSignals hx,
      hstand (by decide) (by decide), Tile.stripped_put_tracks⟩
  | _ => exact absurd he id

end Edit

namespace TileMap

variable {m : TileMap} {t : TileIndex} {x : Tile} {k : SignalKind} {y : SignalStyle}
  {es : List Edit}

theorem edit_addSignals (hx : m.tile t = .ok x) (hplain : x.requirePlain = .ok ()) :
    m.edit t (.addSignals k y) = (.ok (), m.setTile t (x.signalled k y)) := by
  obtain ⟨hkind, htag⟩ := Tile.requirePlain_eq_ok_iff.mp hplain
  exact edit_of_change rfl hx (Change.on_addSignals hkind (Tile.ofByte_m5_iff.mp htag))

theorem edit_removeSignals (hx : m.tile t = .ok x) (hsignals : x.requireSignals = .ok ()) :
    m.edit t .removeSignals = (.ok (), m.setTile t x.stripped) :=
  edit_of_change rfl hx (Change.on_guarded_of_ok hsignals)

/-- Whatever is done to the signals and the tracks before the signals are taken away, the last
tracks are left of it. -/
theorem course_removeSignals (hes : ∀ e ∈ es, e.KeepsSignals) (hx : m.tile t = .ok x)
    (hsignals : x.requireSignals = .ok ()) :
    m.course ((es ++ [Edit.removeSignals]).map (t, ·)) =
      (List.replicate (es.length + 1) (.ok ()),
        m.setTile t (x.stripped.withTracks (Edit.lastTracks? es))) := by
  -- the signals stand before each of the edits, and what is behind them moves with the tracks alone
  induction es generalizing m x with
  | nil =>
    rw [List.nil_append, List.map_singleton, course, edit_removeSignals hx hsignals]
    rfl
  | cons e es ih =>
    obtain ⟨f, hfield, hfault, hcheck, hstand, hbehind⟩ :=
      Edit.put_of_keepsSignals (hes e List.mem_cons_self) hsignals
    have hrest := ih (fun d hd => hes d (List.mem_cons_of_mem e hd))
      (tile_setTile_of_tile (y := x.put f e.item) hx) hstand
    rw [List.cons_append, List.map_cons, course, edit_of_check hfield hfault hx hcheck, hrest,
      setTile_setTile, hbehind, Tile.withTracks_withTracks, Edit.lastTracks?_cons]
    rfl

/-- Signals that are put up and taken away leave the tile without them, whatever is done to them and
to the tracks in between, but for the tracks. -/
theorem course_addSignals (hes : ∀ e ∈ es, e.KeepsSignals) (hx : m.tile t = .ok x)
    (hplain : x.requirePlain = .ok ()) :
    m.course ((Edit.addSignals k y :: (es ++ [Edit.removeSignals])).map (t, ·)) =
      (List.replicate (es.length + 2) (.ok ()),
        m.setTile t (x.stripped.withTracks (Edit.lastTracks? es))) := by
  have hstand : (x.signalled k y).requireSignals = .ok () := Tile.requireSignals_signalled hplain
  rw [List.map_cons, course, edit_addSignals hx hplain,
    course_removeSignals hes (tile_setTile_of_tile hx) hstand, setTile_setTile,
    Tile.stripped_signalled]
  rfl

/-- Signals may be put up on plain track, changed together with the tracks and taken away again, and
none of these edits is refused: the record is as before, but that the bits of the signals are clear
and the bits of the tracks hold those that were written last. With no tracks written and no stray
bits in the place of the signals the map is as before. Signals that are taken away and put up again
with the role and the construction that they showed leave the map as it was. -/
theorem course_signals (m : TileMap) (t : TileIndex) :
    (∀ x, m.tile t = .ok x → m.ask t Tile.railTag = .ok .plain →
      ∀ (k : SignalKind) (y : SignalStyle) (es : List Edit), (∀ e ∈ es, e.KeepsSignals) →
        let steps := (Edit.addSignals k y :: (es ++ [Edit.removeSignals])).map (t, ·)
        m.course steps = (List.replicate steps.length (.ok ()), m.setTile t
          { x with
            m4 := x.m4 &&& 0xF8
            m5 := match Edit.lastTracks? es with
              | none => x.m5
              | some s => (x.m5 &&& 0xC0) ||| (s.bits &&& 0x3F) }) ∧
        (Edit.lastTracks? es = none → x.m4 &&& 0x07 = 0 → (m.course steps).2 = m)) ∧
    (m.ask t Tile.railTag = .ok .signals → ∃ k y, m.ask t Tile.signalKind = .ok k ∧
      m.ask t Tile.signalStyle = .ok y ∧
      m.course [(t, .removeSignals), (t, .addSignals k y)] = ([.ok (), .ok ()], m)) := by
  refine ⟨?_, fun htag => ?_⟩
  · intro x hx htag k y es hes steps
    obtain ⟨ht, hget⟩ := ask_eq_ok_iff.mp htag
    obtain rfl : m.get t ht = x := Except.ok.inj ((tile_of_valid ht).symm.trans hx)
    have hplain := Tile.requirePlain_of_railTag hget
    have hcourse := course_addSignals (k := k) (y := y) hes hx hplain
    have hlength : steps.length = es.length + 2 := by
      simp only [steps, List.length_map, List.length_cons, List.length_append, List.length_nil]
    refine ⟨?_, fun hnone hclear => ?_⟩
    · rw [hcourse, hlength, Tile.withTracks_stripped hplain]
    · rw [hcourse, hnone]
      exact (congrArg (m.setTile t) (Tile.stripped_eq_self hplain hclear)).trans
        (setTile_of_tile hx)
  · obtain ⟨ht, hget⟩ := ask_eq_ok_iff.mp htag
    have hx := tile_of_valid ht
    have hsignals := Tile.requireSignals_of_railTag hget
    obtain ⟨k, y, hkind, hstyle, hk, hy⟩ := Tile.exists_signals hsignals
    refine ⟨k, y, ask_of_tile hx hkind, ask_of_tile hx hstyle, ?_⟩
    have hstripped : (m.setTile t (m.get t ht).stripped).tile t = .ok (m.get t ht).stripped :=
      tile_setTile_of_tile hx
    have hback := edit_addSignals (k := k) (y := y) hstripped (Tile.requirePlain_stripped hsignals)
    rw [setTile_setTile, Tile.signalled_stripped hsignals hk hy, setTile_of_tile hx] at hback
    rw [course, edit_removeSignals hx hsignals, course, hback]
    rfl

/-- Track bits without a meaning do not reach the tag, and beside the signals the byte keeps what it
held; on another tile the signals are taken away and come back as they were. -/
theorem course_signals_stray :
    let x : Tile := ⟨0x15, 0xE3, 0xBEEF, 0xA2, 0xF5, 0x2A⟩
    let y : Tile := { x with m4 := 0xFE, m5 := 0x6A }
    let m : TileMap := ⟨0, 0, #[x, y]⟩
    let es : List Edit := [.setTracks ⟨0x01⟩, .setSignalKind .exit, .setTracks ⟨0xFF⟩,
      .setSignalStyle .electric]
    m.course ((Edit.addSignals .combo .semaphore :: (es ++ [Edit.removeSignals])).map (⟨0⟩, ·)) =
        (.replicate 6 (.ok ()), ⟨0, 0, #[{ x with m4 := 0xF0, m5 := 0x3F }, y]⟩) ∧
      m.ask ⟨1⟩ Tile.railTag = .ok .signals ∧ ∃ k v, m.ask ⟨1⟩ Tile.signalKind = .ok k ∧
        m.ask ⟨1⟩ Tile.signalStyle = .ok v ∧
        m.course [(⟨1⟩, .removeSignals), (⟨1⟩, .addSignals k v)] = ([.ok (), .ok ()], m) := by
  intro x y m es
  have hes : ∀ e ∈ es, e.KeepsSignals := by simp [es, Edit.KeepsSignals]
  have hplain : x.railTag = .ok .plain :=
    (Tile.railTag_of_railway (by decide)).trans (congrArg Except.ok (by decide))
  have hsignals : y.railTag = .ok .signals :=
    (Tile.railTag_of_railway (by decide)).trans (congrArg Except.ok (by decide))
  have htag : m.ask ⟨1⟩ Tile.railTag = .ok .signals := ask_of_tile rfl hsignals
  have hup := (course_signals m ⟨0⟩).1 x rfl (ask_of_tile rfl hplain) .combo .semaphore es hes
  exact ⟨hup.1.trans (Prod.ext rfl (by decide)), htag, (course_signals m ⟨1⟩).2 htag⟩

end TileMap

end RailGrid
