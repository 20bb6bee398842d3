import RailGrid.Proofs.Rail.Writes
import RailGrid.Proofs.TileMap.Course

/-!
# The packed record implements its content

A site is stored in a record when the fields hold its content, or when the record is that of cleared
land. Every edit that keeps to the content then does to the record what `Site.step` does to the
site: it is taken or refused alike, and the site it leaves is stored in the record it leaves. By
induction the same holds of whole runs, so a tile can be thought of as its content alone.
-/

namespace RailGrid

open Enumeration Tile Change

namespace Site

/-- The record stores the site. -/
def StoredIn (x : Tile) : Site → Prop
  | built r => x.Stores r
  | cleared o t => x.IsCleared o t

/-- A step on the site and an outcome on a record agree: both are taken or both are refused, and
the record that is left stores the site that is left. -/
structure Agrees (p : Except TileFault Unit × Tile) (q : Bool × Site) : Prop where
  /-- Both are taken or both are refused. -/
  taken : p.1.isOk = q.1
  /-- The site that is left is stored. -/
  stored : q.2.StoredIn p.2

variable {x : Tile} {s : Site} {r : RailTile} {g : RailTile → Option RailTile}

/-- Decoding the record yields the content of the site. -/
theorem StoredIn.rail_eq (h : s.StoredIn x) : x.rail = .ok s.content? := by
  cases s with
  | built r => exact rail_eq_some_iff.mpr h
  | cleared o t => exact rail_of_not_railway h.not_isRailway

/-! ### Changing a part of the content -/

/-- An edit of a part agrees when it is taken exactly on the contents that have the part. -/
theorem agrees_change {p : Except TileFault Unit × Tile} (hs : s.StoredIn x)
    (htaken : ∀ r n, x.Stores r → g r = some n → p.1 = .ok () ∧ p.2.Stores n)
    (hrefused : ∀ r, x.Stores r → g r = none → ∃ f, p = (.error f, x))
    (hcleared : x.isKind .railway = false → ∃ f, p = (.error f, x)) :
    Agrees p (outcome (s.change? g) s) := by
  cases s with
  | cleared o t =>
    obtain ⟨f, rfl⟩ := hcleared hs.not_isRailway
    exact ⟨rfl, hs⟩
  | built r =>
    cases hg : g r with
    | none =>
      obtain ⟨f, rfl⟩ := hrefused r hs hg
      have hchange : (built r).change? g = none := congrArg (Option.map built) hg
      rw [hchange]
      exact ⟨rfl, hs⟩
    | some n =>
      obtain ⟨hok, hstores⟩ := htaken r n hs hg
      have hchange : (built r).change? g = some (built n) := congrArg (Option.map built) hg
      rw [hchange]
      exact ⟨by rw [hok]; rfl, hstores⟩

theorem exists_on_guarded {check : Tile → Except TileFault Unit} {write : Tile → Tile}
    (h : check x ≠ .ok ()) : ∃ f, (guarded check write).on x = (.error f, x) := by
  cases hcheck : check x with
  | ok u => exact absurd hcheck h
  | error f => exact ⟨f, on_guarded_of_error hcheck⟩

/-- A guarded write agrees when its check admits the contents that have the part. -/
theorem agrees_guarded {check : Tile → Except TileFault Unit} {write : Tile → Tile}
    (hs : s.StoredIn x) (hrailway : check x = .ok () → x.isKind .railway = true)
    (hcheck : ∀ r, x.Stores r → (check x = .ok () ↔ (g r).isSome = true))
    (hwrite : ∀ r n, x.Stores r → g r = some n → (write x).Stores n) :
    Agrees ((guarded check write).on x) (outcome (s.change? g) s) := by
  refine agrees_change hs ?_ ?_ ?_
  · intro r n hr hn
    have hok : check x = .ok () := (hcheck r hr).mpr (by rw [hn]; rfl)
    rw [on_guarded_of_ok hok]
    exact ⟨rfl, hwrite r n hr hn⟩
  · intro r hr hn
    refine exists_on_guarded fun hok => ?_
    have hsome := (hcheck r hr).mp hok
    rw [hn] at hsome
    cases hsome
  · intro hkind
    refine exists_on_guarded fun hok => ?_
    rw [hrailway hok] at hkind
    cases hkind

theorem agrees_setTracks {u : TrackSet} (hs : s.StoredIn x) :
    Agrees ((setTracks u).on x) (outcome (s.change? (RailTile.withTracks? u.truncate)) s) := by
  refine agrees_guarded hs (fun h => (requireTracks_eq_ok_iff.mp h).1) (fun r hr => ?_)
    fun r n hr hn => hr.put_tracks hn
  rw [hr.requireTracks_iff]
  cases r <;> rfl

theorem agrees_setCustomSprite {c : Bool} (hs : s.StoredIn x) :
    Agrees ((setCustomSprite c).on x) (outcome (s.change? (RailTile.withCustomSprite? c)) s) := by
  refine agrees_guarded hs (fun h => ?_) (fun r hr => ?_) fun r n hr hn => hr.put_customSprite hn
  · exact (hasFacility_iff.mp (requireWaypoint_eq_ok_iff.mp h)).1
  · rw [hr.requireWaypoint_iff]
    cases r <;> simp [RailTile.facility?, RailTile.withCustomSprite?]

theorem agrees_setSignalKind {k : SignalKind} (hs : s.StoredIn x) :
    Agrees ((setSignalKind k).on x) (outcome (s.change? (RailTile.withSignalKind? k)) s) := by
  refine agrees_guarded hs (fun h => (requireSignals_eq_ok_iff.mp h).1) (fun r hr => ?_)
    fun r n hr hn => hr.put_signalKind hn
  rw [hr.requireSignals_iff]
  cases r <;> simp [RailTile.tag, RailTile.withSignalKind?]

theorem agrees_setSignalStyle {y : SignalStyle} (hs : s.StoredIn x) :
    Agrees ((setSignalStyle y).on x) (outcome (s.change? (RailTile.withSignalStyle? y)) s) := by
  refine agrees_guarded hs (fun h => (requireSignals_eq_ok_iff.mp h).1) (fun r hr => ?_)
    fun r n hr hn => hr.put_signalStyle hn
  rw [hr.requireSignals_iff]
  cases r <;> simp [RailTile.tag, RailTile.withSignalStyle?]

theorem agrees_removeSignals (hs : s.StoredIn x) :
    Agrees (removeSignals.on x) (outcome (s.change? RailTile.removeSignals?) s) := by
  refine agrees_guarded hs (fun h => (requireSignals_eq_ok_iff.mp h).1) (fun r hr => ?_)
    fun r n hr hn => hr.put_railTag_plain hn
  rw [hr.requireSignals_iff]
  cases r <;> simp [RailTile.tag, RailTile.removeSignals?]

/-- Adding signals is refused at the first of its three writes or not at all. -/
theorem agrees_addSignals {k : SignalKind} {y : SignalStyle} (hs : s.StoredIn x) :
    Agrees ((addSignals k y).on x) (outcome (s.change? (RailTile.addSignals? k y)) s) := by
  have hrefused (h : x.requirePlain ≠ .ok ()) : ∃ f, (addSignals k y).on x = (.error f, x) := by
    cases hplain : x.requirePlain with
    | ok u => exact absurd hplain h
    | error f => exact ⟨f, on_addSignals_of_error hplain⟩
  refine agrees_change hs ?_ ?_ ?_
  · intro r n hr hn
    cases r with
    | track o t u =>
      cases hn
      rw [on_addSignals hr.isKind hr.tag]
      obtain ⟨_, _, hmarked⟩ := hr.put_railTag_signals
      exact ⟨rfl, (hmarked.put_signalKind rfl).put_signalStyle rfl⟩
    | signals o t u j z | depot o t d | waypoint o t a i c => cases hn
  · intro r hr hn
    refine hrefused fun hok => ?_
    have htag : r.tag = .plain := hr.requirePlain_iff.mp hok
    cases r <;> cases hn <;> cases htag
  · intro hkind
    refine hrefused fun hok => ?_
    rw [(requirePlain_eq_ok_iff.mp hok).1] at hkind
    cases hkind

/-! ### Laying out a content -/

/-- A constructor is the layout of its content. -/
theorem on_change_of_content {e : Edit} (he : e.content? = some r) :
    e.change.on x = (setRail r).on x := by
  cases e <;> cases he
  case makeWaypoint => exact on_makeWaypoint
  all_goals rfl

theorem edit?_of_content {e : Edit} (he : e.content? = some r) : s.edit? e = lay? r := by
  cases e <;> cases he <;> rfl

/-- A constructor agrees on every site, also when it stops at the owner. -/
theorem agrees_of_content {e : Edit} (hs : s.StoredIn x) (he : e.content? = some r) :
    Agrees (e.change.on x) (s.step e) := by
  rw [on_change_of_content he, step, edit?_of_content he, lay?]
  by_cases ho : r.owner.Fits
  · rw [on_setRail_of_fits ho, if_pos ho]
    exact ⟨rfl, stores_laidOut ho⟩
  · rw [on_setRail_of_not_fits ho, if_neg ho]
    -- the kind is written before the owner is refused, which only cleared land can tell
    cases s with
    | built q =>
      have hkept : x.put .kind (code TileKind.railway) = x := by
        have hkind : x.get .kind = code TileKind.railway := hs.kind
        rw [← hkind, put_get]
      exact ⟨rfl, hkept.symm ▸ hs⟩
    | cleared o t =>
      have hafter : (cleared o t).afterRefusal e = built (.track o t ⟨0⟩) := by
        rw [afterRefusal, he]
        rfl
      rw [hafter]
      exact ⟨rfl, hs.put_kind⟩

/-! ### Edits that every site admits -/

theorem StoredIn.requireOwned (h : s.StoredIn x) : x.requireOwned = .ok () := by
  cases s with
  | built r => exact requireOwned_of_isKind h.isKind (by decide) (by decide)
  | cleared o t => exact requireOwned_of_isKind h.isKind (by decide) (by decide)

theorem agrees_setOwner {o : Owner} (hs : s.StoredIn x) :
    Agrees ((setOwner o).on x) (outcome (if o.Fits then some (s.withOwner o) else none) s) := by
  by_cases ho : o.Fits
  · rw [on_setOwner_of_fits hs.requireOwned ho, if_pos ho]
    refine ⟨rfl, ?_⟩
    cases s with
    | built r => exact hs.put_owner ho
    | cleared p t => exact hs.put_owner ho
  · rw [on_setOwner_of_not_fits hs.requireOwned ho, if_neg ho]
    exact ⟨rfl, hs⟩

theorem StoredIn.put_height {h : UInt8} (hs : s.StoredIn x) : s.StoredIn (x.put .height h) := by
  cases s with
  | built r => exact Stores.put_height hs
  | cleared o t => exact IsCleared.put_height hs

theorem StoredIn.put_railType {t : RailType} (hs : s.StoredIn x) :
    (s.withRailType t).StoredIn (x.put .railType (code t)) := by
  cases s with
  | built r => exact Stores.put_railType hs
  | cleared o u => exact IsCleared.put_railType hs

/-- A tile with a site is of the two kinds that a site can have. -/
theorem StoredIn.not_isKind {k : TileKind} (hs : s.StoredIn x) (hrailway : .railway ≠ k)
    (hclear : .clear ≠ k) : x.isKind k = false := by
  cases s with
  | built r => exact isKind_eq_false (Stores.isKind hs) hrailway
  | cleared o t => exact isKind_eq_false (IsCleared.isKind hs) hclear

theorem afterRefusal_of_content_eq_none {e : Edit} (he : e.content? = none) :
    s.afterRefusal e = s := by
  cases s with
  | built r => rfl
  | cleared o t => rw [afterRefusal, he]; rfl

/-! ### Every edit -/

/-- Every edit that keeps to the content does to the record what it does to the site. -/
theorem agrees_step {e : Edit} (hs : s.StoredIn x) (he : e.KeepsToContent)
    (hargument : e.argumentFault? = none) : Agrees (e.change.on x) (s.step e) := by
  cases hcontent : e.content? with
  | some r => exact agrees_of_content hs hcontent
  | none =>
    rw [step, afterRefusal_of_content_eq_none hcontent]
    cases e with
    | setHeight h =>
      have hlt : h < 16 := by
        by_cases hlt : h < 16
        · exact hlt
        · rw [Edit.argumentFault?, if_neg hlt] at hargument
          cases hargument
      rw [edit?, if_pos hlt]
      exact ⟨rfl, hs.put_height⟩
    | setOwner o => exact agrees_setOwner hs
    | makeClear =>
      rw [Edit.change, on_makeClear]
      exact ⟨rfl, IsCleared.of_makeClear⟩
    | setRailType t => exact ⟨rfl, hs.put_railType⟩
    | setCrossingRailType t =>
      have hroad : x.isKind .road = false := hs.not_isKind (by decide) (by decide)
      have hrefused : x.requireCrossing = .error .notCrossing := by
        rw [requireCrossing, hroad]
        rfl
      rw [Edit.change, setCrossingRailType, on_guarded_of_error hrefused]
      exact ⟨rfl, hs⟩
    | setBridgeRailType t =>
      have hbridge : x.isKind .tunnelBridge = false := hs.not_isKind (by decide) (by decide)
      have hrefused : x.requireBridge = .error .notBridge := by
        rw [requireBridge, hbridge]
        rfl
      rw [Edit.change, setBridgeRailType, on_guarded_of_error hrefused]
      exact ⟨rfl, hs⟩
    | setTracks u => exact agrees_setTracks hs
    | setCustomSprite c => exact agrees_setCustomSprite hs
    | setSignalKind k => exact agrees_setSignalKind hs
    | setSignalStyle y => exact agrees_setSignalStyle hs
    | addSignals k y => exact agrees_addSignals hs
    | removeSignals => exact agrees_removeSignals hs
    | makeTrack o u t | makeDepot o d t | makeWaypoint o a t i | setRail r => cases hcontent
    | setKind k | overwrite y => cases he

end Site

end RailGrid
