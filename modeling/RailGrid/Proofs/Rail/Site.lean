import RailGrid.Proofs.Rail.Stored
import RailGrid.Tile.Edit

/-!
# Building on the content alone

What the edits do to a railway tile, told on its content without any record. An edit that the form
of the content does not have is not defined. Clearing leaves a site without content, on which the
owner and the rail type can still be set; they come to light when a constructor is refused there
after it has made the land a railway tile.
-/

namespace RailGrid

namespace RailTile

/-- The content with another owner. -/
def withOwner (o : Owner) : RailTile → RailTile
  | track _ t s => track o t s
  | signals _ t s k y => signals o t s k y
  | depot _ t d => depot o t d
  | waypoint _ t a i c => waypoint o t a i c

/-- The content with another rail type. -/
def withRailType (t : RailType) : RailTile → RailTile
  | track o _ s => track o t s
  | signals o _ s k y => signals o t s k y
  | depot o _ d => depot o t d
  | waypoint o _ a i c => waypoint o t a i c

/-- The content with other tracks, where tracks are stored. -/
def withTracks? (s : TrackSet) : RailTile → Option RailTile
  | track o t _ => some (track o t s)
  | signals o t _ k y => some (signals o t s k y)
  | depot _ _ _ | waypoint _ _ _ _ _ => none

/-- The content with signals of another role, where there are signals. -/
def withSignalKind? (k : SignalKind) : RailTile → Option RailTile
  | signals o t s _ y => some (signals o t s k y)
  | track _ _ _ | depot _ _ _ | waypoint _ _ _ _ _ => none

/-- The content with signals of another construction, where there are signals. -/
def withSignalStyle? (y : SignalStyle) : RailTile → Option RailTile
  | signals o t s k _ => some (signals o t s k y)
  | track _ _ _ | depot _ _ _ | waypoint _ _ _ _ _ => none

/-- Plain track with signals added to it. -/
def addSignals? (k : SignalKind) (y : SignalStyle) : RailTile → Option RailTile
  | track o t s => some (signals o t s k y)
  | signals _ _ _ _ _ | depot _ _ _ | waypoint _ _ _ _ _ => none

/-- Track with signals, without its signals. -/
def removeSignals? : RailTile → Option RailTile
  | signals o t s _ _ => some (track o t s)
  | track _ _ _ | depot _ _ _ | waypoint _ _ _ _ _ => none

/-- A waypoint with or without a look of its own. -/
def withCustomSprite? (c : Bool) : RailTile → Option RailTile
  | waypoint o t a i _ => some (waypoint o t a i c)
  | track _ _ _ | signals _ _ _ _ _ | depot _ _ _ => none

end RailTile

namespace Edit

/-- The content that a constructor lays out. -/
def content? : Edit → Option RailTile
  | makeTrack o s t => some (.track o t s)
  | makeDepot o d t => some (.depot o t d)
  | makeWaypoint o a t i => some (.waypoint o t a i false)
  | setRail r => some r
  | _ => none

/-- The edit neither retypes a tile by hand nor replaces its whole record. -/
def KeepsToContent : Edit → Prop
  | setKind _ | overwrite _ => False
  | _ => True

end Edit

/-- A tile as far as railway building is concerned. -/
inductive Site where
  /-- A railway tile with its content. -/
  | built (r : RailTile)
  /-- Cleared land, with the owner and the rail type that its record holds. -/
  | cleared (owner : Owner) (railType : RailType)
  deriving DecidableEq, Repr

namespace Site

/-- The content of the site, if something is built on it. -/
def content? : Site → Option RailTile
  | built r => some r
  | cleared _ _ => none

/-- The site with another owner. -/
def withOwner (o : Owner) : Site → Site
  | built r => built (r.withOwner o)
  | cleared _ t => cleared o t

/-- The site with another rail type. -/
def withRailType (t : RailType) : Site → Site
  | built r => built (r.withRailType t)
  | cleared o _ => cleared o t

/-- The site after a constructor has laid out a content, whose owner must fit into a record. -/
def lay? (r : RailTile) : Option Site := if r.owner.Fits then some (built r.truncate) else none

/-- The site with a part of its content changed, where it has that part. -/
def change? (f : RailTile → Option RailTile) (s : Site) : Option Site :=
  (s.content?.bind f).map built

/-- The site after an edit, where the edit is defined on it. -/
def edit? (s : Site) : Edit → Option Site
  | .setHeight h => if h < 16 then some s else none
  | .setOwner o => if o.Fits then some (s.withOwner o) else none
  | .makeClear => some (cleared .nobody .rail)
  | .setRailType t => some (s.withRailType t)
  | .setTracks u => s.change? (RailTile.withTracks? u.truncate)
  | .setCustomSprite c => s.change? (RailTile.withCustomSprite? c)
  | .setSignalKind k => s.change? (RailTile.withSignalKind? k)
  | .setSignalStyle y => s.change? (RailTile.withSignalStyle? y)
  | .addSignals k y => s.change? (RailTile.addSignals? k y)
  | .removeSignals => s.change? RailTile.removeSignals?
  | .makeTrack o u t => lay? (.track o t u)
  | .makeDepot o d t => lay? (.depot o t d)
  | .makeWaypoint o a t i => lay? (.waypoint o t a i false)
  | .setRail r => lay? r
  | .setCrossingRailType _ | .setBridgeRailType _ | .setKind _ | .overwrite _ => none

/-- The site that a refused edit leaves: a constructor has made cleared land a railway tile. -/
def afterRefusal : Site → Edit → Site
  | built r, _ => built r
  | cleared o t, e => if e.content?.isSome then built (.track o t ⟨0⟩) else cleared o t

/-- Whether an edit is taken and the site it leaves: `n?` where it is defined, `s` where not. -/
def outcome (n? : Option Site) (s : Site) : Bool × Site := (n?.isSome, n?.getD s)

/-- Makes an edit on a site: whether it is taken, and the site it leaves. -/
def step (s : Site) (e : Edit) : Bool × Site := outcome (s.edit? e) (s.afterRefusal e)

/-- Makes the edits in order: which of them are taken, and the site they leave. -/
def run (s : Site) : List Edit → List Bool × Site
  | [] => ([], s)
  | e :: es => ((s.step e).1 :: ((s.step e).2.run es).1, ((s.step e).2.run es).2)

end Site

end RailGrid
