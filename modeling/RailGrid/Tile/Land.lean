import RailGrid.Tile.Kind
import RailGrid.Tile.Change

/-!
# What every tile has

The kind and the height of a tile, its owner where the kind keeps one, and the return of a tile to
clear land.
-/

namespace RailGrid.Tile

open Enumeration

/-- The kind of the tile. -/
def kind (x : Tile) : Except TileFault TileKind :=
  match ofCode? (x.get .kind) with
  | some k => .ok k
  | none => .error (.corruptKind (x.get .kind))

/-- Whether the tile is of the given kind; a record without a known kind is of none. -/
def isKind (x : Tile) (k : TileKind) : Bool := x.get .kind == code k

/-- The height of the tile, below sixteen. -/
def height (x : Tile) : UInt8 := x.get .height

/-- Passes on tiles that keep an owner. -/
def requireOwned (x : Tile) : Except TileFault Unit :=
  if x.isKind .house || x.isKind .industry then .error .storesNoOwner else .ok ()

/-- The owner of the tile. -/
def owner (x : Tile) : Except TileFault Owner := do
  x.requireOwned
  return ⟨x.get .owner⟩

variable {x : Tile} {f : Field} {v : UInt8} {j k : TileKind}

theorem height_lt : x.height < 16 := UInt8.lt_iff_toNat_lt.mpr toNat_get_lt

/-- A tile made one of a kind is of that kind and of no other. -/
theorem isKind_put_kind : (x.put .kind (code k)).isKind j = decide (k = j) := by
  have hfits : (code k).toNat < 2 ^ Field.kind.range.length :=
    Nat.lt_trans (code_lt k) (by decide)
  rw [isKind, get_put_self hfits, Bool.eq_iff_iff, beq_iff_eq, decide_eq_true_iff]
  exact ⟨code_injective, congrArg code⟩

/-- Fields beside the kind do not change what a tile is. -/
theorem isKind_put_of_disjoint (h : Field.kind.Disjoint f) : (x.put f v).isKind k = x.isKind k := by
  rw [isKind, get_put_of_disjoint h, isKind]

theorem requireOwned_of_isKind (h : x.isKind k = true) (hhouse : k ≠ .house)
    (hindustry : k ≠ .industry) : x.requireOwned = .ok () := by
  have hcode : x.get .kind = code k := beq_iff_eq.mp h
  have hother {j : TileKind} (hj : k ≠ j) : x.isKind j = false := by
    rw [isKind, hcode, beq_eq_false_iff_ne]
    exact fun heq => hj (code_injective heq)
  rw [requireOwned, hother hhouse, hother hindustry]
  rfl

theorem requireOwned_put_kind (hhouse : k ≠ .house) (hindustry : k ≠ .industry) :
    (x.put .kind (code k)).requireOwned = .ok () :=
  requireOwned_of_isKind (by rw [isKind_put_kind, decide_eq_true rfl]) hhouse hindustry

end RailGrid.Tile

namespace RailGrid.Change

open Enumeration

/-- Makes the tile one of another kind; the rest of the record is kept as it is. -/
def setKind (k : TileKind) : Change := always (·.put .kind (code k))

/-- Sets the height to the four low bits of `h`. -/
def setHeight (h : UInt8) : Change := always (·.put .height h)

/-- Gives the tile to an owner that fits into the record. -/
def setOwner (o : Owner) : Change :=
  guarded (fun x => do
    x.requireOwned
    unless o.Fits do throw (.ownerTooWide o))
  (·.put .owner o.number)

/-- Makes the tile clear land that belongs to nobody, at the height it has. -/
def makeClear : Change := do
  let x ← get
  always fun _ => {}
  setHeight x.height
  setOwner .nobody

variable {x : Tile} {o : Owner}

theorem on_setOwner_of_fits (hx : x.requireOwned = .ok ()) (ho : o.Fits) :
    (setOwner o).on x = (.ok (), x.put .owner o.number) :=
  on_guarded_of_ok (by rw [hx, if_pos ho]; rfl)

/-- An owner too wide for the record is refused and nothing is written. -/
theorem on_setOwner_of_not_fits (hx : x.requireOwned = .ok ()) (ho : ¬ o.Fits) :
    (setOwner o).on x = (.error (.ownerTooWide o), x) :=
  on_guarded_of_error (by rw [hx, if_neg ho]; rfl)

/-- Clearing a tile is never refused and keeps the height alone. -/
theorem on_makeClear : makeClear.on x =
    (.ok (), (({} : Tile).put .height x.height).put .owner Owner.nobody.number) := by
  have hread : makeClear.on x =
      on (do always fun _ => {}; setHeight x.height; setOwner .nobody) x := rfl
  rw [hread, on_seq_of_ok on_always, setHeight, on_seq_of_ok on_always]
  refine on_setOwner_of_fits ?_ Owner.fits_nobody
  refine Tile.requireOwned_of_isKind (k := .clear) ?_ (by decide) (by decide)
  rw [Tile.isKind_put_of_disjoint (by decide)]
  decide

end RailGrid.Change
