import RailGrid.Datum.Form

/-!
# Data read back

A form is lawful if every value is read from the datum it is written as. Reading a datum and writing
its value then gives a canonical form: it has the same value, it is written the same way again, and
it is shared by all data of this value and no others. Numbers, truth values, lists and named choices
are lawful, and the fields of a record are found again under their names.
-/

namespace RailGrid

/-- A type whose values are read from the data they are written as. -/
class LawfulForm (α : Type) [Form α] : Prop where
  /-- Writing and reading gives the value back. -/
  ofDatum?_toDatum : ∀ a : α, Form.ofDatum? (Form.toDatum a) = some a

attribute [simp] LawfulForm.ofDatum?_toDatum

namespace Datum

theorem natBelow?_of_lt {bound n : Nat} (hn : n < bound) :
    (int n).natBelow? bound = some n :=
  if_pos hn

theorem lookup?_cons_self (name : String) (d : Datum) (fields : List (String × Datum)) :
    lookup? ((name, d) :: fields) name = some d := by
  rw [lookup?, List.find?_cons_of_pos (by simp)]
  rfl

theorem lookup?_cons_of_ne {name other : String} (hne : other ≠ name) (d : Datum)
    (fields : List (String × Datum)) :
    lookup? ((other, d) :: fields) name = lookup? fields name := by
  rw [lookup?, List.find?_cons_of_neg (by simpa using hne), lookup?]

/-- Fields that are looked up under the names they were paired with are found in their order. -/
theorem mapM_lookup?_zip {names : List String} {ds : List Datum} (hnames : names.Nodup)
    (hlength : ds.length = names.length) :
    names.mapM (lookup? (names.zip ds)) = some ds := by
  -- the list that is searched stays whole while the names are used up
  suffices hfound : ∀ fields, (∀ n ∈ names, lookup? fields n = lookup? (names.zip ds) n) →
      names.mapM (lookup? fields) = some ds from hfound _ fun _ _ => rfl
  induction names generalizing ds with
  | nil =>
    intro fields _
    rw [List.length_eq_zero_iff.mp hlength]
    rfl
  | cons name names ih =>
    intro fields hfields
    cases ds with
    | nil => cases hlength
    | cons d ds =>
      obtain ⟨hname, hrest⟩ := List.nodup_cons.mp hnames
      have hfirst : lookup? fields name = some d := by
        rw [hfields name List.mem_cons_self]
        exact lookup?_cons_self name d _
      have hothers : ∀ n ∈ names, lookup? fields n = lookup? (names.zip ds) n := by
        intro n hn
        rw [hfields n (List.mem_cons_of_mem name hn)]
        exact lookup?_cons_of_ne (fun heq : name = n => hname (heq ▸ hn)) d _
      rw [List.mapM_cons, hfirst, ih hrest (Nat.succ.inj hlength) fields hothers]
      rfl

/-- What is read from the fields of a choice in their order is read from its content. -/
theorem namedFields?_bind_ofFields {α : Type} {names : List String} {ds : List Datum}
    {read : List Datum → Option α} {a : α} (hnames : names.Nodup)
    (hlength : ds.length = names.length) (hread : read ds = some a) :
    ((ofFields names ds).namedFields? names).bind read = some a := by
  have hfields : (ofFields names ds).namedFields? names = some ds :=
    mapM_lookup?_zip hnames hlength
  rw [hfields, Option.bind_some, hread]

/-- A record that is written with its names is read by them. -/
theorem fields?_bind_ofFields {α : Type} {names : List String} {ds : List Datum}
    {read : List Datum → Option α} {a : α} (hnames : names.Nodup)
    (hlength : ds.length = names.length) (hread : read ds = some a) :
    ((ofFields names ds).fields? names).bind read = some a :=
  namedFields?_bind_ofFields hnames hlength hread

end Datum

namespace Form

/-! ### Canonical forms -/

/-- Every value is read from the datum it is written as, and every datum that is accepted has one
canonical form. -/
structure Canonical (α : Type) [Form α] : Prop where
  /-- Writing and reading gives the value back. -/
  read_written : ∀ a : α, ofDatum? (toDatum a) = some a
  /-- The canonical form has the same value. -/
  same_value : ∀ d k, canonical? α d = some k → (ofDatum? k : Option α) = ofDatum? d
  /-- The canonical form is its own canonical form. -/
  stable : ∀ d k, canonical? α d = some k → canonical? α k = some k
  /-- Data have the same canonical form exactly if they have the same value. -/
  unique : ∀ d e k, canonical? α d = some k →
    (canonical? α e = some k ↔ (ofDatum? e : Option α) = ofDatum? d)

theorem canonical?_eq_some_iff {α : Type} [Form α] {d k : Datum} :
    canonical? α d = some k ↔ ∃ a : α, ofDatum? d = some a ∧ toDatum a = k := by
  rw [canonical?, Option.map_eq_some_iff]

/-- Reading back is all that canonical forms need. -/
theorem canonical (α : Type) [Form α] [LawfulForm α] : Canonical α where
  read_written := LawfulForm.ofDatum?_toDatum
  same_value d k hk := by
    obtain ⟨a, ha, rfl⟩ := canonical?_eq_some_iff.mp hk
    rw [ha, LawfulForm.ofDatum?_toDatum]
  stable d k hk := by
    obtain ⟨a, -, rfl⟩ := canonical?_eq_some_iff.mp hk
    exact canonical?_eq_some_iff.mpr ⟨a, LawfulForm.ofDatum?_toDatum a, rfl⟩
  unique d e k hk := by
    obtain ⟨a, ha, rfl⟩ := canonical?_eq_some_iff.mp hk
    rw [ha, canonical?_eq_some_iff]
    constructor
    · rintro ⟨b, hb, heq⟩
      -- a datum is written for one value only, since it is read as one
      have hread := congrArg (ofDatum? : Datum → Option α) heq
      rw [LawfulForm.ofDatum?_toDatum, LawfulForm.ofDatum?_toDatum] at hread
      rw [hb, hread]
    · intro he
      exact ⟨a, he, rfl⟩

/-! ### Numbers, truth values, lists and named choices -/

instance : LawfulForm UInt8 where
  ofDatum?_toDatum n := by
    simp only [toDatum, ofDatum?, Datum.natBelow?_of_lt n.toNat_lt_size, Option.map_some,
      UInt8.ofNat_toNat]

instance : LawfulForm UInt16 where
  ofDatum?_toDatum n := by
    simp only [toDatum, ofDatum?, Datum.natBelow?_of_lt n.toNat_lt_size, Option.map_some,
      UInt16.ofNat_toNat]

instance : LawfulForm UInt32 where
  ofDatum?_toDatum n := by
    simp only [toDatum, ofDatum?, Datum.natBelow?_of_lt n.toNat_lt_size, Option.map_some,
      UInt32.ofNat_toNat]

instance : LawfulForm Bool where
  ofDatum?_toDatum _ := rfl

instance {α : Type} [Form α] [LawfulForm α] : LawfulForm (List α) where
  ofDatum?_toDatum as := by
    have hread : (ofDatum? ∘ toDatum : α → Option α) = pure :=
      funext LawfulForm.ofDatum?_toDatum
    have hlist : (as.map toDatum).mapM ofDatum? = (pure as : Option (List α)) := by
      rw [List.mapM_map, hread, List.mapM_pure, List.map_id']
    exact hlist

instance {α : Type} [DecidableEq α] [Enumeration α] : LawfulForm α where
  ofDatum?_toDatum a := Enumeration.ofName?_name a

end Form

end RailGrid
