/-!
# Small enumerations

The finite types of this library are stored in bit fields by their position in a fixed list and
written in text by name. `Enumeration` gives both at once, so that every such type is read back
from its code and from its name by the same two laws.
-/

namespace RailGrid

/-- A finite type listed in the order of its codes, with a name for each member. -/
class Enumeration (α : Type) [DecidableEq α] where
  /-- The members in the order of their codes. -/
  members : List α
  /-- The name of a member in text. -/
  name : α → String
  /-- Every value of the type is listed. -/
  mem_members : ∀ a, a ∈ members
  /-- No two members share a name. -/
  nodup_names : (members.map name).Nodup
  /-- A code fits into a byte. -/
  length_members_le : members.length ≤ 256

namespace Enumeration

variable {α : Type} [DecidableEq α] [Enumeration α]

/-- The position of a member, counted from zero. -/
def code (a : α) : UInt8 := .ofNat (members.idxOf a)

/-- The member with the given position, or `none` past the last one. -/
def ofCode? (b : UInt8) : Option α := members[b.toNat]?

/-- The member with the given name. -/
def ofName? (s : String) : Option α := members.find? fun a => name a == s

/-- The member with the given position, or `d` past the last one. -/
def ofCodeD (b : UInt8) (d : α) : α := (ofCode? b).getD d

theorem idxOf_lt_length (a : α) : members.idxOf a < (members : List α).length :=
  List.idxOf_lt_length_of_mem (mem_members a)

theorem toNat_code (a : α) : (code a).toNat = members.idxOf a :=
  UInt8.toNat_ofNat_of_lt'
    (Nat.lt_of_lt_of_le (idxOf_lt_length a) (length_members_le (α := α)))

/-- A code is smaller than the number of members. -/
theorem code_lt (a : α) : (code a).toNat < (members : List α).length := by
  rw [toNat_code]
  exact idxOf_lt_length a

@[simp] theorem ofCode?_code (a : α) : ofCode? (code a) = some a := by
  unfold ofCode?
  rw [toNat_code, List.getElem?_eq_getElem (idxOf_lt_length a), List.getElem_idxOf]

@[simp] theorem ofCodeD_code (a d : α) : ofCodeD (code a) d = a := by
  rw [ofCodeD, ofCode?_code, Option.getD_some]

theorem nodup_members : (members : List α).Nodup :=
  List.Pairwise.of_map name (fun _ _ hne heq => hne (congrArg name heq)) nodup_names

/-- A member is read from its own code only. -/
theorem code_eq_of_ofCode? {b : UInt8} {a : α} (h : ofCode? b = some a) : code a = b := by
  obtain ⟨hlt, hget⟩ := List.getElem?_eq_some_iff.mp h
  apply UInt8.toNat_inj.mp
  rw [toNat_code, ← hget, nodup_members.idxOf_getElem]

/-- Reading a code yields the member that has it. -/
theorem ofCode?_eq_some_iff {b : UInt8} {a : α} : ofCode? b = some a ↔ b = code a :=
  ⟨fun h => (code_eq_of_ofCode? h).symm, fun h => by rw [h, ofCode?_code]⟩

/-- A code below the number of members is kept, whatever the default. -/
theorem code_ofCodeD {b : UInt8} {d : α} (h : b.toNat < (members : List α).length) :
    code (ofCodeD b d) = b := by
  have hget : ofCode? b = some (members : List α)[b.toNat] := List.getElem?_eq_getElem h
  rw [ofCodeD, hget, Option.getD_some, code_eq_of_ofCode? hget]

/-- Exactly the codes below the number of members are read. -/
theorem ofCode?_eq_none_iff {b : UInt8} :
    (ofCode? b : Option α) = none ↔ (members : List α).length ≤ b.toNat :=
  List.getElem?_eq_none_iff

theorem code_injective {a b : α} (h : code a = code b) : a = b :=
  Option.some.inj (by rw [← ofCode?_code a, ← ofCode?_code b, h])

theorem name_injective {a b : α} (h : name a = name b) : a = b := by
  have hnodup := List.pairwise_iff_getElem.mp (List.pairwise_map.mp (nodup_names (α := α)))
  have ha := idxOf_lt_length a
  have hb := idxOf_lt_length b
  rcases Nat.lt_trichotomy (members.idxOf a) (members.idxOf b) with hlt | heq | hlt
  · exact absurd h (by simpa using hnodup _ _ ha hb hlt)
  · have hget := List.getElem_idxOf ha
    simp only [heq, List.getElem_idxOf hb] at hget
    exact hget.symm
  · exact absurd h.symm (by simpa using hnodup _ _ hb ha hlt)

@[simp] theorem ofName?_name (a : α) : ofName? (name a) = some a := by
  unfold ofName?
  cases hb : members.find? (fun b : α => name b == name a) with
  | none => simpa using List.find?_eq_none.mp hb a (mem_members a)
  | some b =>
    have hname := List.find?_some hb
    rw [name_injective (beq_iff_eq.mp hname)]

end Enumeration

end RailGrid
