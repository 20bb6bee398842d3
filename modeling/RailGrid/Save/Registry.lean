import RailGrid.Save.Saveable
import Std.Data.ExtTreeMap

/-!
# Saving and restoring a whole store

A registry lists the resources that belong to a save, each key once, in the order in which they were
registered. A save maps keys to bytes. Nothing here depends on what the resources are: a family says
how each is saved, a store holds at most one value of each.
-/

namespace RailGrid

open Save

/-- A family of saveable resources. -/
class ResourceFamily (ι : Type) where
  /-- The type of a resource's values. -/
  Value : ι → Type
  /-- How a resource is saved. -/
  saveable : (i : ι) → Saveable (Value i)

/-- The key of a resource. -/
def resourceKey {ι : Type} [ResourceFamily ι] (i : ι) : String :=
  (ResourceFamily.saveable i).key

/-- A store of at most one value for each resource of a family. -/
class Store (σ : Type) (ι : outParam Type) [ResourceFamily ι] where
  /-- The value of a resource, if there is one. -/
  get? : σ → (i : ι) → Option (ResourceFamily.Value i)
  /-- The store with the value of a resource replaced, or taken away. -/
  set : σ → (i : ι) → Option (ResourceFamily.Value i) → σ

/-- The laws of a store: a value stays until it is replaced, and a store is no more than its
values. -/
class LawfulStore (σ : Type) (ι : outParam Type) [ResourceFamily ι] [Store σ ι] : Prop where
  /-- A replaced value is the new one. -/
  get?_set_self (s : σ) (i : ι) (v : Option (ResourceFamily.Value i)) :
    Store.get? (Store.set s i v) i = v
  /-- The other values are kept. -/
  get?_set_of_ne (s : σ) (i j : ι) (v : Option (ResourceFamily.Value i)) :
    j ≠ i → Store.get? (Store.set s i v) j = Store.get? s j
  /-- Stores with the same values are equal. -/
  ext (s t : σ) : (∀ i, Store.get? s i = Store.get? t i) → s = t

/-- Saved resources: bytes by key. -/
abbrev SaveMap := Std.ExtTreeMap String Bytes compare

/-- The resources that belong to a save, in the order of their registration. -/
structure Registry (ι : Type) where
  /-- The resources. -/
  entries : List ι := []
  deriving DecidableEq, Repr

namespace Registry

variable {σ ι : Type} [ResourceFamily ι] [Store σ ι]

/-- The registered keys, in order. -/
def keys (r : Registry ι) : List String := r.entries.map resourceKey

/-- The registry with one more resource, unless its key is taken. -/
def register? (r : Registry ι) (i : ι) : Option (Registry ι) :=
  if resourceKey i ∈ r.keys then none else some ⟨r.entries ++ [i]⟩

/-- The bytes of a resource of the store, if it is there and has any. -/
def bytesOf? (s : σ) (i : ι) : Option Bytes :=
  (Store.get? s i).bind (ResourceFamily.saveable i).save

/-- Adds the bytes of a resource to a save. -/
def addTo (s : σ) (saved : SaveMap) (i : ι) : SaveMap :=
  match bytesOf? s i with
  | some bs => saved.insert (resourceKey i) bs
  | none => saved

/-- Saves all registered resources of the store. -/
def saveAll (r : Registry ι) (s : σ) : SaveMap := r.entries.foldl (addTo s) ∅

/-- Replaces a resource by what was saved of it; without a save it is left alone. -/
def loadOne (saved : SaveMap) (p : σ × List Notice) (i : ι) : σ × List Notice :=
  match saved[resourceKey i]? with
  | some bs =>
    let (v, notices) := (ResourceFamily.saveable i).load bs
    (Store.set p.1 i (some v), p.2 ++ notices)
  | none => p

/-- Replaces all registered resources that were saved. -/
def loadAll (r : Registry ι) (saved : SaveMap) (s : σ) : σ × List Notice :=
  r.entries.foldl (loadOne saved) (s, [])

/-- Replaces all registered resources by their defaults. -/
def resetAll (r : Registry ι) (s : σ) : σ :=
  r.entries.foldl (fun s i => Store.set s i (some (ResourceFamily.saveable i).initial)) s

variable {r s : Registry ι} {i : ι}

theorem register?_eq_none_iff : r.register? i = none ↔ resourceKey i ∈ r.keys := by
  unfold register?
  split <;> simp_all

/-- What is registered becomes the last entry. -/
theorem entries_of_register? (h : r.register? i = some s) : s.entries = r.entries ++ [i] := by
  unfold register? at h
  split at h
  · cases h
  · cases h
    rfl

theorem keys_of_register? (h : r.register? i = some s) : s.keys = r.keys ++ [resourceKey i] := by
  rw [keys, entries_of_register? h, List.map_append]
  rfl

/-- Registering never makes two resources share a key. -/
theorem nodup_keys_of_register? (hr : r.keys.Nodup) (h : r.register? i = some s) :
    s.keys.Nodup := by
  have hfresh : resourceKey i ∉ r.keys := fun hmem => by
    rw [register?_eq_none_iff.mpr hmem] at h
    cases h
  rw [keys_of_register? h]
  refine List.nodup_append.mpr ⟨hr, by simp, fun key hkey other hother heq => ?_⟩
  rw [List.mem_singleton.mp hother] at heq
  exact hfresh (heq ▸ hkey)

end Registry

end RailGrid
