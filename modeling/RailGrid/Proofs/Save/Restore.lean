import RailGrid.World.Basic

/-!
# Saving, resetting and loading

Saving, loading and resetting go through the registered resources one after the other, and each step
concerns one place only: a key of the save, or a resource of the store. As no place comes twice,
what is found in a place afterwards was put there by its own step. From this the effect of saving a
store and loading the save into another one is read off for each resource.
-/

namespace RailGrid

section Fold

variable {β ι κ : Type} {α : κ → Type} (look : β → (k : κ) → α k) {step : β → ι → β}
  (place : ι → κ) {entries : List ι} {b : β} {i : ι} {k : κ}

/-- Steps at other places do not concern a place. -/
theorem look_foldl_of_not_mem (hframe : ∀ b i k, k ≠ place i → look (step b i) k = look b k)
    (hk : k ∉ entries.map place) : look (entries.foldl step b) k = look b k := by
  induction entries generalizing b with
  | nil => rfl
  | cons j entries ih =>
    simp only [List.map_cons, List.mem_cons, not_or] at hk
    obtain ⟨hne, hrest⟩ := hk
    rw [List.foldl_cons, ih hrest, hframe b j k hne]

/-- Where no place comes twice, each place is changed by its own step alone. -/
theorem look_foldl_of_mem (new : α (place i) → α (place i))
    (hstep : ∀ b, look (step b i) (place i) = new (look b (place i)))
    (hframe : ∀ b i k, k ≠ place i → look (step b i) k = look b k)
    (hnodup : (entries.map place).Nodup) (hi : i ∈ entries) :
    look (entries.foldl step b) (place i) = new (look b (place i)) := by
  induction entries generalizing b with
  | nil => cases hi
  | cons j entries ih =>
    rw [List.map_cons, List.nodup_cons] at hnodup
    obtain ⟨hfresh, hrest⟩ := hnodup
    rw [List.foldl_cons]
    rcases List.mem_cons.mp hi with rfl | hmem
    · rw [look_foldl_of_not_mem look place hframe hfresh, hstep]
    · have hne : place i ≠ place j := fun heq => hfresh (heq ▸ List.mem_map_of_mem hmem)
      rw [ih hrest hmem, hframe b j _ hne]

end Fold

open ResourceFamily Save

/-- A value comes back from its bytes, or, if it has none, is what is there without a save. -/
def Saveable.Restores {α : Type} (S : Saveable α) (v : α) : Prop :=
  match S.save v with
  | some bs => (S.load bs).1 = v
  | none => v = S.initial

namespace Registry

variable {σ ι : Type} [ResourceFamily ι] [Store σ ι] {r : Registry ι} {s : σ} {i : ι}
  {saved extra : SaveMap} {key : String}

/-- The registry after resources were registered in order; a key that is taken is passed over. -/
def ofCalls (calls : List ι) : Registry ι := calls.foldl (fun r i => (r.register? i).getD r) {}

/-- Whatever is registered, no key comes twice. -/
theorem nodup_keys_ofCalls (calls : List ι) : (ofCalls calls).keys.Nodup := by
  have hfold (r : Registry ι) (hr : r.keys.Nodup) :
      (calls.foldl (fun r i => (r.register? i).getD r) r).keys.Nodup := by
    induction calls generalizing r with
    | nil => exact hr
    | cons i calls ih =>
      refine ih _ ?_
      change ((r.register? i).getD r).keys.Nodup
      cases h : r.register? i with
      | none => exact hr
      | some s => exact nodup_keys_of_register? hr h
  exact hfold {} List.nodup_nil

/-- Resources with different keys are different. -/
theorem nodup_entries (hkeys : r.keys.Nodup) : (r.entries.map id).Nodup := by
  rw [List.map_id]
  exact List.Pairwise.of_map resourceKey (fun _ _ hne heq => hne (congrArg _ heq)) hkeys

/-! ### Saving -/

/-- The bytes of a resource are those of its value in the store. -/
theorem bytesOf?_eq_some_iff {bs : Bytes} :
    bytesOf? s i = some bs ↔ ∃ a, Store.get? s i = some a ∧ (saveable i).save a = some bs :=
  Option.bind_eq_some_iff

theorem getElem?_addTo_self : (addTo s saved i)[resourceKey i]? =
    (bytesOf? s i).or saved[resourceKey i]? := by
  unfold addTo
  cases bytesOf? s i with
  | none => rfl
  | some bs => exact Std.ExtTreeMap.getElem?_insert_self

theorem getElem?_addTo_of_ne (hne : key ≠ resourceKey i) :
    (addTo s saved i)[key]? = saved[key]? := by
  unfold addTo
  cases bytesOf? s i with
  | none => rfl
  | some bs =>
    have hcompare : compare (resourceKey i) key ≠ .eq := fun heq =>
      hne (Std.LawfulEqCmp.eq_of_compare heq).symm
    simp only [Std.ExtTreeMap.getElem?_insert, hcompare, if_false]

/-- Under the key of a registered resource its bytes are saved. -/
theorem getElem?_saveAll (hkeys : r.keys.Nodup) (hi : i ∈ r.entries) :
    (r.saveAll s)[resourceKey i]? = bytesOf? s i := by
  have hfold := look_foldl_of_mem (b := ∅) (fun (saved : SaveMap) key => saved[key]?) resourceKey
    (bytesOf? s i).or (fun _ => getElem?_addTo_self) (fun _ _ _ => getElem?_addTo_of_ne) hkeys hi
  exact hfold.trans (by rw [Std.ExtTreeMap.getElem?_empty, Option.or_none])

/-- A key that is not registered is not in the save. -/
theorem getElem?_saveAll_of_not_mem (hkey : key ∉ r.keys) : (r.saveAll s)[key]? = none := by
  have hfold := look_foldl_of_not_mem (b := ∅) (fun (saved : SaveMap) key => saved[key]?)
    resourceKey (fun _ _ _ => getElem?_addTo_of_ne (s := s)) hkey
  exact hfold.trans Std.ExtTreeMap.getElem?_empty

/-- The keys of a save are those of the registered resources that have bytes. -/
theorem mem_saveAll_iff (hkeys : r.keys.Nodup) :
    key ∈ r.saveAll s ↔ ∃ i ∈ r.entries, resourceKey i = key ∧
      ∃ a bs, Store.get? s i = some a ∧ (saveable i).save a = some bs := by
  rw [Std.ExtTreeMap.mem_iff_isSome_getElem?, Option.isSome_iff_exists]
  constructor
  · rintro ⟨bs, hbs⟩
    by_cases hkey : key ∈ r.keys
    · obtain ⟨i, hi, rfl⟩ := List.mem_map.mp hkey
      rw [getElem?_saveAll hkeys hi] at hbs
      obtain ⟨a, ha, hsave⟩ := bytesOf?_eq_some_iff.mp hbs
      exact ⟨i, hi, rfl, a, bs, ha, hsave⟩
    · rw [getElem?_saveAll_of_not_mem hkey] at hbs
      cases hbs
  · rintro ⟨i, hi, rfl, a, bs, ha, hsave⟩
    exact ⟨bs, (getElem?_saveAll hkeys hi).trans (bytesOf?_eq_some_iff.mpr ⟨a, ha, hsave⟩)⟩

/-- Further entries under keys that are not registered do not hide the bytes of a resource. -/
theorem getElem?_saveAll_union (hkeys : r.keys.Nodup) (hextra : ∀ key ∈ extra, key ∉ r.keys)
    (hi : i ∈ r.entries) : (r.saveAll s ∪ extra)[resourceKey i]? = bytesOf? s i := by
  have hfree : resourceKey i ∉ extra := fun hmem => hextra _ hmem (List.mem_map_of_mem hi)
  rw [Std.ExtTreeMap.getElem?_union_of_not_mem_right hfree, getElem?_saveAll hkeys hi]

variable [LawfulStore σ ι] {j : ι}

/-! ### Loading -/

theorem get?_loadOne_self {p : σ × List Notice} : Store.get? (loadOne saved p i).1 i =
    (saved[resourceKey i]?.map fun bs => ((saveable i).load bs).1).or (Store.get? p.1 i) := by
  unfold loadOne
  cases saved[resourceKey i]? with
  | none => rfl
  | some bs => exact LawfulStore.get?_set_self _ _ _

theorem get?_loadOne_of_ne {p : σ × List Notice} (hne : j ≠ i) :
    Store.get? (loadOne saved p i).1 j = Store.get? p.1 j := by
  unfold loadOne
  cases saved[resourceKey i]? with
  | none => rfl
  | some bs => exact LawfulStore.get?_set_of_ne _ _ _ _ hne

/-- A registered resource is what its bytes stand for, or is left alone if it has none. -/
theorem get?_loadAll (hkeys : r.keys.Nodup) (hi : i ∈ r.entries) :
    Store.get? (r.loadAll saved s).1 i =
      (saved[resourceKey i]?.map fun bs => ((saveable i).load bs).1).or (Store.get? s i) :=
  look_foldl_of_mem (fun (p : σ × List Notice) => Store.get? p.1) id _
    (fun _ => get?_loadOne_self) (fun _ _ _ => get?_loadOne_of_ne) (nodup_entries hkeys) hi

/-- A resource that is not registered is left alone. -/
theorem get?_loadAll_of_not_mem (hi : i ∉ r.entries) :
    Store.get? (r.loadAll saved s).1 i = Store.get? s i :=
  look_foldl_of_not_mem (fun (p : σ × List Notice) => Store.get? p.1) id
    (fun _ _ _ => get?_loadOne_of_ne) (by rwa [List.map_id])

/-! ### Resetting -/

/-- A registered resource is there after a reset, as it is without a save. -/
theorem get?_resetAll (hkeys : r.keys.Nodup) (hi : i ∈ r.entries) :
    Store.get? (r.resetAll s) i = some (saveable i).initial :=
  look_foldl_of_mem Store.get? id (fun _ => some (saveable i).initial)
    (fun _ => LawfulStore.get?_set_self _ _ _)
    (fun _ _ _ hne => LawfulStore.get?_set_of_ne _ _ _ _ hne) (nodup_entries hkeys) hi

theorem get?_resetAll_of_not_mem (hi : i ∉ r.entries) :
    Store.get? (r.resetAll s) i = Store.get? s i :=
  look_foldl_of_not_mem Store.get? id
    (fun _ _ _ hne => LawfulStore.get?_set_of_ne _ _ _ _ hne) (by rwa [List.map_id])

/-! ### The whole round -/

/-- Saving a store and loading the save after a reset of another one restores every registered
resource whose bytes stand for it, and puts the defaults where the store had nothing. Without the
reset the resources that have no bytes stay as they are. Either way what is not registered is left
alone, and the save has the keys of the resources with bytes and no others. -/
theorem loadAll_saveAll (calls : List ι) (w v : σ) (extra : SaveMap)
    (hextra : ∀ key ∈ extra, key ∉ (ofCalls calls).keys) :
    let r := ofCalls calls
    let saved := r.saveAll w ∪ extra
    let restored := (r.loadAll saved (r.resetAll v)).1
    let loaded := (r.loadAll saved v).1
    (∀ i ∈ r.entries, ∀ a, Store.get? w i = some a → (saveable i).Restores a →
      Store.get? restored i = some a) ∧
    (∀ i ∈ r.entries, Store.get? w i = none →
      Store.get? restored i = some (saveable i).initial) ∧
    (∀ i ∉ r.entries, Store.get? restored i = Store.get? v i ∧
      Store.get? loaded i = Store.get? v i) ∧
    (∀ i ∈ r.entries, Store.get? loaded i =
      match bytesOf? w i with
      | some bs => some ((saveable i).load bs).1
      | none => Store.get? v i) ∧
    (∀ key, key ∈ r.saveAll w ↔ ∃ i ∈ r.entries, resourceKey i = key ∧
      ∃ a bs, Store.get? w i = some a ∧ (saveable i).save a = some bs) := by
  intro r saved restored loaded
  have hkeys : r.keys.Nodup := nodup_keys_ofCalls calls
  have hsaved {i : ι} (hi : i ∈ r.entries) : saved[resourceKey i]? = bytesOf? w i :=
    getElem?_saveAll_union hkeys hextra hi
  have hrestored {i : ι} (hi : i ∈ r.entries) : Store.get? restored i =
      ((bytesOf? w i).map fun bs => ((saveable i).load bs).1).or (some (saveable i).initial) := by
    rw [get?_loadAll hkeys hi, hsaved hi, get?_resetAll hkeys hi]
  refine ⟨?_, ?_, ?_, ?_, ?_⟩
  · intro i hi a ha hrestores
    have hbytes : bytesOf? w i = (saveable i).save a := by rw [bytesOf?, ha]; rfl
    rw [hrestored hi, hbytes]
    unfold Saveable.Restores at hrestores
    cases hsave : (saveable i).save a with
    | none =>
      rw [hsave] at hrestores
      exact congrArg some hrestores.symm
    | some bs =>
      rw [hsave] at hrestores
      exact congrArg some hrestores
  · intro i hi habsent
    have hbytes : bytesOf? w i = none := by rw [bytesOf?, habsent]; rfl
    rw [hrestored hi, hbytes]
    rfl
  · intro i hi
    constructor
    · rw [get?_loadAll_of_not_mem hi, get?_resetAll_of_not_mem hi]
    · exact get?_loadAll_of_not_mem hi
  · intro i hi
    rw [get?_loadAll hkeys hi, hsaved hi]
    cases bytesOf? w i <;> rfl
  · exact fun key => mem_saveAll_iff hkeys

/-- A speed limit comes back into a world with another one, beside an entry of unknown origin and a
resource that was missing. -/
theorem loadAll_saveAll_speedLimit :
    let calls : List Resource := [.speedLimit, .mapConfig, .speedLimit]
    let r := ofCalls calls
    let w : World := { speed := some ⟨0x1234⟩, sim := some {} }
    let v : World := { speed := some ⟨7⟩, config := some { bitsX := 9 } }
    let extra : SaveMap := (∅ : SaveMap).insert "unknown_feature" [0xFF, 0xFF]
    let restored := (r.loadAll (r.saveAll w ∪ extra) (r.resetAll v)).1
    (∀ key ∈ extra, key ∉ r.keys) ∧ (saveable Resource.speedLimit).Restores ⟨0x1234⟩ ∧
      Store.get? restored .speedLimit = some ⟨0x1234⟩ ∧
      Store.get? restored .mapConfig = some {} ∧ Store.get? restored .sim = none := by
  intro calls r w v extra restored
  have hextra : ∀ key ∈ extra, key ∉ r.keys := by
    intro key hkey
    have hcompare : compare "unknown_feature" key = .eq := by
      simpa [extra, Std.ExtTreeMap.mem_insert] using hkey
    rw [← Std.LawfulEqCmp.eq_of_compare hcompare]
    decide
  have hspeed : (saveable Resource.speedLimit).Restores ⟨0x1234⟩ := rfl
  have hround := loadAll_saveAll calls w v extra hextra
  exact ⟨hextra, hspeed, hround.1 _ (by decide) _ rfl hspeed, hround.2.1 _ (by decide) rfl,
    (hround.2.2.1 _ (by decide)).1⟩

end Registry

end RailGrid
