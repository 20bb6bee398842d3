import Mathlib.Data.List.Induction
import RailGrid.Proofs.Save.Restore
import RailGrid.Proofs.World.Course

/-!
# The order of registration

Whatever is registered, in whatever order and however often, each key that was called is in the
registry once, with the first resource that was called under it. What a registry does to a save or to
a store it does place by place, so that the order of its entries does not matter and doing it twice is
doing it once.
-/

namespace RailGrid

open ResourceFamily Save Step

namespace Registry

variable {σ ι : Type} [ResourceFamily ι] {r s : Registry ι} {i : ι} {calls : List ι}

/-! ### Runs of calls -/

theorem ofCalls_append_singleton :
    ofCalls (calls ++ [i]) = ((ofCalls calls).register? i).getD (ofCalls calls) := by
  rw [ofCalls, List.foldl_append]
  rfl

/-- A key that is not taken gets the resource as its last entry. -/
theorem register?_of_fresh (h : resourceKey i ∉ r.keys) :
    r.register? i = some ⟨r.entries ++ [i]⟩ := if_neg h

theorem ofCalls_append_of_fresh (h : resourceKey i ∉ (ofCalls calls).keys) :
    ofCalls (calls ++ [i]) = ⟨(ofCalls calls).entries ++ [i]⟩ := by
  rw [ofCalls_append_singleton, register?_of_fresh h, Option.getD_some]

/-- A call that is refused leaves the registry as it was. -/
theorem ofCalls_append_of_taken (h : resourceKey i ∈ (ofCalls calls).keys) :
    ofCalls (calls ++ [i]) = ofCalls calls := by
  rw [ofCalls_append_singleton, register?_eq_none_iff.mpr h, Option.getD_none]

/-- The registered keys are the called ones, in the order of their first calls. -/
theorem keys_ofCalls (calls : List ι) :
    (ofCalls calls).keys = (calls.map resourceKey).eraseDups := by
  induction calls using List.reverseRecOn with
  | nil => rfl
  | append_singleton calls i ih =>
    rw [List.map_append, List.eraseDups_append, ← ih]
    by_cases h : resourceKey i ∈ (ofCalls calls).keys
    · have hcalled : resourceKey i ∈ calls.map resourceKey := List.mem_eraseDups.mp (ih ▸ h)
      have hnone : [resourceKey i].removeAll (calls.map resourceKey) = [] :=
        List.filter_cons_of_neg (by simpa only [List.elem_eq_mem, Bool.not_eq_true,
          Bool.not_eq_false', decide_eq_true_eq] using hcalled)
      rw [ofCalls_append_of_taken h, List.map_singleton, hnone, List.eraseDups_nil, List.append_nil]
    · have hcalled : resourceKey i ∉ calls.map resourceKey := fun hmem =>
        h (ih ▸ List.mem_eraseDups.mpr hmem)
      have hone : [resourceKey i].removeAll (calls.map resourceKey) = [resourceKey i] :=
        List.filter_cons_of_pos (by simpa only [List.elem_eq_mem, Bool.not_eq_true',
          decide_eq_false_iff_not] using hcalled)
      rw [ofCalls_append_of_fresh h, List.map_singleton, hone, keys, List.map_append]
      rfl

theorem mem_keys_ofCalls_iff {key : String} :
    key ∈ (ofCalls calls).keys ↔ key ∈ calls.map resourceKey := by
  rw [keys_ofCalls, List.mem_eraseDups]

/-- Each key has the first resource that was called under it. -/
theorem find?_entries_ofCalls (key : String) (calls : List ι) :
    (ofCalls calls).entries.find? (resourceKey · == key) = calls.find? (resourceKey · == key) := by
  induction calls using List.reverseRecOn with
  | nil => rfl
  | append_singleton calls i ih =>
    by_cases h : resourceKey i ∈ (ofCalls calls).keys
    · rw [ofCalls_append_of_taken h, ih, List.find?_append]
      by_cases hkey : resourceKey i = key
      · obtain ⟨j, hj, hsame⟩ := List.mem_map.mp (mem_keys_ofCalls_iff.mp h)
        have hfound : (calls.find? (resourceKey · == key)).isSome := by
          rw [List.find?_isSome]
          exact ⟨j, hj, by simp [hsame, hkey]⟩
        rw [Option.or_of_isSome hfound]
      · simp [hkey]
    · rw [ofCalls_append_of_fresh h, List.find?_append, List.find?_append, ih]

/-! ### The order of the entries -/

/-- Registries of the same resources have the same keys. -/
theorem mem_keys_congr {key : String} (hsame : ∀ i, i ∈ r.entries ↔ i ∈ s.entries) :
    key ∈ r.keys ↔ key ∈ s.keys := by
  simp only [keys, List.mem_map, hsame]

variable [Store σ ι] {w : σ} {saved : SaveMap}

/-- Registries of the same resources save the same. -/
theorem saveAll_congr (hr : r.keys.Nodup) (hs : s.keys.Nodup)
    (hsame : ∀ i, i ∈ r.entries ↔ i ∈ s.entries) : r.saveAll w = s.saveAll w := by
  apply Std.ExtTreeMap.ext_getElem?
  intro key
  by_cases hkey : key ∈ r.keys
  · obtain ⟨i, hi, rfl⟩ := List.mem_map.mp hkey
    rw [getElem?_saveAll hr hi, getElem?_saveAll hs ((hsame i).mp hi)]
  · have hkey' : key ∉ s.keys := mt (mem_keys_congr hsame).mpr hkey
    rw [getElem?_saveAll_of_not_mem hkey, getElem?_saveAll_of_not_mem hkey']

variable [LawfulStore σ ι] {v : σ}

/-- Stores are equal if they agree on the registered resources and on the others. -/
theorem ext_entries (hin : ∀ i ∈ r.entries, Store.get? v i = Store.get? w i)
    (hout : ∀ i ∉ r.entries, Store.get? v i = Store.get? w i) : v = w := by
  apply LawfulStore.ext
  intro i
  by_cases hi : i ∈ r.entries
  · exact hin i hi
  · exact hout i hi

/-- Registries of the same resources load the same. -/
theorem loadAll_congr (hr : r.keys.Nodup) (hs : s.keys.Nodup)
    (hsame : ∀ i, i ∈ r.entries ↔ i ∈ s.entries) :
    (r.loadAll saved w).1 = (s.loadAll saved w).1 := by
  refine ext_entries (r := r) (fun i hi => ?_) fun i hi => ?_
  · rw [get?_loadAll hr hi, get?_loadAll hs ((hsame i).mp hi)]
  · rw [get?_loadAll_of_not_mem hi, get?_loadAll_of_not_mem (mt (hsame i).mpr hi)]

/-- Registries of the same resources reset the same. -/
theorem resetAll_congr (hr : r.keys.Nodup) (hs : s.keys.Nodup)
    (hsame : ∀ i, i ∈ r.entries ↔ i ∈ s.entries) : r.resetAll w = s.resetAll w := by
  refine ext_entries (r := r) (fun i hi => ?_) fun i hi => ?_
  · rw [get?_resetAll hr hi, get?_resetAll hs ((hsame i).mp hi)]
  · rw [get?_resetAll_of_not_mem hi, get?_resetAll_of_not_mem (mt (hsame i).mpr hi)]

/-- Loading a save again changes nothing. -/
theorem loadAll_loadAll (hr : r.keys.Nodup) :
    (r.loadAll saved (r.loadAll saved w).1).1 = (r.loadAll saved w).1 := by
  refine ext_entries (r := r) (fun i hi => ?_) fun i hi => get?_loadAll_of_not_mem hi
  rw [get?_loadAll hr hi, get?_loadAll hr hi, ← Option.or_assoc, Option.or_self]

/-- Resetting again changes nothing. -/
theorem resetAll_resetAll (hr : r.keys.Nodup) : r.resetAll (r.resetAll w) = r.resetAll w := by
  refine ext_entries (r := r) (fun i hi => ?_) fun i hi => get?_resetAll_of_not_mem hi
  rw [get?_resetAll hr hi, get?_resetAll hr hi]

/-- The keys of a registry tell which resources of a world are registered. -/
theorem resourceKey_mem_keys_iff {registry : Registry Resource} {r : Resource} :
    resourceKey r ∈ registry.keys ↔ r ∈ registry.entries :=
  ⟨fun h => by
    obtain ⟨q, hq, hkey⟩ := List.mem_map.mp h
    exact Resource.resourceKey_injective hkey ▸ hq, List.mem_map_of_mem⟩

end Registry

namespace App

variable {a : App} {r : Resource}

/-- The application after resources were registered in order; a refused call does not stop the
others. -/
def registerEach (a : App) (calls : List Resource) : App :=
  calls.foldl (fun a r => ((register r).run.run a).2) a

theorem run_register_of_fresh (h : resourceKey r ∉ a.registry.keys) :
    (register r).run.run a = (.ok (), { a with registry := ⟨a.registry.entries ++ [r]⟩ }) := by
  rw [run_register, Registry.register?_of_fresh h]

/-- A key that is taken is reported, and the call refused. -/
theorem run_register_of_taken (h : resourceKey r ∈ a.registry.keys) :
    (register r).run.run a = (.error (.keyRegisteredTwice (resourceKey r)),
      { a with notices := a.notices ++ [.keyTaken (resourceKey r)] }) := by
  rw [run_register, Registry.register?_eq_none_iff.mpr h]

/-- Two resources that are not registered are registered one after the other. -/
theorem run_register_register {q r : Resource} (hq : q ∉ a.registry.entries)
    (hr : r ∉ a.registry.entries) (hne : q ≠ r) : (do register q; register r).run.run a =
      (.ok (), { a with registry := ⟨a.registry.entries ++ [q, r]⟩ }) := by
  have hr' : r ∉ a.registry.entries ++ [q] := by
    rw [List.mem_append, List.mem_singleton]
    exact not_or.mpr ⟨hr, hne.symm⟩
  rw [run_bind_of_ok (run_register_of_fresh (mt Registry.resourceKey_mem_keys_iff.mp hq)),
    run_register_of_fresh (mt Registry.resourceKey_mem_keys_iff.mp hr'), List.append_assoc]
  rfl

/-- The steps of an application register what the calls register, and do nothing else to it but
report. -/
theorem registerEach_eq (ha : a.registry = {}) (calls : List Resource) :
    ∃ notices, a.registerEach calls = { a with registry := .ofCalls calls, notices } := by
  induction calls using List.reverseRecOn with
  | nil =>
    refine ⟨a.notices, ?_⟩
    cases a
    cases ha
    rfl
  | append_singleton calls r ih =>
    obtain ⟨notices, hrun⟩ := ih
    have hlast : a.registerEach (calls ++ [r]) =
        ((register r).run.run (a.registerEach calls)).2 := by
      rw [registerEach, List.foldl_append]
      rfl
    rw [hlast, hrun]
    by_cases h : resourceKey r ∈ (Registry.ofCalls calls).keys
    · rw [run_register_of_taken h, Registry.ofCalls_append_of_taken h]
      exact ⟨_, rfl⟩
    · rw [run_register_of_fresh h, Registry.ofCalls_append_of_fresh h]
      exact ⟨_, rfl⟩

end App

namespace Registry

/-- Whatever resources are registered in a row, the keys of the registry are the called ones, each
once and in the order of the first calls, and a call is refused, and leaves the registry as it was,
just when its key was called before; so it is in an application, where a refused call is reported.
Registries with the same resources save the same from every store, and load every save and reset into
the same store; to load a save twice, or to reset twice, is to do it once. -/
theorem registration_order {σ ι : Type} [ResourceFamily ι] [Store σ ι] [LawfulStore σ ι] :
    (∀ calls : List ι, (ofCalls calls).keys.Nodup ∧
      (ofCalls calls).keys = (calls.map resourceKey).eraseDups ∧
      (∀ key, (ofCalls calls).entries.find? (resourceKey · == key) =
        calls.find? (resourceKey · == key)) ∧
      ∀ i, ((ofCalls calls).register? i = none ↔ resourceKey i ∈ calls.map resourceKey) ∧
        ((ofCalls calls).register? i = none → ofCalls (calls ++ [i]) = ofCalls calls)) ∧
    (∀ (a : App) (calls : List Resource), a.registry = {} →
      let b := a.registerEach calls
      b.registry = ofCalls calls ∧ b.world = a.world ∧
      ∀ r, resourceKey r ∈ calls.map resourceKey → (App.register r).run.run b =
        (.error (.keyRegisteredTwice (resourceKey r)),
          { b with notices := b.notices ++ [.keyTaken (resourceKey r)] })) ∧
    (∀ calls others : List ι,
      (∀ i, i ∈ (ofCalls calls).entries ↔ i ∈ (ofCalls others).entries) →
      ∀ (w : σ) (saved : SaveMap), (ofCalls calls).saveAll w = (ofCalls others).saveAll w ∧
        ((ofCalls calls).loadAll saved w).1 = ((ofCalls others).loadAll saved w).1 ∧
        (ofCalls calls).resetAll w = (ofCalls others).resetAll w) ∧
    ∀ (calls : List ι) (w : σ) (saved : SaveMap),
      let r := ofCalls calls
      (r.loadAll saved (r.loadAll saved w).1).1 = (r.loadAll saved w).1 ∧
        r.resetAll (r.resetAll w) = r.resetAll w := by
  refine ⟨fun calls => ⟨nodup_keys_ofCalls calls, keys_ofCalls calls,
    fun key => find?_entries_ofCalls key calls, fun i => ⟨?_, fun hrefused => ?_⟩⟩,
    fun a calls ha => ?_, fun calls others hsame w saved => ?_, fun calls w saved => ?_⟩
  · rw [register?_eq_none_iff, mem_keys_ofCalls_iff]
  · exact ofCalls_append_of_taken (register?_eq_none_iff.mp hrefused)
  · intro b
    obtain ⟨notices, hb⟩ := App.registerEach_eq ha calls
    have hregistry : b.registry = ofCalls calls := congrArg App.registry hb
    have hworld := congrArg App.world hb
    refine ⟨hregistry, hworld, fun r hcalled => App.run_register_of_taken ?_⟩
    rw [hregistry]
    exact mem_keys_ofCalls_iff.mpr hcalled
  · have hr := nodup_keys_ofCalls calls
    have hs := nodup_keys_ofCalls others
    exact ⟨saveAll_congr hr hs hsame, loadAll_congr hr hs hsame, resetAll_congr hr hs hsame⟩
  · have hr := nodup_keys_ofCalls calls
    exact ⟨loadAll_loadAll hr, resetAll_resetAll hr⟩

/-- The plugins register the map before its options and the streams after both; registered the other
way round and with repetitions, the same worlds are saved, loaded and reset. -/
theorem registration_order_repeated :
    let calls : List Resource := [.tileMap, .mapConfig, .sim, .interactive]
    let others : List Resource := [.interactive, .sim, .interactive, .mapConfig, .sim, .tileMap]
    (∀ i, i ∈ (ofCalls calls).entries ↔ i ∈ (ofCalls others).entries) ∧
      (ofCalls others).keys = ["interactive_random", "sim_random", "map_config", "tile_map"] ∧
      (ofCalls others).register? .mapConfig = none ∧
      ((App.register .mapConfig).run.run (({} : App).registerEach others)).1 =
        .error (.keyRegisteredTwice "map_config") ∧
      ∀ (w : World) (saved : SaveMap), (ofCalls calls).saveAll w = (ofCalls others).saveAll w ∧
        ((ofCalls calls).loadAll saved w).1 = ((ofCalls others).loadAll saved w).1 ∧
        (ofCalls calls).resetAll w = (ofCalls others).resetAll w := by
  intro calls others
  obtain ⟨hcalls, hsteps, horder, -⟩ := registration_order (σ := World) (ι := Resource)
  have hsame : ∀ i, i ∈ (ofCalls calls).entries ↔ i ∈ (ofCalls others).entries := by
    intro i
    cases i <;> decide
  obtain ⟨-, hkeys, -, hrefused⟩ := hcalls others
  have htaken : resourceKey Resource.mapConfig ∈ others.map resourceKey := by decide
  refine ⟨hsame, hkeys.trans (by decide), (hrefused .mapConfig).1.mpr htaken, ?_,
    horder calls others hsame⟩
  rw [(hsteps {} others rfl).2.2 _ htaken]
  rfl

end Registry

end RailGrid
