import RailGrid.Save.Packing

/-!
# Packed columns are read back

A column of small values is cut into stretches of as many values as a byte holds, and the digits of
each byte are the values of its stretch, with zeros after a short last one. Cutting these off gives
the column back. The packing is chosen by the greatest value that is written, so that every value is
a digit of it, and what was subtracted from all values is added again.
-/

namespace RailGrid

/-- A number is below the power of the base that its digits reach. -/
theorem ofDigits_lt {base : Nat} {ds : List Nat} (hds : ∀ d ∈ ds, d < base) :
    ofDigits base ds < base ^ ds.length := by
  induction ds with
  | nil => exact Nat.one_pos
  | cons d ds ih =>
    have hd : d < base := hds d (by simp)
    have hrest : ofDigits base ds < base ^ ds.length := ih fun e he => hds e (by simp [he])
    calc d + base * ofDigits base ds < base * 1 + base * ofDigits base ds := by omega
      _ = base * (ofDigits base ds + 1) := by rw [Nat.mul_add, Nat.add_comm]
      _ ≤ base * base ^ ds.length := Nat.mul_le_mul_left base hrest
      _ = base ^ (d :: ds).length := by rw [List.length_cons, Nat.pow_succ, Nat.mul_comm]

namespace Save

namespace Reader

variable {α β : Type} {r : Reader α} {bs : Bytes} {a : α} {n : Nat}

/-- What comes next sees the value and the rest of the input. -/
theorem Reads.bind_apply (hr : Reads r bs a) (s : α → Reader β) (rest : Bytes) :
    (r >>= s) (bs ++ rest) = s a rest := by
  simp only [Bind.bind, StateT.bind, hr rest, Option.bind]

/-- A result may be computed from what was read. -/
theorem Reads.then_pure {f : α → β} (hr : Reads r bs a) : Reads (do return f (← r)) bs (f a) := by
  have h := hr.bind (s := fun a => pure (f a)) reads_pure
  rwa [List.append_nil] at h

theorem reads_take_of_length (h : bs.length = n) : Reads (take n) bs bs := h ▸ reads_take

end Reader

open Reader

/-! ### Stretches -/

namespace Packing

variable {α β : Type} {n : Nat} {l ds : List α}

theorem go_of_end {done : List (List α)} (h : l = [] ∨ n = 0) :
    stretches.go n done l = done.reverse := by
  rw [stretches.go, dif_pos h]

theorem go_of_not_end {done : List (List α)} (h : ¬ (l = [] ∨ n = 0)) :
    stretches.go n done l = stretches.go n (l.take n :: done) (l.drop n) := by
  rw [stretches.go, dif_neg h, List.splitAt_eq]

/-- The stretches that are done stay in front. -/
theorem go_eq_append (done : List (List α)) (l : List α) :
    stretches.go n done l = done.reverse ++ stretches n l := by
  induction hlength : l.length using Nat.strongRecOn generalizing done l with
  | ind k ih =>
    unfold stretches
    by_cases hend : l = [] ∨ n = 0
    · rw [go_of_end hend, go_of_end hend, List.reverse_nil, List.append_nil]
    · have hshorter : (l.drop n).length < k := by
        have hpos : 0 < l.length := List.length_pos_iff.mpr fun hl => hend (.inl hl)
        rw [List.length_drop]
        omega
      rw [go_of_not_end hend, go_of_not_end hend, ih _ hshorter _ _ rfl, ih _ hshorter _ _ rfl,
        List.reverse_cons, List.reverse_singleton, List.append_assoc]

@[simp] theorem stretches_nil : stretches n ([] : List α) = [] := go_of_end (.inl rfl)

/-- The first stretch of a list, and those of what is left. -/
theorem stretches_of_ne_nil (hn : 0 < n) (hl : l ≠ []) :
    stretches n l = l.take n :: stretches n (l.drop n) := by
  have hend : ¬ (l = [] ∨ n = 0) := by
    rintro (h | h)
    · exact hl h
    · omega
  rw [stretches, go_of_not_end hend, go_eq_append]
  rfl

/-- What holds of the empty list, and of a list when it holds of what is left after its first
stretch, holds of every list. -/
theorem stretches_induction {P : List α → Prop} (hn : 0 < n) (nil : P [])
    (cut : ∀ l, l ≠ [] → P (l.drop n) → P l) (l : List α) : P l := by
  induction hlength : l.length using Nat.strongRecOn generalizing l with
  | ind k ih =>
    by_cases hl : l = []
    · exact hl ▸ nil
    · refine cut l hl (ih _ ?_ _ rfl)
      have hpos : 0 < l.length := List.length_pos_iff.mpr hl
      rw [List.length_drop]
      omega

/-- As many stretches as it takes, the last of which may be short. -/
theorem length_stretches (hn : 0 < n) (l : List α) :
    (stretches n l).length = (l.length + n - 1) / n := by
  induction l using stretches_induction hn with
  | nil =>
    simp only [stretches_nil, List.length_nil]
    exact (Nat.div_eq_of_lt (by omega)).symm
  | cut l hl ih =>
    have hpos : 0 < l.length := List.length_pos_iff.mpr hl
    have hone : (l.length + n - 1) / n = (l.length - 1) / n + 1 := by
      rw [← Nat.add_div_right _ hn, Nat.sub_add_comm hpos]
    rw [stretches_of_ne_nil hn hl, List.length_cons, ih, List.length_drop, hone]
    by_cases hlast : l.length ≤ n
    · rw [Nat.sub_eq_zero_of_le hlast, Nat.div_eq_of_lt (by omega), Nat.div_eq_of_lt (by omega)]
    · rw [show l.length - n + n - 1 = l.length - 1 by omega]

/-- A stretch is not longer than it should be, and made of members of the list. -/
theorem of_mem_stretches (hn : 0 < n) (hds : ds ∈ stretches n l) :
    ds.length ≤ n ∧ ∀ d ∈ ds, d ∈ l := by
  induction l using stretches_induction hn with
  | nil => simp at hds
  | cut l hl ih =>
    rw [stretches_of_ne_nil hn hl, List.mem_cons] at hds
    rcases hds with rfl | hds
    · exact ⟨List.length_take_le n l, fun d hd => List.mem_of_mem_take hd⟩
    · exact ⟨(ih hds).1, fun d hd => List.mem_of_mem_drop ((ih hds).2 d hd)⟩

/-- Stretches filled up to full length spell the list, with the filling behind it. -/
theorem take_flatMap_stretches (hn : 0 < n) (z : α) (l : List α) :
    ((stretches n l).flatMap fun ds => ds ++ List.replicate (n - ds.length) z).take l.length =
      l := by
  induction l using stretches_induction hn with
  | nil => simp
  | cut l hl ih =>
    rw [stretches_of_ne_nil hn hl, List.flatMap_cons]
    by_cases hlast : l.length ≤ n
    · rw [List.take_of_length_le hlast, List.append_assoc,
        List.take_append_of_le_length (Nat.le_refl _), List.take_length]
    · have hfull : (l.take n).length = n := List.length_take_of_le (by omega)
      have hrest : l.length = (l.take n).length + (l.drop n).length := by
        rw [hfull, List.length_drop]
        omega
      rw [hfull, Nat.sub_self, List.replicate_zero, List.append_nil, hrest,
        List.take_length_add_append, ih, List.take_append_drop]

/-- Pieces of full length are the stretches of what they make together. -/
theorem stretches_flatMap (hn : 0 < n) {f : β → List α} (hf : ∀ v, (f v).length = n)
    (vs : List β) : stretches n (vs.flatMap f) = vs.map f := by
  induction vs with
  | nil => rw [List.flatMap_nil, stretches_nil, List.map_nil]
  | cons v vs ih =>
    have hne : (v :: vs).flatMap f ≠ [] := by
      intro h
      have hv := hf v
      rw [List.flatMap_cons, List.append_eq_nil_iff] at h
      rw [h.1, List.length_nil] at hv
      omega
    rw [stretches_of_ne_nil hn hne, List.flatMap_cons, List.take_left' (hf v),
      List.drop_left' (hf v), ih, List.map_cons]

/-! ### Packing and unpacking -/

variable {p : Packing} {m k lo : Nat} {vs : List Nat}

/-- The places of a packing are digits, and no more of them than a byte has room for. -/
theorem of_mem_all (hp : p ∈ all) : 0 < p.perByte ∧ 1 < p.radix ∧ p.radix ^ p.perByte ≤ 256 := by
  revert p
  decide

/-- A byte of digits gives its digits back, with zeros in the places that were not filled. -/
theorem digits_toNat_ofDigits (hp : p ∈ all) {ds : List Nat} (hlength : ds.length ≤ p.perByte)
    (hds : ∀ d ∈ ds, d < p.radix) :
    digits p.radix p.perByte (UInt8.ofNat (ofDigits p.radix ds)).toNat =
      ds ++ List.replicate (p.perByte - ds.length) 0 := by
  obtain ⟨-, hradix, hroom⟩ := of_mem_all hp
  have hbyte : ofDigits p.radix ds < 256 :=
    calc ofDigits p.radix ds < p.radix ^ ds.length := ofDigits_lt hds
      _ ≤ p.radix ^ p.perByte := Nat.pow_le_pow_right (by omega) hlength
      _ ≤ 256 := hroom
  rw [UInt8.toNat_ofNat_of_lt' hbyte, digits_ofDigits hds hlength]

theorem length_pack (hp : p ∈ all) (vs : List Nat) :
    (p.pack vs).length = p.bytesFor vs.length := by
  rw [pack, List.length_map, length_stretches (of_mem_all hp).1, bytesFor]

/-- Values that are digits of the packing are unpacked as they were packed. -/
theorem unpack_pack (hp : p ∈ all) (hvs : ∀ v ∈ vs, v < p.radix) :
    p.unpack vs.length (p.pack vs) = vs := by
  obtain ⟨hperByte, -, -⟩ := of_mem_all hp
  have hdigits : ∀ ds ∈ stretches p.perByte vs,
      digits p.radix p.perByte (UInt8.ofNat (ofDigits p.radix ds)).toNat =
        ds ++ List.replicate (p.perByte - ds.length) 0 := by
    intro ds hds
    obtain ⟨hlength, hmem⟩ := of_mem_stretches hperByte hds
    exact digits_toNat_ofDigits hp hlength fun d hd => hvs d (hmem d hd)
  rw [unpack, pack, List.flatMap_map, List.flatMap_def, List.map_congr_left hdigits,
    ← List.flatMap_def, take_flatMap_stretches hperByte]

/-- The tightest packing for a value has the value among its digits. -/
theorem exists_tightest (hm : m < 256) : ∃ p ∈ all, all[tightest m]? = some p ∧ m < p.radix := by
  have hfirst : decide ((⟨256, 1⟩ : Packing).radix ≤ m) = false :=
    decide_eq_false (Nat.not_le.mpr hm)
  have hpos : 0 < all.findIdx (·.radix ≤ m) := by
    rw [all, List.findIdx_cons, hfirst]
    exact Nat.succ_pos _
  have hbefore : tightest m < all.findIdx (·.radix ≤ m) := Nat.sub_lt hpos Nat.one_pos
  have hlt : tightest m < all.length := Nat.lt_of_lt_of_le hbefore List.findIdx_le_length
  refine ⟨all[tightest m], List.getElem_mem hlt, List.getElem?_eq_getElem hlt, ?_⟩
  have hnot := List.not_of_lt_findIdx hbefore
  exact Nat.lt_of_not_le (of_decide_eq_false hnot)

theorem tightest_le : tightest m ≤ 5 := by
  have hle : all.findIdx (·.radix ≤ m) ≤ 6 := List.findIdx_le_length
  unfold tightest
  omega

end Packing

/-! ### Bounds of a column -/

variable {m lo : Nat} {vs : List Nat} {v : Nat}

theorem least_le (hv : v ∈ vs) : least vs ≤ v := List.min?_getD_le_of_mem hv

theorem le_greatest (hv : v ∈ vs) : v ≤ greatest vs := List.le_max?_getD_of_mem hv

/-- The greatest value is one of the values, or zero if there are none. -/
theorem greatest_lt (hpos : 0 < m) (hvs : ∀ v ∈ vs, v < m) : greatest vs < m := by
  unfold greatest
  cases hmax : vs.max? with
  | none => exact hpos
  | some v => exact hvs v (List.max?_mem hmax)

/-- What is left of the values after the least one is taken off lies within their span. -/
theorem sub_least_le (hv : v ∈ vs) : v - least vs ≤ greatest vs - least vs :=
  Nat.sub_le_sub_right (le_greatest hv) _

/-- Taking a lower bound off all values and adding it again changes nothing. -/
theorem map_add_map_sub {b : Nat} (hlo : ∀ v ∈ vs, lo ≤ v) (hvs : ∀ v ∈ vs, v < b) :
    ((vs.map (· - lo)).map fun v => (v + lo) % b) = vs := by
  rw [List.map_map]
  refine (List.map_congr_left fun v hv => ?_).trans (List.map_id vs)
  rw [Function.comp_apply, Nat.sub_add_cancel (hlo v hv), Nat.mod_eq_of_lt (hvs v hv), id]

/-! ### Small values -/

variable {code : Nat} {r : Reader Nat} {bs : Bytes}

/-- An odd code is followed by what was taken off. -/
theorem reads_readOffset (hcode : code % 2 = 1) (hr : Reads r bs lo) :
    Reads (readOffset code r) bs lo := by
  rwa [readOffset, if_pos hcode]

/-- After an even code nothing was taken off. -/
theorem reads_readOffset_of_even (hcode : code % 2 = 0) : Reads (readOffset code r) [] 0 := by
  rw [readOffset, if_neg (by omega)]
  exact reads_pure

/-- The byte that holds a code is read as the code. -/
theorem reads_code (hcode : code < 256) : Reads byte [.ofNat code] code := by
  have hread := reads_byte (c := .ofNat code)
  rwa [UInt8.toNat_ofNat_of_lt' hcode] at hread

/-- A long column is read back from its code, what was taken off, and the rest of its values in the
packing that the code names. -/
theorem reads_small_of_code {p : Packing} {k : Nat} {los : Bytes} (hlong : 2 < vs.length)
    (hcode : code < 256) (hk : (code + 1) / 2 = k)
    (hoffset : Reads (readOffset code byte) los lo) (hp : p ∈ Packing.all)
    (hpacking : Packing.all[k]? = some p) (hdigit : ∀ v ∈ vs, v - lo < p.radix)
    (hlo : ∀ v ∈ vs, lo ≤ v) (hvs : ∀ v ∈ vs, v < 256) :
    Reads (readSmall vs.length)
      (.ofNat code :: (los ++ writePacked k (vs.map (· - lo)))) vs := by
  have hpacked : ∀ v ∈ vs.map (· - lo), v < p.radix := by
    intro u hu
    obtain ⟨v, hv, rfl⟩ := List.mem_map.mp hu
    exact hdigit v hv
  have hread := (reads_take_of_length (Packing.length_pack hp (vs.map (· - lo)))).then_pure
    (f := fun bs => (p.unpack (vs.map (· - lo)).length bs).map fun v => (v + lo) % 256)
  rw [Packing.unpack_pack hp hpacked, map_add_map_sub hlo hvs, List.length_map] at hread
  rw [readSmall, if_neg (by omega)]
  refine (reads_code hcode).bind (hoffset.bind ?_)
  rw [hk, writePacked, hpacking]
  exact hread

/-- A column of small values is read back. -/
theorem reads_small (hvs : ∀ v ∈ vs, v < 256) : Reads (readSmall vs.length) (writeSmall vs) vs := by
  by_cases hshort : vs.length ≤ 2
  · rw [readSmall, writeSmall, if_pos hshort, if_pos hshort]
    have hlength : (vs.map UInt8.ofNat).length = vs.length := List.length_map _
    have hread := (reads_take_of_length hlength).then_pure (f := fun bs => bs.map (·.toNat))
    have hbytes : (vs.map UInt8.ofNat).map (·.toNat) = vs := by
      rw [List.map_map]
      refine (List.map_congr_left fun v hv => ?_).trans (List.map_id vs)
      exact UInt8.toNat_ofNat_of_lt' (hvs v hv)
    rwa [hbytes] at hread
  · have hlong : 2 < vs.length := Nat.lt_of_not_le hshort
    have hgreatest : greatest vs < 256 := greatest_lt (by decide) hvs
    have hspan : greatest vs - least vs < 256 := Nat.lt_of_le_of_lt (Nat.sub_le _ _) hgreatest
    rw [writeSmall, if_neg hshort]
    dsimp only
    split
    · rename_i hshifted
      obtain ⟨htighter, -⟩ := hshifted
      obtain ⟨p, hp, hpacking, hdigit⟩ := Packing.exists_tightest hspan
      have hle := Packing.tightest_le (m := greatest vs - least vs)
      have hleast : least vs < 256 := by
        obtain ⟨v, hv⟩ := List.exists_mem_of_length_pos (Nat.lt_trans (by decide) hlong)
        exact Nat.lt_of_le_of_lt (least_le hv) (hvs v hv)
      exact reads_small_of_code hlong (by omega) (by omega)
        (reads_readOffset (by omega) (reads_code hleast)) hp hpacking
        (fun v hv => Nat.lt_of_le_of_lt (sub_least_le hv) hdigit) (fun v => least_le) hvs
    · obtain ⟨p, hp, hpacking, hdigit⟩ := Packing.exists_tightest hgreatest
      have hle := Packing.tightest_le (m := greatest vs)
      have hcode : 2 * Packing.tightest (greatest vs) < 256 := by omega
      have hread := reads_small_of_code hlong hcode (by omega)
        (reads_readOffset_of_even (by omega)) hp hpacking
        (fun v hv => Nat.lt_of_le_of_lt (le_greatest hv) hdigit) (fun _ _ => Nat.zero_le _) hvs
      simpa only [Nat.sub_zero, List.map_id', List.nil_append] using hread

end Save
end RailGrid
