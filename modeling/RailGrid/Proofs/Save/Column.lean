import RailGrid.Proofs.Save.Packing
import RailGrid.Save.Column

/-!
# Columns of words are read back

A word is the number with its bytes, and a column of words is cut into stretches of one word each.
The width that a code names is the one that its column was written in, wide enough for the greatest
value that was written, so the words of a column come back whichever of its forms was chosen. A
length is read back below the limit, and refused from there on.
-/

namespace RailGrid

/-- A number that fits into the bytes is read back from them. -/
theorem ofBytes_toBytes {n x : Nat} (hx : x < 256 ^ n) : ofBytes (toBytes n x) = x := by
  have hdigit : ∀ d ∈ digits 256 n x, (UInt8.ofNat d).toNat = d := by
    intro d hd
    refine UInt8.toNat_ofNat_of_lt' ?_
    clear hx
    induction n generalizing x with
    | zero => cases hd
    | succ n ih =>
      rcases List.mem_cons.mp hd with rfl | hd
      · exact Nat.mod_lt _ (by decide)
      · exact ih hd
  have hdigits : ((digits 256 n x).map UInt8.ofNat).map (·.toNat) = digits 256 n x := by
    rw [List.map_map]
    exact (List.map_congr_left hdigit).trans (List.map_id _)
  rw [ofBytes, toBytes, hdigits, ofDigits_digits hx]

namespace Save

open Reader

variable {e k m lo code v : Nat} {vs : List Nat} {los : Bytes}

/-! ### Words -/

theorem reads_word (hv : v < 256 ^ 2 ^ e) : Reads (readWord e) (toBytes (2 ^ e) v) v := by
  have hread := (reads_take_of_length (length_toBytes (n := 2 ^ e) (x := v))).then_pure
    (f := ofBytes)
  rwa [ofBytes_toBytes hv] at hread

/-- Words of one width are read back. -/
theorem reads_words (hvs : ∀ v ∈ vs, v < 256 ^ 2 ^ e) :
    Reads (readWords e vs.length) (writeWords e vs) vs := by
  have hlength : (writeWords e vs).length = vs.length * 2 ^ e := by
    simp [writeWords, List.length_flatMap, List.map_const']
  have hread := (reads_take_of_length hlength).then_pure
    (f := fun bs => (Packing.stretches (2 ^ e) bs).map ofBytes)
  have hwords : (Packing.stretches (2 ^ e) (writeWords e vs)).map ofBytes = vs := by
    rw [writeWords, Packing.stretches_flatMap (Nat.two_pow_pos e) fun v => length_toBytes,
      List.map_map]
    exact (List.map_congr_left fun v hv => ofBytes_toBytes (hvs v hv)).trans (List.map_id vs)
  rwa [hwords] at hread

/-- Values of one width are read back, packed if the width is one byte. -/
theorem reads_narrow (hvs : ∀ v ∈ vs, v < 256 ^ 2 ^ e) :
    Reads (readNarrow e vs.length) (writeNarrow e vs) vs := by
  unfold readNarrow writeNarrow
  split
  · rename_i hbyte
    subst hbyte
    exact reads_small hvs
  · exact reads_words hvs

/-! ### Widths -/

/-- The width of a value has room for it. -/
theorem lt_pow_widthLog (hm : m < 2 ^ 64) : m < 256 ^ 2 ^ widthLog m := by
  unfold widthLog
  split
  · assumption
  · split
    · assumption
    · split
      · assumption
      · exact hm

/-- A value that fits into a word is not wider than the word. -/
theorem widthLog_le (hm : m < 256 ^ 2 ^ e) : widthLog m ≤ e := by
  have hwider {d : Nat} (hd : ¬ m < 256 ^ 2 ^ d) : d < e := by
    refine Nat.lt_of_not_le fun hle => hd (Nat.lt_of_lt_of_le hm ?_)
    exact Nat.pow_le_pow_right (by decide) (Nat.pow_le_pow_right (by decide) hle)
  unfold widthLog
  split
  · exact Nat.zero_le e
  · rename_i h₀
    split
    · exact hwider (d := 0) h₀
    · rename_i h₁
      split
      · exact hwider (d := 1) h₁
      · rename_i h₂
        exact hwider (d := 2) h₂

/-! ### Columns -/

/-- A column is read back from its code, what was taken off, and the rest of its values in the width
that the code names. -/
theorem reads_column_of_code (he : e ≠ 0) (hbare : isBare e vs.length = false)
    (hcode : code < 256) (hk : k + (code + 1) / 2 = e)
    (hoffset : Reads (readOffset code (readWord e)) los lo)
    (hwidth : ∀ v ∈ vs, v - lo < 256 ^ 2 ^ k) (hlo : ∀ v ∈ vs, lo ≤ v)
    (hvs : ∀ v ∈ vs, v < 256 ^ 2 ^ e) :
    Reads (readColumn e vs.length)
      (.ofNat code :: (los ++ writeNarrow k (vs.map (· - lo)))) vs := by
  have hnarrow : ∀ v ∈ vs.map (· - lo), v < 256 ^ 2 ^ k := by
    intro u hu
    obtain ⟨v, hv, rfl⟩ := List.mem_map.mp hu
    exact hwidth v hv
  have hread := (reads_narrow hnarrow).then_pure
    (f := fun vs => vs.map fun v => (v + lo) % 256 ^ 2 ^ e)
  rw [map_add_map_sub hlo hvs, List.length_map] at hread
  have hwidthOf : e - (code + 1) / 2 = k := by omega
  have hfits : ¬ e < (code + 1) / 2 := by omega
  rw [readColumn, if_neg he, hbare, if_neg Bool.false_ne_true]
  refine (reads_code hcode).bind (hoffset.bind ?_)
  rw [if_neg hfits, hwidthOf]
  exact hread

/-- With an even code nothing was taken off. -/
theorem reads_column_of_even (he : e ≠ 0) (hbare : isBare e vs.length = false)
    (hcode : code < 256) (heven : code % 2 = 0) (hk : k + code / 2 = e)
    (hwidth : ∀ v ∈ vs, v < 256 ^ 2 ^ k) (hvs : ∀ v ∈ vs, v < 256 ^ 2 ^ e) :
    Reads (readColumn e vs.length) (.ofNat code :: writeNarrow k vs) vs := by
  have hread := reads_column_of_code he hbare hcode (k := k) (by omega)
    (reads_readOffset_of_even heven) hwidth (fun _ _ => Nat.zero_le _) hvs
  simpa only [Nat.sub_zero, List.map_id', List.nil_append] using hread

/-- A column of words is read back, in whichever form it was written. -/
theorem reads_column (he : e ≤ 3) (hvs : ∀ v ∈ vs, v < 256 ^ 2 ^ e) :
    Reads (readColumn e vs.length) (writeColumn e vs) vs := by
  by_cases hzero : e = 0
  · subst hzero
    exact reads_small hvs
  cases hbare : isBare e vs.length with
  | true =>
    rw [readColumn, writeColumn, if_neg hzero, if_neg hzero, if_pos hbare, if_pos hbare]
    exact reads_words hvs
  | false =>
    have hpos : 0 < 256 ^ 2 ^ e := Nat.pow_pos (by decide)
    have hword : 256 ^ 2 ^ e ≤ 2 ^ 64 :=
      Nat.pow_le_pow_right (n := 256) (by decide) (Nat.pow_le_pow_right (n := 2) (by decide) he)
    have hgreatest : greatest vs < 256 ^ 2 ^ e := greatest_lt hpos hvs
    have hplain := widthLog_le hgreatest
    have hroom := lt_pow_widthLog (Nat.lt_of_lt_of_le hgreatest hword)
    rw [writeColumn, if_neg hzero, hbare]
    dsimp only
    rw [if_neg Bool.false_ne_true]
    split
    · have hread := reads_column_of_even hzero hbare (show 0 < 256 by decide) rfl
        (Nat.add_zero e) hvs hvs
      rwa [writeNarrow, if_neg hzero] at hread
    · split
      · rename_i hshifted
        obtain ⟨hnarrower, hlong⟩ := hshifted
        have hspan : greatest vs - least vs < 2 ^ 64 := by omega
        have hleast : least vs < 256 ^ 2 ^ e := by
          obtain ⟨v, hv⟩ := List.exists_mem_of_length_pos (Nat.lt_trans (by decide) hlong)
          exact Nat.lt_of_le_of_lt (least_le hv) (hvs v hv)
        exact reads_column_of_code hzero hbare (by omega) (by omega)
          (reads_readOffset (by omega) (reads_word hleast))
          (fun v hv => Nat.lt_of_le_of_lt (sub_least_le hv) (lt_pow_widthLog hspan))
          (fun v => least_le) hvs
      · exact reads_column_of_even hzero hbare (by omega) (by omega) (by omega)
          (fun v hv => Nat.lt_of_le_of_lt (le_greatest hv) hroom) hvs

/-! ### Lengths -/

/-- A word on its own is read back. -/
theorem reads_column_singleton (he : e ≤ 3) (hv : v < 256 ^ 2 ^ e) :
    Reads (readColumn e 1) (writeColumn e [v]) [v] := by
  have hvs : ∀ u ∈ [v], u < 256 ^ 2 ^ e := by simpa using hv
  exact reads_column he hvs

/-- A number as a length: read back below the limit, and refused from there on. -/
theorem readLength_writeLength {n : Nat} (hn : n < 2 ^ 64) (rest : Bytes) :
    readLength (writeLength n ++ rest) = if n < lengthLimit then some (n, rest) else none := by
  have hcheck : (if n < lengthLimit then pure n else failure : Reader Nat) rest =
      if n < lengthLimit then some (n, rest) else none := by
    split <;> rfl
  unfold readLength writeLength
  by_cases hbyte : n < 255
  · rw [if_pos hbyte, (reads_code (Nat.lt_succ_of_lt hbyte)).bind_apply, if_pos hbyte]
    exact hcheck
  · have hnumber := (reads_column_singleton (e := 3) (Nat.le_refl 3) hn).map (f := (·.headD 0))
    have hmark : Reads byte [255] 255 := reads_code (by decide)
    rw [if_neg hbyte, ← List.singleton_append, List.append_assoc, hmark.bind_apply,
      if_neg (by decide), hnumber.bind_apply]
    exact hcheck

end Save
end RailGrid
