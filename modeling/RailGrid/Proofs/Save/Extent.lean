import RailGrid.Proofs.Save.Column

/-!
# How many bytes a column has

A reader that is told how many values to expect takes no more bytes than these can fill, and a
column of small values is never written in less than an eighth of a byte for each. So a reader that
was told a wrong, smaller number cannot come to the end of a much longer column.
-/

namespace RailGrid.Save

namespace Reader

/-- Where the reader succeeds it takes at most `k` bytes. -/
def TakesAtMost {α : Type} (r : Reader α) (k : Nat) : Prop :=
  ∀ bs a rest, r bs = some (a, rest) → bs.length ≤ k + rest.length

variable {α β : Type} {r : Reader α} {s : α → Reader β} {k l n : Nat}

theorem TakesAtMost.mono (hr : TakesAtMost r k) (hkl : k ≤ l) : TakesAtMost r l :=
  fun bs a rest h => Nat.le_trans (hr bs a rest h) (Nat.add_le_add_right hkl _)

theorem takesAtMost_pure {a : α} : TakesAtMost (pure a) 0 := by
  intro bs b rest h
  cases h
  exact Nat.le_add_left _ _

theorem takesAtMost_failure : TakesAtMost (failure : Reader α) 0 := by
  intro bs a rest h
  cases h

theorem takesAtMost_take : TakesAtMost (take n) n := by
  intro bs a rest h
  unfold take at h
  split at h
  · rw [List.splitAt_eq] at h
    cases h
    rw [List.length_drop]
    omega
  · cases h

theorem takesAtMost_byte : TakesAtMost byte 1 := by
  intro bs a rest h
  cases bs with
  | nil => cases h
  | cons b bs =>
    cases h
    rw [List.length_cons]
    omega

/-- The second reader need only be bounded for the values that the first one yields. -/
theorem TakesAtMost.bind_of_yields (hr : TakesAtMost r k)
    (hs : ∀ bs a rest, r bs = some (a, rest) → TakesAtMost (s a) l) :
    TakesAtMost (r >>= s) (k + l) := by
  intro bs b rest h
  obtain ⟨⟨a, mid⟩, ha, hb⟩ := Option.bind_eq_some_iff.mp h
  have hfirst := hr bs a mid ha
  have hsecond := hs bs a mid ha mid b rest hb
  omega

theorem TakesAtMost.bind (hr : TakesAtMost r k) (hs : ∀ a, TakesAtMost (s a) l) :
    TakesAtMost (r >>= s) (k + l) :=
  hr.bind_of_yields fun _ a _ _ => hs a

theorem TakesAtMost.then_pure {f : α → β} (hr : TakesAtMost r k) :
    TakesAtMost (do return f (← r)) k :=
  hr.bind fun _ => takesAtMost_pure

theorem TakesAtMost.map {f : α → β} (hr : TakesAtMost r k) : TakesAtMost (f <$> r) k := by
  rw [map_eq_pure_bind]
  exact hr.then_pure

end Reader

open Reader

variable {e n code k : Nat} {r : Reader Nat} {vs : List Nat}

/-! ### What reading takes at most -/

theorem takesAtMost_readOffset (hr : TakesAtMost r k) : TakesAtMost (readOffset code r) k := by
  unfold readOffset
  split
  · exact hr
  · exact takesAtMost_pure.mono (Nat.zero_le k)

/-- Packed values have a byte each at most. -/
theorem Packing.bytesFor_le {p : Packing} (hp : p ∈ all) : p.bytesFor n ≤ n := by
  obtain ⟨hperByte, -, -⟩ := of_mem_all hp
  rw [bytesFor]
  rcases Nat.eq_zero_or_pos n with rfl | hn
  · exact Nat.le_of_eq (Nat.div_eq_of_lt (by omega))
  · refine Nat.div_le_of_le_mul ?_
    have hplaces : (p.perByte - 1) * 1 ≤ (p.perByte - 1) * n := Nat.mul_le_mul_left _ hn
    have hself : n ≤ p.perByte * n := Nat.le_mul_of_pos_left n hperByte
    rw [Nat.mul_one, Nat.sub_mul, Nat.one_mul] at hplaces
    omega

/-- A byte has room for eight values at most. -/
theorem Packing.le_mul_bytesFor {p : Packing} (hp : p ∈ all) : n ≤ 8 * p.bytesFor n := by
  have hperByte : 0 < p.perByte ∧ p.perByte ≤ 8 := by
    revert p
    decide
  have hlt : n + p.perByte - 1 < p.perByte * p.bytesFor n + p.perByte :=
    Nat.lt_mul_div_succ _ hperByte.1
  have hroom : p.perByte * p.bytesFor n ≤ 8 * p.bytesFor n :=
    Nat.mul_le_mul_right _ hperByte.2
  omega

theorem takesAtMost_readSmall : TakesAtMost (readSmall n) (n + 2) := by
  unfold readSmall
  split
  · exact takesAtMost_take.then_pure.mono (by omega)
  · refine (takesAtMost_byte.bind fun code => (takesAtMost_readOffset takesAtMost_byte).bind
      fun lo => (?_ : TakesAtMost _ n)).mono (by omega)
    split
    · rename_i p hp
      have hmem := List.mem_of_getElem? hp
      exact (takesAtMost_take.mono (Packing.bytesFor_le hmem)).then_pure
    · exact takesAtMost_failure.mono (Nat.zero_le n)

theorem takesAtMost_readWords : TakesAtMost (readWords e n) (n * 2 ^ e) :=
  takesAtMost_take.then_pure

theorem takesAtMost_readNarrow : TakesAtMost (readNarrow e n) (n * 2 ^ e + 2) := by
  unfold readNarrow
  split
  · rename_i hbyte
    subst hbyte
    exact takesAtMost_readSmall.mono (by omega)
  · exact takesAtMost_readWords.mono (by omega)

/-- A column takes its values, a value that was taken off, and three bytes at most. -/
theorem takesAtMost_readColumn : TakesAtMost (readColumn e n) (n * 2 ^ e + 2 ^ e + 3) := by
  unfold readColumn
  split
  · rename_i hbyte
    subst hbyte
    exact takesAtMost_readSmall.mono (by omega)
  · split
    · refine takesAtMost_readWords.mono ?_
      rw [Nat.add_assoc]
      exact Nat.le_add_right _ _
    · have hword : TakesAtMost (readWord e) (2 ^ e) := takesAtMost_take.then_pure
      refine (takesAtMost_byte.bind fun code => (takesAtMost_readOffset hword).bind
        fun lo => (?_ : TakesAtMost _ (n * 2 ^ e + 2))).mono (by omega)
      have hnarrower : 2 ^ (e - (code + 1) / 2) ≤ 2 ^ e :=
        Nat.pow_le_pow_right (by decide) (Nat.sub_le _ _)
      have hrest := takesAtMost_readNarrow (e := e - (code + 1) / 2) (n := n)
      have hbound := hrest.mono (Nat.add_le_add_right (Nat.mul_le_mul_left n hnarrower) 2)
      dsimp only
      split
      · exact (takesAtMost_failure.bind fun _ => hbound.then_pure).mono (by omega)
      · exact hbound.then_pure

/-- A length takes its mark and the column of one word at most, and is below the limit. -/
theorem takesAtMost_readLength : TakesAtMost readLength 20 := by
  have hcheck (n : Nat) : TakesAtMost (if n < lengthLimit then pure n else failure) 0 := by
    split
    · exact takesAtMost_pure
    · exact takesAtMost_failure
  unfold readLength
  refine (takesAtMost_byte.bind fun b => (?_ : TakesAtMost _ 19)).mono (Nat.le_refl 20)
  dsimp only
  split
  · exact (takesAtMost_pure.bind hcheck).mono (Nat.zero_le 19)
  · have hword : TakesAtMost (readColumn 3 1) 19 := takesAtMost_readColumn
    exact hword.map.bind hcheck

theorem lt_lengthLimit_of_readLength {bs rest : Bytes} (h : readLength bs = some (n, rest)) :
    n < lengthLimit := by
  have hcheck {c : Nat} {mid : Bytes}
      (h : (if c < lengthLimit then pure c else failure : Reader Nat) mid = some (n, rest)) :
      n < lengthLimit := by
    split at h
    · rename_i hlt
      cases h
      exact hlt
    · cases h
  obtain ⟨⟨b, mid⟩, -, h⟩ := Option.bind_eq_some_iff.mp h
  dsimp only at h
  split at h
  · exact hcheck h
  · obtain ⟨⟨c, mid⟩, -, h⟩ := Option.bind_eq_some_iff.mp h
    exact hcheck h

/-! ### What writing makes at least -/

theorem le_length_writePacked {p : Packing} (hp : p ∈ Packing.all)
    (hk : Packing.all[k]? = some p) : vs.length ≤ 8 * (writePacked k vs).length := by
  rw [writePacked, hk]
  dsimp only
  rw [Packing.length_pack hp]
  exact Packing.le_mul_bytesFor hp

/-- Eight small values take a byte at least. -/
theorem le_length_writeSmall (hvs : ∀ v ∈ vs, v < 256) :
    vs.length ≤ 8 * (writeSmall vs).length := by
  have hgreatest : greatest vs < 256 := greatest_lt (by decide) hvs
  have hspan : greatest vs - least vs < 256 := Nat.lt_of_le_of_lt (Nat.sub_le _ _) hgreatest
  unfold writeSmall
  split
  · rw [List.length_map]
    omega
  · dsimp only
    split
    · obtain ⟨p, hp, hpacking, -⟩ := Packing.exists_tightest hspan
      have hpacked : (vs.map (· - least vs)).length ≤ 8 * (writePacked _ _).length :=
        le_length_writePacked hp hpacking
      rw [List.length_map] at hpacked
      simp only [List.length_cons]
      omega
    · obtain ⟨p, hp, hpacking, -⟩ := Packing.exists_tightest hgreatest
      have hpacked : vs.length ≤ 8 * (writePacked _ _).length :=
        le_length_writePacked hp hpacking
      simp only [List.length_cons]
      omega

end RailGrid.Save
