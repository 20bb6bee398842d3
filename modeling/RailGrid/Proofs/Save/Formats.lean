import RailGrid.Proofs.Save.Extent
import RailGrid.Proofs.Save.Restore

/-!
# What is saved is loaded

Options, generators and maps are read back from their columns. A map whose edges do not fit its
tiles is read as it was written and then put aside, and one with more tiles than a length can tell is
not read at all; both are replaced by the standard map. What is loaded from any bytes can therefore
be saved and loaded again without a change.
-/

namespace RailGrid

open Save Reader

/-! ### Options and generators -/

theorem reads_word32 (v : UInt32) : Reads readWord32 (writeColumn 2 [v.toNat]) v := by
  have hread := (reads_column_singleton (e := 2) (by decide) v.toNat_lt).then_pure
    (f := fun vs => UInt32.ofNat (vs.headD 0))
  rwa [List.headD_cons, UInt32.ofNat_toNat] at hread

theorem MapConfig.reads_write (c : MapConfig) : Reads MapConfig.read c.write c := by
  rw [MapConfig.write, List.append_assoc]
  exact (reads_word32 c.bitsX).bind ((reads_word32 c.bitsY).bind (reads_word32 c.seed).then_pure)

theorem Generator.reads_write (g : Generator) : Reads Generator.read g.write g := by
  have hstate : ∀ v ∈ [g.first.toNat, g.second.toNat], v < 256 ^ 2 ^ 2 := by
    intro v hv
    rcases List.mem_cons.mp hv with rfl | hv
    · exact g.first.toNat_lt
    · exact List.mem_singleton.mp hv ▸ g.second.toNat_lt
  have hread : Reads (readColumn 2 2) g.write [g.first.toNat, g.second.toNat] :=
    reads_column (by decide) hstate
  intro rest
  rw [Generator.read, hread.bind_apply]
  simp only [UInt32.ofNat_toNat]
  rfl

/-! ### Maps -/

/-- Records are put together again from their columns. -/
theorem Tile.ofColumns_map (ts : List Tile) :
    Tile.ofColumns (ts.map (·.typeHeight.toNat)) (ts.map (·.m1.toNat)) (ts.map (·.m2.toNat))
      (ts.map (·.m3.toNat)) (ts.map (·.m4.toNat)) (ts.map (·.m5.toNat)) = ts := by
  induction ts with
  | nil => rfl
  | cons x ts ih =>
    simp only [ofColumns, List.map_map] at ih
    simp only [ofColumns, List.map_cons, List.zipWith_cons_cons, UInt8.ofNat_toNat,
      UInt16.ofNat_toNat, List.map_map, ih]

namespace TileMap

variable {m : TileMap}

/-- A column of the records is read back. -/
theorem reads_column_tiles {e : Nat} (he : e ≤ 3) {f : Tile → Nat}
    (hf : ∀ x, f x < 256 ^ 2 ^ e) :
    Reads (readColumn e m.size) (writeColumn e (m.tiles.toList.map f)) (m.tiles.toList.map f) := by
  have hvs : ∀ v ∈ m.tiles.toList.map f, v < 256 ^ 2 ^ e := by
    intro v hv
    obtain ⟨x, -, rfl⟩ := List.mem_map.mp hv
    exact hf x
  have hread := reads_column he hvs
  rwa [List.length_map, Array.length_toList] at hread

/-- A map with no more tiles than a length can tell is read back, consistent or not. -/
theorem reads_write (hsize : m.size < lengthLimit) : Reads TileMap.read m.write m := by
  have hlength : Reads readLength (writeLength m.size) m.size := by
    intro rest
    rw [readLength_writeLength (Nat.lt_trans hsize (by decide)), if_pos hsize]
  have hbytes {f : Tile → UInt8} := reads_column_tiles (m := m) (e := 0) (by decide)
    fun x => (f x).toNat_lt
  have hwords := reads_column_tiles (m := m) (e := 1) (by decide) fun x => x.m2.toNat_lt
  intro rest
  simp only [read, write, List.append_assoc]
  rw [(reads_word32 m.logX).bind_apply, (reads_word32 m.logY).bind_apply, hlength.bind_apply,
    hbytes.bind_apply, hbytes.bind_apply, hwords.bind_apply, hbytes.bind_apply, hbytes.bind_apply,
    hbytes.bind_apply, Tile.ofColumns_map]
  rfl

/-- A length that is refused makes the whole map unreadable. -/
theorem read_write_of_le (hlimit : lengthLimit ≤ m.size) (hsize : m.size < 2 ^ 64) :
    TileMap.read m.write = none := by
  have hlength (rest : Bytes) : readLength (writeLength m.size ++ rest) = none := by
    rw [readLength_writeLength hsize, if_neg (Nat.not_lt.mpr hlimit)]
  simp only [read, write, List.append_assoc]
  rw [(reads_word32 m.logX).bind_apply, (reads_word32 m.logY).bind_apply]
  simp only [Bind.bind, StateT.bind, hlength, Option.bind]

/-- Reading a map ends long before the bytes of one whose length does not fit into a word. -/
theorem takesAtMost_read : TakesAtMost TileMap.read (7 * lengthLimit + 67) := by
  have hword : TakesAtMost readWord32 11 := takesAtMost_readColumn.then_pure
  refine (hword.bind fun logX => hword.bind fun logY => takesAtMost_readLength.bind_of_yields
    fun bs n rest hn => (?_ : TakesAtMost _ (7 * lengthLimit + 25))).mono (by omega)
  have hlimit := lt_lengthLimit_of_readLength hn
  have hbytes : TakesAtMost (readColumn 0 n) (n + 4) := takesAtMost_readColumn.mono (by omega)
  have hwords : TakesAtMost (readColumn 1 n) (2 * n + 5) := takesAtMost_readColumn.mono (by omega)
  exact (hbytes.bind fun _ => hbytes.bind fun _ => hwords.bind fun _ => hbytes.bind fun _ =>
    hbytes.bind fun _ => hbytes.then_pure).mono (by omega)

/-- Eight tiles take a byte at least. -/
theorem size_le_length_write : m.size ≤ 8 * m.write.length := by
  have hbytes : ∀ v ∈ m.tiles.toList.map (·.m5.toNat), v < 256 := by
    intro v hv
    obtain ⟨x, -, rfl⟩ := List.mem_map.mp hv
    exact x.m5.toNat_lt
  have hcolumn := le_length_writeSmall hbytes
  rw [List.length_map, Array.length_toList] at hcolumn
  have hlast : (writeSmall (m.tiles.toList.map (·.m5.toNat))).length ≤ m.write.length := by
    rw [write, List.length_append]
    exact Nat.le_add_left _ _
  exact Nat.le_trans hcolumn (Nat.mul_le_mul_left 8 hlast)

/-- A map with more tiles than a length can tell is not read. -/
theorem readAll?_write_of_le (hlimit : lengthLimit ≤ m.size) :
    TileMap.read.readAll? m.write = none := by
  rw [Reader.readAll?]
  by_cases hsize : m.size < 2 ^ 64
  · rw [read_write_of_le hlimit hsize]
  · split
    · rename_i n hread
      have htaken := takesAtMost_read m.write n [] hread
      have hwritten := size_le_length_write (m := m)
      have hlimit : lengthLimit < 2 ^ 52 := by decide
      rw [List.length_nil] at htaken
      omega
    · rfl

theorem standard_consistent : standard.Consistent := by
  refine ⟨by decide, by decide, ?_⟩
  exact Array.size_replicate

/-- What is read is loaded if it is consistent. -/
theorem load_eq (bs : Bytes) : (Saveable.tileMap.load bs).1 =
    if (Saveable.readOr "tile_map" TileMap.read .standard bs).1.Consistent then
      (Saveable.readOr "tile_map" TileMap.read .standard bs).1
    else .standard := by
  unfold Saveable.tileMap
  dsimp only
  split <;> rfl

/-- Any bytes are loaded as a consistent map. -/
theorem consistent_load (bs : Bytes) : (Saveable.tileMap.load bs).1.Consistent := by
  rw [load_eq]
  split
  · assumption
  · exact standard_consistent

/-- A map is loaded from its bytes if it is consistent, and replaced by the standard map if not. -/
theorem load_write (m : TileMap) :
    (Saveable.tileMap.load m.write).1 = if m.Consistent then m else .standard := by
  rw [load_eq, Saveable.readOr]
  by_cases hsize : m.size < lengthLimit
  · rw [(reads_write hsize).readAll?]
  · -- the exponents of a consistent map are too small for so many tiles
    have hinconsistent : ¬ m.Consistent := by
      rintro ⟨⟨-, hx⟩, ⟨-, hy⟩, harea⟩
      have hx : m.logX.toNat ≤ 11 := UInt32.le_iff_toNat_le.mp hx
      have hy : m.logY.toNat ≤ 11 := UInt32.le_iff_toNat_le.mp hy
      have hpow : 2 ^ (m.logX.toNat + m.logY.toNat) ≤ 2 ^ 22 :=
        Nat.pow_le_pow_right (by decide) (by omega)
      have hlimit : 2 ^ 22 < lengthLimit := by decide
      omega
    rw [readAll?_write_of_le (Nat.le_of_not_lt hsize), if_neg hinconsistent]
    exact ite_self _

end TileMap

namespace Saveable

/-- A value with bytes comes back when these are loaded as the value. -/
theorem restores_of_load {α : Type} {S : Saveable α} {v : α} {bs : Bytes}
    (hsave : S.save v = some bs) (hload : (S.load bs).1 = v) : S.Restores v := by
  unfold Restores
  rw [hsave]
  exact hload

theorem restores_mapConfig (c : MapConfig) : mapConfig.Restores c :=
  restores_of_load rfl (congrArg Prod.fst (load_ofFormat c.reads_write))

theorem restores_stream (key : String) (g : Generator) : (stream key).Restores g :=
  restores_of_load rfl (congrArg Prod.fst (load_ofFormat g.reads_write))

theorem restores_tileMap {m : TileMap} (hm : m.Consistent) : tileMap.Restores m :=
  restores_of_load rfl (m.load_write.trans (if_pos hm))

/-- A speed limit comes back from its two bytes, and no limit from none. -/
theorem restores_speedLimit (s : SpeedLimit) : speedLimit.Restores s := by
  obtain ⟨v⟩ := s
  by_cases hv : v = 0
  · subst hv
    rfl
  · refine restores_of_load (if_neg hv) ?_
    have hbytes : ofBytes (toBytes 2 v.toNat) = v.toNat := ofBytes_toBytes v.toNat_lt
    simp only [speedLimit, length_toBytes, if_true, hbytes, UInt16.ofNat_toNat]

/-- What is saved is loaded: every options and every generator, so that a restored generator goes on
as the saved one would have, and every consistent map; an inconsistent one is replaced by the
standard map. So whatever bytes a resource was loaded from, its value comes back from a save. -/
theorem load_save :
    (∀ c : MapConfig, ∃ bs, mapConfig.save c = some bs ∧ mapConfig.load bs = (c, [])) ∧
    (∀ (key : String) (g : Generator), ∃ bs, (stream key).save g = some bs ∧
      (stream key).load bs = (g, []) ∧
      ∀ n, (((stream key).load bs).1.advance n).draw = (g.advance n).draw) ∧
    (∀ m : TileMap, ∃ bs, tileMap.save m = some bs ∧
      (tileMap.load bs).1 = if m.Consistent then m else .standard) ∧
    (∀ (r : Resource) (bs : Bytes), r.saveable.Restores (r.saveable.load bs).1) := by
  refine ⟨fun c => ⟨_, rfl, load_ofFormat c.reads_write⟩, fun key g => ⟨g.write, rfl, ?_⟩,
    fun m => ⟨_, rfl, m.load_write⟩, fun r bs => ?_⟩
  · have hload : (stream key).load g.write = (g, []) := load_ofFormat g.reads_write
    exact ⟨hload, fun n => by rw [hload]⟩
  · cases r with
    | tileMap => exact restores_tileMap (TileMap.consistent_load bs)
    | mapConfig => exact restores_mapConfig _
    | sim | interactive => exact restores_stream _ _
    | speedLimit => exact restores_speedLimit _

end Saveable

end RailGrid
