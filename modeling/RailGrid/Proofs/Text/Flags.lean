import RailGrid.Proofs.Text.Hex
import RailGrid.Proofs.Text.Pieces
import RailGrid.Rail.Track
import RailGrid.Vehicle

/-!
# Flag sets read back

`Spelling` is the grammar of flag sets: pieces with bars between them, each the name of a flag or a
number, with blanks around it. Reading accepts the spellings of a set and blank texts. The text of a
set is one of its spellings, since of a single bit a set holds all or nothing; so each set is read
from its own text, whatever bits it has.
-/

namespace RailGrid

/-- The flag is one bit. -/
def Flag.IsSingle (f : Flag) : Prop := ∃ i < 8, f.bits = ⟨BitVec.twoPow 8 i⟩

instance (f : Flag) : Decidable f.IsSingle := inferInstanceAs (Decidable (∃ i < 8, _))

/-- Of a single bit a set holds all or nothing. -/
theorem Flag.IsSingle.and_eq {f : Flag} (hf : f.IsSingle) (b : UInt8) :
    b &&& f.bits = f.bits ∨ b &&& f.bits = 0 := by
  obtain ⟨i, -, hi⟩ := hf
  rw [hi, ← UInt8.toBitVec_inj, ← UInt8.toBitVec_inj, UInt8.toBitVec_and, BitVec.and_twoPow]
  cases b.toBitVec.getLsbD i with
  | false => exact .inr rfl
  | true => exact .inl rfl

namespace FlagTable

open Text

/-- The names can be told apart from each other and from numbers, and each flag that is written is
one bit. -/
structure Lawful (t : FlagTable) : Prop where
  /-- The flags that are written are one bit each. -/
  single : ∀ f ∈ t.singles, f.IsSingle
  /-- No two names are the same. -/
  nodup : ((t.singles ++ t.unions).map (·.name)).Nodup
  /-- Each name is a word. -/
  word : ∀ f ∈ t.singles ++ t.unions, Word f.name.toList
  /-- No name starts like a number. -/
  number : ∀ f ∈ t.singles ++ t.unions, f.name.toList.take 2 ≠ ['0', 'x']

/-- A piece of text stands for the bits declared under its name, or for those of the number after
`0x`. -/
inductive Piece (t : FlagTable) (cs : List Char) : UInt8 → Prop
  /-- The name of a flag or of a union of flags. -/
  | name {f : Flag} (hf : f ∈ t.singles ++ t.unions) (hcs : trim cs = f.name.toList) :
    Piece t cs f.bits
  /-- A number. -/
  | number {ds : List Char} {n : Nat} (hcs : trim cs = '0' :: 'x' :: ds)
    (hn : hexNumber? 256 ds = some n) : Piece t cs (.ofNat n)

/-- A text that is not blank stands for all the bits for which its pieces stand. -/
inductive Spelling (t : FlagTable) : List Char → UInt8 → Prop
  /-- A single piece. -/
  | last {cs : List Char} {b : UInt8} (hcs : '|' ∉ cs) (hpiece : t.Piece cs b) : Spelling t cs b
  /-- A piece in front of a bar. -/
  | bar {cs rest : List Char} {b c : UInt8} (hcs : '|' ∉ cs) (hpiece : t.Piece cs b)
    (hrest : Spelling t rest c) : Spelling t (cs ++ '|' :: rest) (b ||| c)

variable {t : FlagTable} {b c : UInt8} {cs ds : List Char}

/-! ### Unions of bits -/

theorem and_or_left (a b c : UInt8) : a &&& (b ||| c) = (a &&& b) ||| (a &&& c) := by
  rw [← UInt8.toBitVec_inj]
  exact BitVec.and_or_distrib_left ..

/-- The bits that are in one of several sets. -/
def union (bs : List UInt8) : UInt8 := bs.foldl (· ||| ·) 0

theorem union_nil : union [] = 0 := rfl

theorem union_cons (a : UInt8) (bs : List UInt8) : union (a :: bs) = a ||| union bs := by
  have hfirst : bs.foldl (· ||| ·) (a ||| 0) = a ||| bs.foldl (· ||| ·) 0 := List.foldl_assoc
  rw [union, List.foldl_cons, UInt8.zero_or, union, ← hfirst, UInt8.or_zero]

theorem union_append_singleton (bs : List UInt8) (a : UInt8) :
    union (bs ++ [a]) = union bs ||| a := by
  rw [union, List.foldl_append, List.foldl_cons, List.foldl_nil, union]

theorem known_eq (t : FlagTable) : t.known = union (t.singles.map (·.bits)) := by
  rw [known, union, List.foldl_map]

/-- The flags in a set are its bits among those that have a name. -/
theorem union_filter {fs : List Flag} (hfs : ∀ f ∈ fs, f.IsSingle) (b : UInt8) :
    union ((fs.filter fun f => b &&& f.bits == f.bits).map (·.bits)) =
      b &&& union (fs.map (·.bits)) := by
  induction fs with
  | nil => exact UInt8.and_zero.symm
  | cons f fs ih =>
    have hrest := ih fun g hg => hfs g (List.mem_cons_of_mem f hg)
    rw [List.map_cons, union_cons, and_or_left, ← hrest]
    by_cases hin : b &&& f.bits = f.bits
    · rw [List.filter_cons_of_pos (by simp [hin]), List.map_cons, union_cons, hin]
    · have hnone : b &&& f.bits = 0 := ((hfs f List.mem_cons_self).and_eq b).resolve_left hin
      rw [List.filter_cons_of_neg (by simpa using hin), hnone, UInt8.zero_or]

/-- The bits with a name and the rest are all bits. -/
theorem and_or_rest (a b : UInt8) : (b &&& a) ||| (b &&& ~~~a) = b := by
  rw [← and_or_left, UInt8.or_not_self, UInt8.and_neg_one]

/-! ### Reading -/

/-- With distinct names a declaration is found under its own name. -/
theorem ofName?_eq_some_iff (hnodup : ((t.singles ++ t.unions).map (·.name)).Nodup) {s : String} :
    t.ofName? s = some b ↔ ∃ f ∈ t.singles ++ t.unions, f.name = s ∧ f.bits = b := by
  rw [ofName?, Option.map_eq_some_iff]
  constructor
  · rintro ⟨f, hf, hbits⟩
    have hname := List.find?_some hf
    exact ⟨f, List.mem_of_find?_eq_some hf, beq_iff_eq.mp hname, hbits⟩
  · rintro ⟨f, hf, rfl, hbits⟩
    refine ⟨f, ?_, hbits⟩
    generalize t.singles ++ t.unions = fs at hnodup hf
    induction fs with
    | nil => cases hf
    | cons g fs ih =>
      rw [List.map_cons, List.nodup_cons] at hnodup
      rcases List.mem_cons.mp hf with rfl | hf
      · exact List.find?_cons_of_pos (beq_self_eq_true _)
      · have hne : g.name ≠ f.name :=
          fun heq => hnodup.1 (heq ▸ List.mem_map_of_mem hf)
        rw [List.find?_cons_of_neg (by simpa using hne)]
        exact ih hnodup.2 hf

theorem readPart?_trim (t : FlagTable) (cs : List Char) :
    t.readPart? (trim cs) = t.readPart? cs := by
  rw [readPart?, trim_trim, readPart?]

/-- A piece is read as the bits for which it stands. -/
theorem readPart?_eq_some_iff (ht : t.Lawful) : t.readPart? cs = some b ↔ t.Piece cs b := by
  rw [readPart?]
  split
  case h_1 hnil =>
    constructor
    · intro hnone
      cases hnone
    · rintro (⟨hf, hcs⟩ | ⟨hcs, -⟩)
      · exact absurd (hcs.symm.trans hnil) (ht.word _ hf).ne_nil
      · rw [hnil] at hcs
        cases hcs
  case h_2 ds hds =>
    rw [Option.map_eq_some_iff]
    constructor
    · rintro ⟨n, hn, rfl⟩
      exact .number hds hn
    · rintro (⟨hf, hcs⟩ | ⟨hcs, hn⟩)
      · refine absurd ?_ (ht.number _ hf)
        rw [← hcs, hds]
        rfl
      · rw [hds] at hcs
        cases hcs
        exact ⟨_, hn, rfl⟩
  case h_3 hnil hnumber =>
    rw [ofName?_eq_some_iff ht.nodup]
    constructor
    · rintro ⟨f, hf, hname, rfl⟩
      exact .name hf (by rw [hname, String.toList_ofList])
    · rintro (⟨hf, hcs⟩ | ⟨hcs, -⟩)
      · exact ⟨_, hf, by rw [hcs, String.ofList_toList], rfl⟩
      · exact absurd hcs (hnumber _)

/-- A text whose pieces are read is a spelling of what they stand for. -/
theorem spelling_of_mapM (ht : t.Lawful) {bs : List UInt8}
    (hread : (cs.splitOn '|').mapM t.readPart? = some bs) : t.Spelling cs (union bs) := by
  induction cs using pieces_induction generalizing bs with
  | last cs hcs =>
    rw [List.splitOn_eq_singleton hcs, List.mapM_cons, List.mapM_nil] at hread
    obtain ⟨b, hb, hbs⟩ := Option.bind_eq_some_iff.mp hread
    cases hbs
    rw [union_cons, union_nil, UInt8.or_zero]
    exact .last hcs ((readPart?_eq_some_iff ht).mp hb)
  | bar cs rest hcs ih =>
    rw [List.splitOn_append_cons_self_of_not_mem hcs, List.mapM_cons] at hread
    obtain ⟨b, hb, hread⟩ := Option.bind_eq_some_iff.mp hread
    obtain ⟨cs', hrest, hbs⟩ := Option.bind_eq_some_iff.mp hread
    cases hbs
    rw [union_cons]
    exact .bar hcs ((readPart?_eq_some_iff ht).mp hb) (ih hrest)

/-- The pieces of a spelling are read as what they stand for. -/
theorem Spelling.mapM (ht : t.Lawful) (h : t.Spelling cs b) :
    ∃ bs, (cs.splitOn '|').mapM t.readPart? = some bs ∧ union bs = b := by
  induction h with
  | @last cs b hcs hpiece =>
    refine ⟨[b], ?_, by rw [union_cons, union_nil, UInt8.or_zero]⟩
    rw [List.splitOn_eq_singleton hcs, List.mapM_cons, (readPart?_eq_some_iff ht).mpr hpiece]
    rfl
  | @bar cs rest b c hcs hpiece hrest ih =>
    obtain ⟨bs, hread, rfl⟩ := ih
    refine ⟨b :: bs, ?_, union_cons b bs⟩
    rw [List.splitOn_append_cons_self_of_not_mem hcs, List.mapM_cons,
      (readPart?_eq_some_iff ht).mpr hpiece, hread]
    rfl

theorem mapM_readPart?_trim (t : FlagTable) (cs : List Char) :
    ((trim cs).splitOn '|').mapM t.readPart? = (cs.splitOn '|').mapM t.readPart? := by
  have htrim : ∀ ps : List (List Char), ps.mapM t.readPart? = (ps.map trim).mapM t.readPart? := by
    intro ps
    rw [List.mapM_map]
    exact congrArg (List.mapM · ps) (funext t.readPart?_trim).symm
  rw [htrim, map_trim_splitOn_trim, ← htrim]

/-- A text that stands for something is not blank. -/
theorem Spelling.trim_ne_nil (ht : t.Lawful) (h : t.Spelling cs b) : trim cs ≠ [] := by
  cases h with
  | last hcs hpiece =>
    cases hpiece with
    | name hf htrim => exact htrim ▸ (ht.word _ hf).ne_nil
    | number htrim hn => exact htrim ▸ List.cons_ne_nil _ _
  | bar hcs hpiece hrest => exact Text.trim_ne_nil (c := '|') (by simp) (by decide)

/-- Reading accepts blank texts, which stand for nothing, and the spellings of a set. -/
theorem read?_eq_some_iff (ht : t.Lawful) {s : String} :
    t.read? s = some b ↔ trim s.toList = [] ∧ b = 0 ∨ t.Spelling s.toList b := by
  by_cases hblank : trim s.toList = []
  · have hread : t.read? s = some 0 := by rw [read?, hblank]; rfl
    have hnot : ¬ t.Spelling s.toList b := fun h => h.trim_ne_nil ht hblank
    rw [hread, Option.some.injEq, eq_comm]
    simp [hblank, hnot]
  · have hread : t.read? s = ((s.toList.splitOn '|').mapM t.readPart?).map union := by
      rw [read?, if_neg (by simpa using hblank), mapM_readPart?_trim]
      rfl
    rw [hread, Option.map_eq_some_iff]
    constructor
    · rintro ⟨bs, hbs, rfl⟩
      exact .inr (spelling_of_mapM ht hbs)
    · rintro (⟨hnil, -⟩ | h)
      · exact absurd hnil hblank
      · exact h.mapM ht

/-! ### The text of a set -/

theorem Piece.congr (h : t.Piece ds b) (htrim : trim cs = trim ds) : t.Piece cs b := by
  cases h with
  | name hf hcs => exact .name hf (htrim.trans hcs)
  | number hcs hn => exact .number (htrim.trans hcs) hn

/-- A blank in front of a spelling belongs to its first piece. -/
theorem Spelling.space_cons (h : t.Spelling cs b) : t.Spelling (' ' :: cs) b := by
  cases h with
  | last hcs hpiece => exact .last (by simp [hcs]) (hpiece.congr (trim_space_cons _))
  | bar hcs hpiece hrest =>
    rw [← List.cons_append]
    exact .bar (by simp [hcs]) (hpiece.congr (trim_space_cons _)) hrest

/-- Pieces that are joined by bars, with a blank on either side, spell their union. -/
theorem spelling_intercalate {fs : List Flag} (hne : fs ≠ [])
    (hbar : ∀ f ∈ fs, '|' ∉ f.name.toList) (hpiece : ∀ f ∈ fs, t.Piece f.name.toList f.bits) :
    t.Spelling ([' ', '|', ' '].intercalate (fs.map (·.name.toList)))
      (union (fs.map (·.bits))) := by
  induction fs with
  | nil => exact absurd rfl hne
  | cons f fs ih =>
    have hfirst := hpiece f List.mem_cons_self
    have hfbar := hbar f List.mem_cons_self
    cases fs with
    | nil =>
      rw [List.map_singleton, List.map_singleton, List.intercalate_singleton, union_cons, union_nil,
        UInt8.or_zero]
      exact .last hfbar hfirst
    | cons g fs =>
      have hrest := ih (List.cons_ne_nil g fs) (fun k hk => hbar k (List.mem_cons_of_mem f hk))
        fun k hk => hpiece k (List.mem_cons_of_mem f hk)
      -- of the two blanks one ends the first piece and the other starts the rest
      have hcut : [' ', '|', ' '].intercalate ((f :: g :: fs).map (·.name.toList)) =
          (f.name.toList ++ [' ']) ++
            '|' :: ' ' :: [' ', '|', ' '].intercalate ((g :: fs).map (·.name.toList)) := by simp
      have hunion : union ((f :: g :: fs).map (·.bits)) =
          f.bits ||| union ((g :: fs).map (·.bits)) := union_cons _ _
      rw [hcut, hunion]
      exact .bar (by simp [hfbar]) (hfirst.congr (trim_append_space _)) hrest.space_cons

/-- The flags of a set as they are written: those that have a name, and one for the other bits. -/
def written (t : FlagTable) (b : UInt8) : List Flag :=
  let named := t.singles.filter fun f => b &&& f.bits == f.bits
  let rest := b &&& ~~~ t.known
  if rest == 0 then named else named ++ [⟨restText rest, rest⟩]

theorem parts_eq (t : FlagTable) (b : UInt8) : t.parts b = (t.written b).map (·.name) := by
  rw [parts, written]
  split
  · rfl
  · rw [List.map_append, List.map_singleton]

/-- What is written is the whole set. -/
theorem union_written (ht : t.Lawful) (b : UInt8) : union ((t.written b).map (·.bits)) = b := by
  have hnamed := union_filter ht.single b
  rw [← known_eq] at hnamed
  rw [written]
  split
  case isTrue hrest =>
    have hall := and_or_rest t.known b
    rwa [beq_iff_eq.mp hrest, UInt8.or_zero, ← hnamed] at hall
  case isFalse hrest =>
    rw [List.map_append, List.map_singleton, union_append_singleton, hnamed, and_or_rest]

theorem toList_restText (b : UInt8) : ∃ n, b.toNat < 16 ^ (n + 1) ∧
    (restText b).toList = '0' :: 'x' :: hexDigits (n + 1) b.toNat := by
  by_cases hb : b < 16
  · exact ⟨0, hb, by rw [restText, if_pos hb, String.toList_ofList]⟩
  · exact ⟨1, b.toNat_lt, by rw [restText, if_neg hb, String.toList_ofList]⟩

theorem word_restText (b : UInt8) : Word (restText b).toList := by
  obtain ⟨n, -, htext⟩ := toList_restText b
  have hdigit : ∀ d < 16, isBlank (hexDigit d) = false ∧ hexDigit d ≠ '|' := by decide
  have hchar : ∀ c ∈ (restText b).toList, isBlank c = false ∧ c ≠ '|' := by
    intro c hc
    rw [htext, List.mem_cons, List.mem_cons] at hc
    rcases hc with rfl | rfl | hc
    · decide
    · decide
    · obtain ⟨d, hd, rfl⟩ := mem_hexDigits hc
      exact hdigit d hd
  exact ⟨by rw [htext]; exact List.cons_ne_nil _ _, fun c hc => (hchar c hc).1,
    fun hmem => (hchar _ hmem).2 rfl⟩

theorem piece_restText (t : FlagTable) (b : UInt8) : t.Piece (restText b).toList b := by
  obtain ⟨n, hn, htext⟩ := toList_restText b
  have htrim := (trim_eq_self (word_restText b).isBlank).trans htext
  have hpiece : t.Piece (restText b).toList (.ofNat b.toNat) :=
    .number htrim (hexNumber?_hexDigits hn b.toNat_lt)
  rwa [UInt8.ofNat_toNat] at hpiece

/-- Each flag that is written is a word that stands for its bits. -/
theorem word_and_piece_of_mem_written (ht : t.Lawful) {f : Flag} (hf : f ∈ t.written b) :
    Word f.name.toList ∧ t.Piece f.name.toList f.bits := by
  have hnamed : ∀ g ∈ t.singles.filter (fun g => b &&& g.bits == g.bits),
      Word g.name.toList ∧ t.Piece g.name.toList g.bits := by
    intro g hg
    have hdeclared := List.mem_append_left t.unions (List.mem_filter.mp hg).1
    have hword := ht.word g hdeclared
    exact ⟨hword, .name hdeclared (trim_eq_self hword.isBlank)⟩
  rw [written] at hf
  split at hf
  · exact hnamed f hf
  · rcases List.mem_append.mp hf with hf | hf
    · exact hnamed f hf
    · rw [List.mem_singleton.mp hf]
      exact ⟨word_restText _, piece_restText t _⟩

/-- The text of a set is a spelling of it, or there is nothing to write. -/
theorem spelling_text (ht : t.Lawful) (b : UInt8) :
    t.text b = "" ∧ b = 0 ∨ t.Spelling (t.text b).toList b := by
  have hunion := union_written ht b
  rw [text, parts_eq]
  by_cases hnil : t.written b = []
  · rw [hnil] at hunion ⊢
    exact .inl ⟨rfl, hunion.symm⟩
  · have hspelling := spelling_intercalate hnil
      (fun f hf => (word_and_piece_of_mem_written ht hf).1.bar)
      fun f hf => (word_and_piece_of_mem_written ht hf).2
    rw [hunion] at hspelling
    rw [String.toList_intercalate, List.map_map]
    exact .inr hspelling

/-- Every set is read back from its text. -/
theorem read?_text (ht : t.Lawful) (b : UInt8) : t.read? (t.text b) = some b := by
  rw [read?_eq_some_iff ht]
  rcases spelling_text ht b with ⟨htext, hb⟩ | hspelling
  · exact .inl ⟨by rw [htext]; rfl, hb⟩
  · exact .inr hspelling

end FlagTable

theorem TrackSet.flags_lawful : TrackSet.flags.Lawful :=
  ⟨by decide, by decide, by decide, by decide⟩

theorem VehicleStatus.flags_lawful : VehicleStatus.flags.Lawful :=
  ⟨by decide, by decide, by decide, by decide⟩

end RailGrid
