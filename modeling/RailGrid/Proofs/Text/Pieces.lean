import RailGrid.Text.Blank

/-!
# Pieces between bars

A text is cut at its bars and blanks are removed from both ends of every piece. Blanks at the ends
of the whole text belong to its first and its last piece and therefore do not matter.
-/

namespace RailGrid.Text

variable {cs ws vs : List Char}

/-! ### Removing blanks -/

/-- Only blanks are removed. -/
theorem exists_blank_append_trim (cs : List Char) : ∃ ws vs, cs = ws ++ trim cs ++ vs ∧
    (∀ c ∈ ws, isBlank c = true) ∧ ∀ c ∈ vs, isBlank c = true := by
  let rest := cs.dropWhile isBlank
  refine ⟨cs.takeWhile isBlank, (rest.reverse.takeWhile isBlank).reverse, ?_, ?_, ?_⟩
  · have hrest : trim cs ++ (rest.reverse.takeWhile isBlank).reverse = rest := by
      rw [trim, ← List.reverse_append, List.takeWhile_append_dropWhile, List.reverse_reverse]
    rw [List.append_assoc, hrest, List.takeWhile_append_dropWhile]
  · exact List.all_eq_true.mp List.all_takeWhile
  · intro c hc
    exact List.all_eq_true.mp List.all_takeWhile c (List.mem_reverse.mp hc)

theorem dropWhile_isBlank_append (cs : List Char) (hws : ∀ c ∈ ws, isBlank c = true) :
    (ws ++ cs).dropWhile isBlank = cs.dropWhile isBlank :=
  List.dropWhile_append_of_pos hws

/-- A text of blanks alone vanishes. -/
theorem dropWhile_isBlank_eq_nil (hws : ∀ c ∈ ws, isBlank c = true) :
    ws.dropWhile isBlank = [] := by
  simpa using dropWhile_isBlank_append [] hws

/-- Blanks at the ends make no difference. -/
theorem trim_blank_append (cs : List Char) (hws : ∀ c ∈ ws, isBlank c = true)
    (hvs : ∀ c ∈ vs, isBlank c = true) : trim (ws ++ cs ++ vs) = trim cs := by
  rw [trim, List.append_assoc, dropWhile_isBlank_append _ hws, List.dropWhile_append, trim]
  by_cases hempty : cs.dropWhile isBlank = []
  · rw [hempty, List.isEmpty_nil, if_pos rfl, dropWhile_isBlank_eq_nil hvs]
  · rw [if_neg (by simpa using hempty), List.reverse_append, dropWhile_isBlank_append]
    exact fun c hc => hvs c (List.mem_reverse.mp hc)

@[simp] theorem trim_trim (cs : List Char) : trim (trim cs) = trim cs := by
  obtain ⟨ws, vs, hcs, hws, hvs⟩ := exists_blank_append_trim cs
  have htrim := trim_blank_append (trim cs) hws hvs
  rw [← hcs] at htrim
  exact htrim.symm

/-- A text without blanks is left as it is. -/
theorem trim_eq_self (hcs : ∀ c ∈ cs, isBlank c = false) : trim cs = cs := by
  have hkeep : ∀ us : List Char, (∀ c ∈ us, isBlank c = false) → us.dropWhile isBlank = us := by
    intro us hus
    cases us with
    | nil => rfl
    | cons c us => exact List.dropWhile_cons_of_neg (by simp [hus c List.mem_cons_self])
  rw [trim, hkeep cs hcs, hkeep _ fun c hc => hcs c (List.mem_reverse.mp hc), List.reverse_reverse]

theorem trim_space_cons (cs : List Char) : trim (' ' :: cs) = trim cs := by
  have htrim : trim ([' '] ++ cs ++ []) = trim cs :=
    trim_blank_append cs (List.forall_mem_singleton.mpr (by decide)) (by simp)
  rwa [List.append_nil] at htrim

theorem trim_append_space (cs : List Char) : trim (cs ++ [' ']) = trim cs := by
  have htrim : trim ([] ++ cs ++ [' ']) = trim cs :=
    trim_blank_append cs (by simp) (List.forall_mem_singleton.mpr (by decide))
  rwa [List.nil_append] at htrim

/-- What has a character that is not blank does not vanish. -/
theorem trim_ne_nil {c : Char} (hc : c ∈ cs) (hblank : isBlank c = false) : trim cs ≠ [] := by
  obtain ⟨ws, vs, heq, hws, hvs⟩ := exists_blank_append_trim cs
  intro hnil
  rw [hnil, List.append_nil] at heq
  rw [heq, List.mem_append] at hc
  have htrue : isBlank c = true := hc.elim (hws c) (hvs c)
  rw [hblank] at htrue
  cases htrue

/-! ### Cutting at bars -/

/-- A text is a single piece, or a piece in front of a bar with a text behind it. -/
theorem pieces_induction {motive : List Char → Prop} (last : ∀ cs, '|' ∉ cs → motive cs)
    (bar : ∀ cs rest, '|' ∉ cs → motive rest → motive (cs ++ '|' :: rest)) (cs : List Char) :
    motive cs := by
  by_cases hmem : '|' ∈ cs
  · obtain ⟨as, rest, hcs, has⟩ := List.eq_append_cons_of_mem hmem
    have hlt : rest.length < cs.length := by rw [hcs, List.length_append, List.length_cons]; omega
    rw [hcs]
    exact bar as rest has (pieces_induction last bar rest)
  · exact last cs hmem
termination_by cs.length
decreasing_by exact hlt

theorem not_mem_of_isBlank (hws : ∀ c ∈ ws, isBlank c = true) : '|' ∉ ws :=
  fun hmem => absurd (hws _ hmem) (by decide)

/-- Blanks at the ends of a text belong to its first and its last piece. -/
theorem map_trim_splitOn_append (cs ws : List Char) (hws : ∀ c ∈ ws, isBlank c = true)
    (hvs : ∀ c ∈ vs, isBlank c = true) :
    ((ws ++ cs ++ vs).splitOn '|').map trim = (cs.splitOn '|').map trim := by
  induction cs using pieces_induction generalizing ws with
  | last cs hcs =>
    have hall : '|' ∉ ws ++ cs ++ vs := by
      simp [not_mem_of_isBlank hws, not_mem_of_isBlank hvs, hcs]
    rw [List.splitOn_eq_singleton hall, List.splitOn_eq_singleton hcs, List.map_singleton,
      List.map_singleton, trim_blank_append cs hws hvs]
  | bar cs rest hcs ih =>
    have hfirst : '|' ∉ ws ++ cs := by simp [not_mem_of_isBlank hws, hcs]
    have hcut : ws ++ (cs ++ '|' :: rest) ++ vs = ws ++ cs ++ '|' :: ([] ++ rest ++ vs) := by simp
    have htrim : trim (ws ++ cs ++ []) = trim cs := trim_blank_append cs hws (by simp)
    rw [List.append_nil] at htrim
    rw [hcut, List.splitOn_append_cons_self_of_not_mem hfirst,
      List.splitOn_append_cons_self_of_not_mem hcs, List.map_cons, List.map_cons, htrim,
      ih [] (by simp)]

/-- Blanks at the ends of a text do not show in its pieces. -/
theorem map_trim_splitOn_trim (cs : List Char) :
    ((trim cs).splitOn '|').map trim = (cs.splitOn '|').map trim := by
  obtain ⟨ws, vs, hcs, hws, hvs⟩ := exists_blank_append_trim cs
  have hcut := map_trim_splitOn_append (trim cs) ws hws hvs
  rw [← hcs] at hcut
  exact hcut.symm

/-- A text that can stand between bars: there is something in it, but neither blanks nor bars. -/
structure Word (cs : List Char) : Prop where
  /-- It is not empty. -/
  ne_nil : cs ≠ []
  /-- There are no blanks in it. -/
  isBlank : ∀ c ∈ cs, isBlank c = false
  /-- There are no bars in it. -/
  bar : '|' ∉ cs

instance (cs : List Char) : Decidable (Word cs) :=
  decidable_of_iff (cs ≠ [] ∧ cs.all (!Text.isBlank ·) = true ∧ '|' ∉ cs)
    ⟨fun ⟨hne, hblank, hbar⟩ => ⟨hne, by simpa using hblank, hbar⟩,
      fun h => ⟨h.ne_nil, by simpa using h.isBlank, h.bar⟩⟩

end RailGrid.Text
