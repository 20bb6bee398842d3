import RailGrid.Proofs.Rail.Refinement
import RailGrid.Proofs.TileMap.Course

/-!
# Railway tiles of a map as sites

On a map the edits of one tile do to its record what they do to its site, whatever is done to other
tiles in between. Starting from the decoded content, one edit and any course of edits can therefore
be foretold without the records.
-/

namespace RailGrid.TileMap

variable {m : TileMap} {t : TileIndex} {s : Site} {r : RailTile} {e : Edit}

/-- An edit of a tile is taken or refused as on its site, and leaves the site that is left. -/
theorem storedIn_edit (ht : m.Valid t) (hs : s.StoredIn (m.get t ht)) (he : e.KeepsToContent) :
    (m.edit t e).1.isOk = (s.step e).1 ∧
      (s.step e).2.StoredIn ((m.edit t e).2.get t (valid_edit_iff.mpr ht)) := by
  cases hargument : e.argumentFault? with
  | none =>
    have hagrees := Site.agrees_step hs he hargument
    rw [edit_outcome hargument ht, get_edit_self hargument ht]
    refine ⟨?_, hagrees.stored⟩
    rw [← hagrees.taken]
    cases (e.change.on (m.get t ht)).1 <;> rfl
  | some f =>
    -- the height is the only argument that the map itself refuses
    have hstep : s.step e = (false, s) := by
      cases e with
      | setHeight h =>
        have hlarge : ¬ h < 16 := by
          intro hlt
          rw [Edit.argumentFault?, if_pos hlt] at hargument
          cases hargument
        rw [Site.step, Site.edit?, if_neg hlarge, Site.afterRefusal_of_content_eq_none rfl]
        rfl
      | _ => cases hargument
    simp only [edit_of_argumentFault hargument, hstep]
    exact ⟨rfl, hs⟩

/-- Edits of other tiles do not matter to a course of edits of one tile. -/
theorem storedIn_course (ht : m.Valid t) (hs : s.StoredIn (m.get t ht))
    {steps : List (TileIndex × Edit)} (hsteps : ∀ e ∈ editsOn t steps, e.KeepsToContent) :
    (m.outcomesOn t steps).map Except.isOk = (s.run (editsOn t steps)).1 ∧
      ∃ hn : (m.course steps).2.Valid t,
        (s.run (editsOn t steps)).2.StoredIn ((m.course steps).2.get t hn) := by
  -- map and site move together; a step elsewhere moves the map alone
  induction steps generalizing m s with
  | nil => exact ⟨rfl, ht, hs⟩
  | cons p steps ih =>
    obtain ⟨u, e⟩ := p
    have hn : (m.edit u e).2.Valid t := valid_edit_iff.mpr ht
    by_cases hu : u = t
    · subst hu
      rw [editsOn_cons_self] at hsteps ⊢
      obtain ⟨htaken, hstored⟩ := storedIn_edit ht hs (hsteps e (by simp))
      obtain ⟨houtcomes, hfinal⟩ := ih hn hstored fun e he => hsteps e (by simp [he])
      refine ⟨?_, hfinal⟩
      rw [outcomesOn_cons_self, List.map_cons, htaken, houtcomes, Site.run]
    · rw [editsOn_cons_of_ne hu] at hsteps ⊢
      have hkept : s.StoredIn ((m.edit u e).2.get t hn) := by
        rw [get_edit_of_ne (Ne.symm hu) ht]
        exact hs
      rw [outcomesOn_cons_of_ne hu]
      exact ih hn hkept hsteps

/-- A railway tile is its content: an edit is refused exactly where it is not defined on the
content, and then the content is kept; otherwise the tile has the content that the edit yields. So
it goes on for every course of edits, in which clearing and building again may take turns. -/
theorem rail_course_eq_run (hr : m.ask t Tile.rail = .ok (some r)) :
    (∀ e : Edit, e.KeepsToContent →
      match (Site.built r).edit? e with
      | some n => (m.edit t e).1 = .ok () ∧ (m.edit t e).2.ask t Tile.rail = .ok n.content?
      | none => (∃ f, (m.edit t e).1 = .error f) ∧
          (m.edit t e).2.ask t Tile.rail = .ok (some r)) ∧
    (∀ steps : List (TileIndex × Edit), (∀ e ∈ editsOn t steps, e.KeepsToContent) →
      (m.outcomesOn t steps).map Except.isOk = ((Site.built r).run (editsOn t steps)).1 ∧
        (m.course steps).2.ask t Tile.rail =
          .ok ((Site.built r).run (editsOn t steps)).2.content?) := by
  obtain ⟨ht, hrail⟩ := ask_eq_ok_iff.mp hr
  have hs : (Site.built r).StoredIn (m.get t ht) := Tile.rail_eq_some_iff.mp hrail
  refine ⟨fun e he => ?_, fun steps hsteps => ?_⟩
  · obtain ⟨htaken, hstored⟩ := storedIn_edit ht hs he
    have hask := ask_eq_ok_iff.mpr ⟨valid_edit_iff.mpr ht, hstored.rail_eq⟩
    rw [Site.step] at htaken hask
    cases hedit : (Site.built r).edit? e with
    | some n =>
      rw [hedit] at htaken hask
      cases hout : (m.edit t e).1 with
      | ok u => exact ⟨rfl, hask⟩
      | error f =>
        rw [hout] at htaken
        cases htaken
    | none =>
      rw [hedit] at htaken hask
      cases hout : (m.edit t e).1 with
      | ok u =>
        rw [hout] at htaken
        cases htaken
      | error f => exact ⟨⟨f, rfl⟩, hask⟩
  · obtain ⟨houtcomes, hn, hstored⟩ := storedIn_course ht hs hsteps
    exact ⟨houtcomes, ask_eq_ok_iff.mpr ⟨hn, hstored.rail_eq⟩⟩

/-- A signal tile among stray bits loses its signals, is cleared, and comes back through a
constructor that is refused. -/
theorem rail_course_eq_run_signals :
    let m : TileMap := ⟨0, 0, #[⟨0x15, 0xE3, 0xBEEF, 0xA2, 0xF5, 0x63⟩]⟩
    let r : RailTile := .signals ⟨3⟩ .monorail ⟨0x23⟩ .entry .semaphore
    let edits : List Edit := [.setTracks ⟨0xC5⟩, .addSignals .block .electric, .removeSignals,
      .setOwner ⟨200⟩, .makeClear, .setRailType .maglev, .makeTrack ⟨99⟩ ⟨1⟩ .rail]
    let steps := edits.map fun e => ((⟨0⟩ : TileIndex), e)
    m.ask ⟨0⟩ Tile.rail = .ok (some r) ∧
      (m.edit ⟨0⟩ .removeSignals).2.ask ⟨0⟩ Tile.rail =
        .ok (some (.track ⟨3⟩ .monorail ⟨0x23⟩)) ∧
      (m.outcomesOn ⟨0⟩ steps).map Except.isOk = [true, false, true, false, true, true, false] ∧
      (m.course steps).2.ask ⟨0⟩ Tile.rail = .ok (some (.track .nobody .maglev ⟨0⟩)) := by
  intro m r edits steps
  have hstores : (m.get ⟨0⟩ (by decide)).Stores r :=
    ⟨by decide, by decide, by decide, by decide, by decide, by decide, by decide⟩
  have hr : m.ask ⟨0⟩ Tile.rail = .ok (some r) :=
    ask_eq_ok_iff.mpr ⟨by decide, Tile.rail_eq_some_iff.mpr hstores⟩
  have hsteps : ∀ e ∈ editsOn ⟨0⟩ steps, e.KeepsToContent := by
    simp [editsOn, steps, edits, Edit.KeepsToContent]
  have hrun := (rail_course_eq_run hr).2 steps hsteps
  exact ⟨hr, ((rail_course_eq_run hr).1 .removeSignals trivial).2, hrun⟩

end RailGrid.TileMap
