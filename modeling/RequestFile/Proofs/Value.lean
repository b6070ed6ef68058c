import RequestFile.Parse.Value
import RequestFile.Proofs.Step

/-!
Runs of values.

Everything here stays on its line and ends at its bound: `interpolated` and `value` exactly there,
whatever the tokens are (`run_interpolated`, `run_value`), a reference at the latest there, with at
least its opener taken (`run_variableRef`).
-/

namespace RequestFile

open scoped Computability

namespace Cursor

variable {e : Bool} {stop : Nat} {c : Cursor}

/-! ### Names -/

/-- A name of which the length is known, and fits. -/
lemma run_identifierWithin_some {n : Nat} {bound : Option Nat} (hc : c.Live)
    (hn : Lookahead.identifierLength? c.rest = some n) (hb : bound.all (c.read + n ≤ ·)) :
    Run e 0 Form.name c (c.identifierWithin bound) ∧
      (c.identifierWithin bound).read = c.read + n ∧ c.read + n ≤ c.lineEnd := by
  obtain ⟨hpos, hle⟩ := Lookahead.identifierLength?_bounds hn
  have heq : c.identifierWithin bound = c.leaf .identifier (c.read + n) := by
    rw [identifierWithin, hn]
    exact if_pos hb
  have hline : c.read + n ≤ c.lineEnd := Nat.add_le_add_left hle _
  obtain ⟨hrun, hread⟩ := run_leaf (e := e) (K := .identifier) hc (by omega) hline
  rw [heq]
  exact ⟨hrun, hread, hline⟩

lemma run_identifierWithin (hc : c.Live) (bound : Option Nat) :
    Run e 0 (Form.identifier e) c (c.identifierWithin bound) ∧
      (c.identifierWithin bound).read ≤ c.lineEnd ∧
      ((c.identifierWithin bound).read = c.read ∨
        bound.all ((c.identifierWithin bound).read ≤ ·)) := by
  have hmissing := run_reportHere (e := e) (p := .expectedIdentifier) hc rfl "expected a name"
  cases hn : Lookahead.identifierLength? c.rest with
  | none =>
      rw [identifierWithin, hn]
      exact ⟨hmissing.inr, by simpa using c.read_le_lineEnd, Or.inl (by simp)⟩
  | some n =>
      by_cases hb : bound.all (c.read + n ≤ ·)
      · obtain ⟨hrun, hread, hline⟩ := run_identifierWithin_some (e := e) hc hn hb
        exact ⟨hrun.inl, by rwa [hread], Or.inr (by rwa [hread])⟩
      · have heq : c.identifierWithin bound
            = c.reportHere .expectedIdentifier "expected a name" := by
          rw [identifierWithin, hn]
          exact if_neg hb
        rw [heq]
        exact ⟨hmissing.inr, by simpa using c.read_le_lineEnd, Or.inl (by simp)⟩

/-- A name where one is known to begin. -/
lemma run_name (hc : c.Live) (h : (Lookahead.identifierLength? c.rest).isSome) :
    Run e 0 Form.name c c.identifier ∧ c.identifier.read ≤ c.lineEnd := by
  obtain ⟨n, hn⟩ := Option.isSome_iff_exists.mp h
  have hb : (none : Option Nat).all (c.read + n ≤ ·) := rfl
  obtain ⟨hrun, hread, hline⟩ := run_identifierWithin_some (e := e) hc hn hb
  exact ⟨hrun, by rwa [identifier, hread]⟩

lemma run_identifier (hc : c.Live) :
    Run e 0 (Form.identifier e) c c.identifier ∧ c.identifier.read ≤ c.lineEnd := by
  obtain ⟨hrun, hread, _⟩ := run_identifierWithin (e := e) hc none
  exact ⟨hrun, hread⟩

/-! ### References -/

lemma run_variableName (hc : c.Live) (h : c.read ≤ stop) :
    Run e 0 (Form.identifier e) c (c.variableName stop) ∧ (c.variableName stop).read ≤ stop := by
  rw [variableName]
  split_ifs
  · obtain ⟨hrun, _, hread⟩ := run_identifierWithin (e := e) hc (some stop)
    refine ⟨hrun, ?_⟩
    rcases hread with hread | hread
    · rwa [hread]
    · simpa using hread
  · exact ⟨(run_reportHere hc rfl _).inr, by simpa using h⟩

lemma run_blankBeforeCloser (hc : c.Live) (h : c.read ≤ stop) :
    Run e 1 Form.blank c (c.blankBeforeCloser stop) ∧ (c.blankBeforeCloser stop).read ≤ stop := by
  have hlook := run_look (e := e) hc
  rw [blankBeforeCloser]
  split_ifs with hlt
  · by_cases hs : c.sees .whitespace
    · rw [on_pos hs]
      split_ifs
      · obtain ⟨hrun, hread⟩ := run_bump (e := e) hlook.live ((look_sees c _).trans hs)
        exact ⟨hrun.present.after hlook, by rw [hread, look_read]; omega⟩
      · exact ⟨hlook.absent, by simpa using h⟩
    · rw [on_neg hs]
      exact ⟨hlook.absent, by simpa using h⟩
  · exact ⟨((Run.refl hc).weaken (Nat.zero_le _) le_rfl).absent, h⟩

lemma run_variableCloser (hc : c.Live) (h : c.read ≤ stop) (opener : Span) :
    Run e 1 (Form.leaf .varClose + Form.lapse e) c (c.variableCloser stop opener) ∧
      (c.variableCloser stop opener).read ≤ stop := by
  have hlook := run_look (e := e) hc
  rw [variableCloser]
  split_ifs with hlt
  · by_cases hs : c.sees .varClose
    · rw [on_pos hs]
      obtain ⟨hrun, hread⟩ := run_bump (e := e) hlook.live ((look_sees c _).trans hs)
      exact ⟨(hrun.after hlook).inl, by rw [hread, look_read]; omega⟩
    · rw [on_neg hs]
      exact ⟨((run_reportUnclosed hlook.live rfl _ _ _).after hlook).inr, by
        rw [reportUnclosed, fileAt_read, look_read]; exact h⟩
  · exact ⟨((run_reportUnclosed hc rfl _ _ _).weaken (Nat.zero_le _) le_rfl).inr, by
      rw [reportUnclosed, fileAt_read]; exact h⟩

/-- **References** take their opener and do not go beyond their bound. -/
lemma run_variableRef (hc : c.Live) (hs : c.sees .varOpen) (h : c.read < stop) :
    Run e 4 (Form.reference e) c (c.variableRef stop) ∧ c.read < (c.variableRef stop).read ∧
      (c.variableRef stop).read ≤ stop := by
  have hlook := run_look (e := e) hc
  have hs' : c.look.sees .varOpen := (look_sees c _).trans hs
  have hread := look_read c
  simp only [variableRef, demand_eq hs, node]
  generalize c.look = c at *
  obtain ⟨hopen, hopen'⟩ := run_bump (e := e) hlook.live.opened hs'
  have hdread : c.opened.bump.read = c.read + 1 := hopen'
  generalize c.opened.bump = d at *
  obtain ⟨hblank, hblank'⟩ :
      Run e 1 Form.blank d (if d.read < stop then d.eatBlank else d) ∧
        (if d.read < stop then d.eatBlank else d).read ≤ stop := by
    split_ifs with hlt
    · obtain ⟨hrun, hr⟩ := run_eatBlank (e := e) hopen.live
      exact ⟨hrun, by rw [hr]; split_ifs <;> omega⟩
    · exact ⟨((Run.refl hopen.live).weaken (Nat.zero_le _) le_rfl).absent, by omega⟩
  obtain ⟨hname, hname'⟩ := run_variableName (e := e) hblank.live hblank'
  obtain ⟨hblank₂, hblank₂'⟩ := run_blankBeforeCloser (e := e) hname.live hname'
  obtain ⟨hclose, hclose'⟩ := run_variableCloser (e := e) hblank₂.live hblank₂' c.span
  have hbody := (((hopen.trans hblank).trans hname).trans hblank₂).trans hclose
  refine ⟨(hbody.node.after hlook).weaken (by omega) le_rfl, ?_, hclose'⟩
  have hle := (((hblank.trans hname).trans hblank₂).trans hclose).read_le
  change _ < (variableCloser stop c.span _).read
  omega

/-! ### Text with references -/

/-- Text in front of the first opener is not empty, unless the opener stands here. -/
lemma read_lt_before {set : KindSet} {t : Token} {us : List Token} (hr : c.rest = t :: us)
    (h : c.read < stop) (ht : ¬set.contains t.kind) : c.read < c.before set stop := by
  rw [before, segment_cons hr h, Lookahead.lengthBefore, List.takeWhile_cons]
  simp [ht]

/-- What text with references keeps: it does not leave the line, nor go beyond its bound. -/
def WithinLine (stop : Nat) (c : Cursor) : Prop :=
  c.read ≤ stop ∧ stop ≤ c.lineEnd

lemma WithinLine.of_run {k : Nat} {L : TreeLanguage} {c' : Cursor} (h : WithinLine stop c)
    (hr : Run e k L c c') (hle : c'.read ≤ stop) : WithinLine stop c' :=
  ⟨hle, by rw [hr.lineEnd_eq (hle.trans h.2)]; exact h.2⟩

/-- A loop that goes on as long as its bound is not reached ends there. -/
lemma read_eq_of_done (hc : c.Live) (h : WithinLine stop c)
    (hdone : (decide (c.read < stop) && !c.stopped) = false) : c.read = stop := by
  refine le_antisymm h.1 (le_of_not_gt fun hlt => ?_)
  obtain ⟨t, us, hr, _⟩ := exists_of_lt_lineEnd (hlt.trans_le h.2)
  simp [hlt, hc.stopped_eq, atEnd, hr] at hdone

/-- A piece of text with references: a reference, or the text in front of the next one. -/
def interpolatedPiece (stop : Nat) : Cursor → Cursor :=
  on .varOpen (variableRef stop) fun c => c.textUntil (c.before varOpenKinds stop)

lemma run_interpolatedPiece (hc : c.Live) (hw : WithinLine stop c) (h : c.read < stop) :
    Run e 5 (Form.text + Form.reference e) c (interpolatedPiece stop c) ∧
      c.read < (interpolatedPiece stop c).read ∧ (interpolatedPiece stop c).read ≤ stop := by
  rw [interpolatedPiece]
  have hlook := run_look (e := e) hc
  have hwl := hw.of_run hlook (by simpa using hw.1)
  have hs := look_sees c .varOpen
  rw [← look_read c] at h ⊢
  by_cases hv : c.sees .varOpen
  · rw [on_pos hv]
    rw [hv] at hs
    generalize c.look = d at *
    obtain ⟨hrun, hgt, hle⟩ := run_variableRef (e := e) hlook.live hs h
    exact ⟨(hrun.after hlook).inr, hgt, hle⟩
  · rw [on_neg hv]
    rw [← hs] at hv
    generalize c.look = d at *
    obtain ⟨t, us, hr, _⟩ := exists_of_lt_lineEnd (h.trans_le hwl.2)
    have hgt : d.read < d.before varOpenKinds stop := by
      refine read_lt_before hr h fun ht => hv ?_
      simpa [sees, hr, varOpenKinds, KindSet.contains] using ht
    have hle := (before_bounds varOpenKinds hwl.1).2
    obtain ⟨hrun, hread⟩ := run_textUntil (e := e) hlook.live hgt (hle.trans hwl.2)
    refine ⟨((hrun.after hlook).weaken (by omega) le_rfl).inl, ?_, ?_⟩
    · omega
    · omega

/-- The turns of `interpolated`. -/
lemma run_interpolated_turn (d : Cursor) (hd : d.Live) (hw : WithinLine stop d)
    (hmore : decide (d.read < stop) && !d.stopped) :
    Run e 5 (Form.text + Form.reference e) d (interpolatedPiece stop d) ∧
      d.read < (interpolatedPiece stop d).read ∧ WithinLine stop (interpolatedPiece stop d) := by
  have hlt : d.read < stop := by
    simp only [Bool.and_eq_true, decide_eq_true_eq] at hmore
    exact hmore.1
  obtain ⟨hrun, hgt, hle⟩ := run_interpolatedPiece (e := e) hd hw hlt
  exact ⟨hrun, hgt, hw.of_run hrun hle⟩

/-- **Text with references** ends exactly at its bound. -/
lemma run_interpolated (hc : c.Live) (hw : WithinLine stop c) :
    Run e 10 (Form.content e) c (c.interpolated stop) ∧ (c.interpolated stop).read = stop := by
  obtain ⟨hrun, hend, hdone⟩ := Run.loopWhile (by decide) run_interpolated_turn hc hw
  exact ⟨hrun, read_eq_of_done hrun.live hend hdone⟩

lemma run_interpolatedNode {K : Kind} (hc : c.Live) (hw : WithinLine stop c) :
    Run e 10 (Form.node K (Form.content e)) c (c.interpolatedNode K stop) ∧
      (c.interpolatedNode K stop).read = stop := by
  obtain ⟨hrun, hread⟩ := run_interpolated (e := e) hc.opened hw
  exact ⟨hrun.node, hread⟩

/-! ### Values and paths -/

/-- **Values** end exactly at their bound. -/
lemma run_value (hc : c.Live) (h : c.read < stop) (hl : stop ≤ c.lineEnd) :
    Run e 10 (Form.value e) c (c.value stop) ∧ (c.value stop).read = stop := by
  rw [value, if_neg (by omega)]
  exact run_interpolatedNode hc ⟨h.le, hl⟩

lemma run_optValue (hc : c.Live) (hl : stop ≤ c.lineEnd) :
    Run e 10 (Form.opt (Form.value e)) c (c.value stop) ∧
      (c.value stop).read = max c.read stop := by
  by_cases h : stop ≤ c.read
  · rw [value, if_pos h]
    exact ⟨((Run.refl hc).weaken (Nat.zero_le _) le_rfl).absent, (max_eq_left h).symm⟩
  · obtain ⟨hrun, hread⟩ := run_value (e := e) hc (Nat.lt_of_not_le h) hl
    exact ⟨hrun.present, by omega⟩

/-- A value up to the last token of the line that is not a blank, and the blank after it. -/
lemma run_trimmedValue (hc : c.Live) :
    Run e 11 (Form.opt (Form.value e) * Form.blank) c
        (c.value (c.trimmedEnd c.lineEnd)).eatBlank ∧
      (c.value (c.trimmedEnd c.lineEnd)).eatBlank.read = c.lineEnd := by
  have hb := trimmedEnd_bounds c.read_le_lineEnd
  obtain ⟨hrun, hread⟩ := run_optValue (e := e) hc hb.2
  obtain ⟨hblank, _⟩ := run_eatBlank (e := e) hrun.live
  exact ⟨hrun.trans hblank, hrun.read_eatBlank (by omega) (by omega) c.lineEnd_le_finish
    c.not_blank_at_lineEnd⟩

lemma run_path (hc : c.Live) :
    Run e 10 (Form.path e) c c.path ∧ c.path.read ≤ c.lineEnd := by
  rw [path]
  split
  · exact ⟨((run_reportHere hc rfl _).weaken (Nat.zero_le _) le_rfl).inr, by
      simpa using c.read_le_lineEnd⟩
  · have hle : c.read + Lookahead.pathLength c.rest ≤ c.lineEnd :=
      Nat.add_le_add_left (Lookahead.pathLength_le c.rest) _
    obtain ⟨hrun, hread⟩ := run_interpolatedNode (e := e) (K := .path) hc
      ⟨Nat.le_add_right _ _, hle⟩
    exact ⟨hrun.inl, hread.trans_le hle⟩

end Cursor

end RequestFile
