import RequestFile.Proofs.Script
import RequestFile.Proofs.Twin.Basic

/-!
Values and scripts side by side.

A value stays on its line, so what follows behind the end changes nothing of it. A script goes over
its line ends; where it is left open, it ends at the end as it does at a separator
(`Twin.inlineScript`).
-/

namespace RequestFile

namespace Cursor

open Lookahead

variable {F : Frame} {pre : List Tree} {stop : Nat} {c d : Cursor}

namespace Twin

/-! ### References -/

lemma identifierWithin (h : Twin F pre c d) (bound : Option Nat) (hi : Inside F c) :
    Twin F pre (c.identifierWithin bound) (d.identifierWithin (bound.map (· + F.read))) := by
  rw [Cursor.identifierWithin, Cursor.identifierWithin, h.same_line hi lineLocal_identifierLength?]
  cases hn : identifierLength? c.rest with
  | none => exact h.reportHere _ _ hi
  | some n =>
      have hfits : (bound.map (· + F.read)).all (d.read + n ≤ ·) = bound.all (c.read + n ≤ ·) := by
        rw [h.read]
        cases bound with
        | none => rfl
        | some b =>
            simp only [Option.map_some, Option.all_some, decide_eq_decide]
            omega
      have hread : d.read + n = c.read + n + F.read := by
        rw [h.read]
        omega
      have hle : c.read + n ≤ c.finish :=
        (Nat.add_le_add_left (identifierLength?_bounds hn).2 _).trans c.lineEnd_le_finish
      dsimp only
      rw [hfits, hread]
      split_ifs
      · exact h.leaf hle
      · exact h.reportHere _ _ hi

lemma identifier (h : Twin F pre c d) (hi : Inside F c) :
    Twin F pre c.identifier d.identifier :=
  h.identifierWithin none hi

lemma variableName (h : Twin F pre c d) (hi : Inside F c) :
    Twin F pre (c.variableName stop) (d.variableName (stop + F.read)) := by
  simp only [Cursor.variableName, h.read, Nat.add_lt_add_iff_right]
  split_ifs
  · exact h.identifierWithin (some stop) hi
  · exact h.reportHere _ _ hi

lemma blankBeforeCloser (h : Twin F pre c d) :
    Twin F pre (c.blankBeforeCloser stop) (d.blankBeforeCloser (stop + F.read)) := by
  have hbound : d.read + 1 < stop + F.read ↔ c.read + 1 < stop := by
    rw [h.read]
    omega
  simp only [Cursor.blankBeforeCloser, hbound]
  split_ifs
  · refine h.on (by decide) (fun hs h => ?_) fun _ h => h
    obtain ⟨t, us, hr, _⟩ := exists_of_sees ((look_sees c _).trans hs)
    rw [h.startsWith_drop_eq (by decide) (by rw [hr, List.length_cons]; omega)]
    split_ifs
    · exact h.bump ((look_sees c _).trans hs)
    · exact h
  · exact h

lemma variableCloser {opener opener' : Span} (h : Twin F pre c d)
    (ho : opener' = opener.shift F.offset) :
    Twin F pre (c.variableCloser stop opener) (d.variableCloser (stop + F.read) opener') := by
  simp only [Cursor.variableCloser, h.read, Nat.add_lt_add_iff_right]
  split_ifs
  · exact h.on (by decide) (fun hs h => h.bump ((look_sees c _).trans hs))
      fun _ h => h.reportUnclosed _ _ _ ho
  · exact h.reportUnclosed _ _ _ ho

/-- A cursor that has taken a token in front of a bound on its line. -/
lemma within_bump {k : Kind} (hc : c.Live) (hs : c.sees k) (hlt : c.read < stop)
    (hl : stop ≤ c.lineEnd) (hi : Inside F c) :
    WithinLine stop c.bump ∧ Inside F c.bump := by
  obtain ⟨hrun, hread⟩ := run_bump (e := true) hc hs
  have hle : c.bump.read ≤ stop := by omega
  exact ⟨WithinLine.of_run ⟨hlt.le, hl⟩ hrun hle, hrun.inside (hle.trans hl) hi⟩

/-- **References** stay on their line. -/
lemma variableRef (h : Twin F pre c d) (hc : c.Live) (hs : c.sees .varOpen) (hlt : c.read < stop)
    (hl : stop ≤ c.lineEnd) (hi : Inside F c) :
    Twin F pre (c.variableRef stop) (d.variableRef (stop + F.read)) := by
  have h := h.demand .varOpen
  have hlook := run_look (e := true) hc
  have hi := hi.look
  rw [← look_lineEnd c] at hl
  rw [← look_read c] at hlt
  rw [← look_sees c .varOpen] at hs
  simp only [Cursor.variableRef]
  rw [demand_eq (by rwa [look_sees] at hs)] at h ⊢
  generalize c.look = c at *
  generalize d.demand .varOpen = d at *
  have hspan := h.span_eq hi
  refine h.node fun h => ?_
  obtain ⟨hw, hi⟩ := within_bump (F := F) hlook.live.opened hs hlt hl hi
  obtain ⟨hopen, _⟩ := run_bump (e := true) hlook.live.opened hs
  have h := h.bump hs
  generalize c.opened.bump = f at *
  generalize d.opened.bump = g at *
  have hblank : Inside F (if f.read < stop then f.eatBlank else f) ∧
      Twin F [] (if f.read < stop then f.eatBlank else f)
        (if g.read < stop + F.read then g.eatBlank else g) := by
    simp only [h.read, Nat.add_lt_add_iff_right]
    split_ifs
    · exact ⟨hi.eatBlank hopen.live, h.eatBlank⟩
    · exact ⟨hi, h⟩
  exact ((hblank.2.variableName hblank.1).blankBeforeCloser).variableCloser hspan

/-! ### Text with references -/

lemma interpolatedPiece (h : Twin F pre c d) (hc : c.Live) (hw : WithinLine stop c)
    (hlt : c.read < stop) (hi : Inside F c) :
    Twin F pre (interpolatedPiece stop c) (interpolatedPiece (stop + F.read) d) := by
  have hlook := run_look (e := true) hc
  have hf := hw.2.trans c.lineEnd_le_finish
  refine h.on (by decide) (fun hs h => ?_) fun _ h => ?_
  · exact h.variableRef hlook.live ((look_sees c _).trans hs) (by rwa [look_read])
      (by rw [look_lineEnd]; exact hw.2) hi.look
  · have hf' : stop ≤ c.look.finish := by rwa [hlook.finish_eq]
    have hread : c.look.read ≤ stop := (look_read c).le.trans hlt.le
    have hle := (before_bounds varOpenKinds hread).2
    rw [h.before_eq _ hf']
    exact h.textUntil (hle.trans hf')

/-- Turns of a loop up to a bound on the line, with fuel for all of them. -/
lemma iterateWithin {body body' : Cursor → Cursor} {e : Bool} {m : Nat} {L : TreeLanguage}
    (hrun : ∀ c, c.Live → WithinLine stop c → c.read < stop →
      Run e m L c (body c) ∧ c.read < (body c).read ∧ (body c).read ≤ stop)
    (hbody : ∀ c d, c.Live → WithinLine stop c → c.read < stop → Inside F c → Twin F pre c d →
      Twin F pre (body c) (body' d))
    {n n' : Nat} (hc : c.Live) (hw : WithinLine stop c) (hi : Inside F c) (h : Twin F pre c d)
    (hn : c.rest.length < n) (hn' : n ≤ n') :
    Twin F pre
      (Cursor.iterate (fun c => if c.read < stop && !c.stopped then .again (body c) else .done c)
        n c)
      (Cursor.iterate
        (fun d => if d.read < stop + F.read && !d.stopped then .again (body' d) else .done d)
        n' d) := by
  have hlt : ∀ {c : Cursor}, (decide (c.read < stop) && !c.stopped) = true → c.read < stop :=
    fun hmore => by
      simp only [Bool.and_eq_true, decide_eq_true_eq] at hmore
      exact hmore.1
  -- a turn up to the bound stays on the line, which is what the two sources share
  have hrun' : ∀ c : Cursor, c.Live → WithinLine stop c ∧ Inside F c →
      (decide (c.read < stop) && !c.stopped) = true →
      Run e m L c (body c) ∧ c.read < (body c).read ∧ WithinLine stop (body c) ∧
        Inside F (body c) := by
    intro c hc hi hmore
    obtain ⟨hr, hgt, hle⟩ := hrun c hc hi.1 (hlt hmore)
    exact ⟨hr, hgt, hi.1.of_run hr hle, hr.inside (hle.trans hi.1.2) hi.2⟩
  exact Twin.iterate (turning_while hrun')
    (fun c d hc hi h => turn_while
      (h.more_eq fun hlt => rest_ne_nil (hlt.trans_le (hi.1.2.trans c.lineEnd_le_finish)))
      (fun hmore => hbody c d hc hi.1 (hlt hmore) hi.2 h) h) hc ⟨hw, hi⟩ h hn hn'

/-- A loop up to a bound on the line. -/
lemma loopWithin {body body' : Cursor → Cursor} {e : Bool} {m : Nat} {L : TreeLanguage}
    (hrun : ∀ c, c.Live → WithinLine stop c → c.read < stop →
      Run e m L c (body c) ∧ c.read < (body c).read ∧ (body c).read ≤ stop)
    (hbody : ∀ c d, c.Live → WithinLine stop c → c.read < stop → Inside F c → Twin F pre c d →
      Twin F pre (body c) (body' d))
    (hc : c.Live) (hw : WithinLine stop c) (hi : Inside F c) (h : Twin F pre c d) :
    Twin F pre (c.loopWhile (fun c => c.read < stop && !c.stopped) body)
      (d.loopWhile (fun c => c.read < stop + F.read && !c.stopped) body') := by
  refine iterateWithin hrun hbody hc hw hi h (Nat.lt_succ_self _) ?_
  rw [h.rest, List.length_append]
  omega

/-- **Text with references** stays on its line. -/
lemma interpolated (h : Twin F pre c d) (hc : c.Live) (hw : WithinLine stop c)
    (hi : Inside F c) : Twin F pre (c.interpolated stop) (d.interpolated (stop + F.read)) :=
  loopWithin (fun _ hc hw hlt => run_interpolatedPiece (e := true) hc hw hlt)
    (fun _ _ hc hw hlt hi h => h.interpolatedPiece hc hw hlt hi) hc hw hi h

lemma interpolatedNode {K : Kind} (h : Twin F pre c d) (hc : c.Live) (hw : WithinLine stop c)
    (hi : Inside F c) :
    Twin F pre (c.interpolatedNode K stop) (d.interpolatedNode K (stop + F.read)) :=
  h.node fun h => h.interpolated hc.opened hw hi

lemma value (h : Twin F pre c d) (hc : c.Live) (hl : stop ≤ c.lineEnd) (hi : Inside F c) :
    Twin F pre (c.value stop) (d.value (stop + F.read)) := by
  simp only [Cursor.value, h.read, Nat.add_le_add_iff_right]
  split_ifs with hle
  · exact h
  · exact h.interpolatedNode hc ⟨(Nat.lt_of_not_le hle).le, hl⟩ hi

/-- A value up to the last token of the line that is not a blank, and the blank after it. -/
lemma trimmedValue (h : Twin F pre c d) (hc : c.Live) (hi : Inside F c) :
    Twin F pre (c.value (c.trimmedEnd c.lineEnd)).eatBlank
      (d.value (d.trimmedEnd d.lineEnd)).eatBlank := by
  rw [h.trimmedLineEnd_eq hi]
  exact (h.value hc (trimmedEnd_bounds c.read_le_lineEnd).2 hi).eatBlank

lemma path (h : Twin F pre c d) (hc : c.Live) (hi : Inside F c) :
    Twin F pre c.path d.path := by
  have hle := pathLength_le c.rest
  rw [Cursor.path, Cursor.path, h.same_line hi lineLocal_pathLength]
  split
  · exact h.reportHere _ _ hi
  · next n =>
      have hread : d.read + pathLength c.rest = c.read + pathLength c.rest + F.read := by
        rw [h.read]
        omega
      rw [hread]
      exact h.interpolatedNode hc ⟨Nat.le_add_right _ _, Nat.add_le_add_left hle _⟩ hi

/-! ### Scripts -/

lemma scriptPiece {opener opener' : Span} (h : Twin F pre c d)
    (ho : opener' = opener.shift F.offset) :
    Turn.Twin F pre (scriptPiece opener c) (scriptPiece opener' d) := by
  have hclose := h.look.sees_eq (show Kind.scriptClose ≠ .separatorMarker by decide)
  have hnl := h.look.look.sees_eq (show Kind.newline ≠ .separatorMarker by decide)
  simp only [Cursor.scriptPiece]
  rw [h.stopped_or_lineStart_atSeparator, hclose, hnl]
  by_cases hend : (c.stopped || (c.lineStart && c.atSeparator)) = true
  · rw [if_pos hend, if_pos hend]
    exact h.reportUnclosed _ _ _ ho
  rw [if_neg hend, if_neg hend]
  have hne : c.rest ≠ [] := by
    simp only [h.stopped_eq.1, atEnd, Bool.or_eq_true, not_or, List.isEmpty_iff] at hend
    exact hend.1
  have h' := h.look.look
  split_ifs with hs hs'
  · exact h.look.bump hs
  · exact h'.bump hs'
  · have hf := lineEnd_le_finish c.look.look
    have hle := (before_bounds scriptCloseKinds c.look.look.read_le_lineEnd).2
    rw [h'.lineEnd_eq (h'.inside (by simpa using hne)), h'.before_eq _ hf]
    exact h'.textUntil (hle.trans hf)

/-- **Inline scripts** end at the end as they do at a separator. -/
lemma inlineScript (h : Twin F pre c d) (hc : c.Live) (hs : c.sees .scriptOpen) :
    Twin F pre c.inlineScript d.inlineScript := by
  have h := h.demand .scriptOpen
  have hlook := run_look (e := true) hc
  simp only [Cursor.inlineScript]
  rw [demand_eq hs] at h ⊢
  rw [← look_sees c .scriptOpen] at hs
  have hspan := h.span_eq (h.inside_of_sees hs)
  obtain ⟨hopen, _⟩ := run_bump (e := true) hlook.live.opened hs
  exact h.node fun h => loop (fun _ hc _ => run_scriptPiece (e := true) _ hc)
    (fun _ _ _ _ h => h.scriptPiece hspan) hopen.live trivial (h.bump hs)

lemma scriptOrPath (h : Twin F pre c d) (hc : c.Live) (hi : Inside F c) :
    Twin F pre c.scriptOrPath d.scriptOrPath := by
  have hlook := run_look (e := true) hc
  exact h.on (by decide)
    (fun hs h => h.inlineScript hlook.live ((look_sees c _).trans hs))
    fun _ h => h.path hlook.live hi.look

/-- At the end one of them may ask once more. -/
lemma newlineTurn (h : Twin F pre c d) :
    Turn.Twin F pre (newlineTurn c) (newlineTurn d) := by
  have hsees := h.sees_eq (show Kind.newline ≠ .separatorMarker by decide)
  by_cases hs : c.sees .newline
  · obtain ⟨t, us, hr, hk⟩ := exists_of_sees hs
    have hturn : ∀ {f : Cursor} {ts : List Token}, f.rest = t :: ts →
        Cursor.newlineTurn f = .again f.look.bump := fun hf => by
      simp [Cursor.newlineTurn, atEnd, sees, hf, hk]
    rw [hturn hr, hturn (by rw [h.rest, hr, List.cons_append])]
    exact h.look.bump ((look_sees c _).trans hs)
  · have hturn : ∀ {f : Cursor}, ¬f.sees .newline →
        ∃ f', Cursor.newlineTurn f = .done f' ∧ Alike f f' := by
      intro f hf
      rw [Cursor.newlineTurn, look_sees, if_neg hf]
      split_ifs
      · exact ⟨f, rfl, alike_refl f⟩
      · exact ⟨f.look, rfl, alike_look f⟩
    obtain ⟨c', hc', hlike⟩ := hturn hs
    obtain ⟨d', hd', hlike'⟩ := hturn (f := d) (by rwa [hsees])
    rw [hc', hd']
    exact h.congr hlike hlike'

lemma eatNewlines (h : Twin F pre c d) (hc : c.Live) (hnl : c.BeforeNewlines) :
    Twin F pre c.eatNewlines d.eatNewlines :=
  loop (fun _ hc hi => run_newlineTurn (e := true) hc hi) (fun _ _ _ _ h => h.newlineTurn) hc hnl h

lemma finishScriptLine (h : Twin F pre c d) (hc : c.Live) :
    Twin F pre c.finishScriptLine d.finishScriptLine := by
  rw [Cursor.finishScriptLine, Cursor.finishScriptLine, h.lineStart]
  split_ifs with hl
  · exact h
  · have hi := h.inside_of_midline (by simpa using hl)
    obtain ⟨hblank, _⟩ := run_eatBlank (e := true) hc
    obtain ⟨hfin, hread⟩ := run_finishLine (e := true) hblank.live "unexpected text after the script"
    have hat := end_of_line (hread.trans (hfin.lineEnd_eq hread.le).symm)
    exact (h.eatBlank.finishLine _ (hi.eatBlank hc)).eatNewlines hfin.live (hat.imp_right Or.inr)

/-- **Lines with a script or a path**, whatever `body` makes of it. -/
lemma scriptLine {k marker : Kind} {m : Nat} {L : TreeLanguage} {body : Cursor → Cursor}
    (hrun : ∀ c : Cursor, c.Live → Run true m L c (body c))
    (hbody : ∀ c d : Cursor, c.Live → Inside F c → Twin F [] c d → Twin F [] (body c) (body d))
    (h : Twin F pre c d) (hc : c.Live) (hs : c.sees marker) (hm : marker ≠ .newline) :
    Twin F pre (c.scriptLine k body) (d.scriptLine k body) := by
  obtain ⟨hopen, _⟩ := run_bump (e := true) hc.opened hs
  obtain ⟨hblank, _⟩ := run_eatBlank (e := true) hopen.live
  have hi : Inside F c.opened := h.inside_of_sees hs
  have hi' := (hi.bump hc.opened hs hm).eatBlank hopen.live
  exact h.node fun h => (hbody _ _ hblank.live hi' (h.bump hs).eatBlank).finishScriptLine
    (hrun _ hblank.live).live

lemma preRequestScript (h : Twin F pre c d) (hc : c.Live) (hs : c.sees .angleOpen) :
    Twin F pre c.preRequestScript d.preRequestScript :=
  scriptLine (fun _ hc => run_scriptOrPath hc) (fun _ _ hc hi h => h.scriptOrPath hc hi) h hc hs
    (by decide)

lemma responseHandler (h : Twin F pre c d) (hc : c.Live) (hs : c.sees .angleClose) :
    Twin F pre c.responseHandler d.responseHandler :=
  scriptLine (fun _ hc => run_scriptOrPath hc) (fun _ _ hc hi h => h.scriptOrPath hc hi) h hc hs
    (by decide)

lemma responseRedirect (h : Twin F pre c d) (hc : c.Live) (hs : c.sees .redirectMarker) :
    Twin F pre c.responseRedirect d.responseRedirect :=
  scriptLine (fun _ hc => (run_path hc).1) (fun _ _ hc hi h => h.path hc hi) h hc hs (by decide)

end Twin

end Cursor

end RequestFile
