import RequestFile.Parse.Script
import RequestFile.Proofs.Value

/-!
Runs of scripts.

An inline script asks twice a piece and goes over its line ends (`run_inlineScript`). Whatever it
leaves of its last line, `run_finishScriptLine` takes, so every line with a script ends aligned
(`run_scriptLine`).
-/

namespace RequestFile

open scoped Computability

namespace Cursor

variable {e : Bool} {c : Cursor}

/-- Text of a script in front of its closer and the end of the line. -/
lemma scriptText_bounds (hne : c.rest ≠ []) (hclose : ¬c.sees .scriptClose)
    (hnl : ¬c.sees .newline) :
    c.read < c.before scriptCloseKinds c.lineEnd ∧
      c.before scriptCloseKinds c.lineEnd ≤ c.lineEnd := by
  obtain ⟨t, us, hr⟩ := List.exists_cons_of_ne_nil hne
  have hlt := read_lt_lineEnd hr (by simpa [sees, hr] using hnl)
  have hnot : ¬scriptCloseKinds.contains t.kind := by
    simpa [sees, hr, scriptCloseKinds, KindSet.contains] using hclose
  exact ⟨read_lt_before hr hlt hnot, (before_bounds _ hlt.le).2⟩

/-- A piece of a script is a line end or text, and the last one its closer, unless it is missing. -/
lemma run_scriptPiece (opener : Span) (hc : c.Live) :
    Turning e 2 (Form.leaf .newline + Form.text) (Form.leaf .scriptClose + Form.lapse e)
      (fun _ => True) (fun _ => True) c (scriptPiece opener c) := by
  simp only [scriptPiece]
  split_ifs with hend hclose hnl
  · exact ⟨((run_reportUnclosed hc rfl _ _ _).weaken (Nat.zero_le _) le_rfl).inr, trivial⟩
  · have hlook := run_look (e := e) hc
    obtain ⟨hrun, _⟩ := run_bump (e := e) hlook.live hclose
    exact ⟨((hrun.after hlook).weaken (by omega) le_rfl).inl, trivial⟩
  · have hlook := (run_look (e := e) (run_look (e := e) hc).live).after (run_look (e := e) hc)
    obtain ⟨hrun, hread⟩ := run_bump (e := e) hlook.live hnl
    exact ⟨(hrun.after hlook).inl, by rw [hread]; simp, trivial⟩
  · have hlook := (run_look (e := e) (run_look (e := e) hc).live).after (run_look (e := e) hc)
    simp only [hc.stopped_eq, atEnd, Bool.or_eq_true, not_or, List.isEmpty_iff] at hend
    obtain ⟨hgt, hle⟩ := scriptText_bounds (c := c.look.look) (by simpa using hend.1)
      (by simpa using hclose) hnl
    obtain ⟨hrun, hread⟩ := run_textUntil (e := e) hlook.live hgt hle
    exact ⟨(hrun.after hlook).inr, by rw [hread]; simpa using hgt, trivial⟩

/-- **Inline scripts** take at least their opener. -/
lemma run_inlineScript (hc : c.Live) (hs : c.sees .scriptOpen) :
    Run e 5 (Form.script e) c c.inlineScript := by
  have hlook := run_look (e := e) hc
  have hs' := (look_sees c _).trans hs
  simp only [inlineScript, demand_eq hs, node]
  obtain ⟨hopen, _⟩ := run_bump (e := e) hlook.live.opened hs'
  obtain ⟨hloop, _⟩ := Run.loop (by decide)
    (fun d hd _ => run_scriptPiece (e := e) c.look.span hd) hopen.live trivial
  have hbody : Run e 4 (Form.leaf .scriptOpen * (Form.leaf .newline + Form.text)∗
      * (Form.leaf .scriptClose + Form.lapse e)) _ _ :=
    (hopen.trans hloop).weaken le_rfl (mul_assoc ..).ge
  exact hbody.node.after hlook

lemma run_scriptOrPath (hc : c.Live) :
    Run e 11 (Form.scriptOrPath e) c c.scriptOrPath := by
  have hlook := run_look (e := e) hc
  rw [scriptOrPath]
  by_cases hs : c.sees .scriptOpen
  · rw [on_pos hs]
    have hrun := run_inlineScript (e := e) hlook.live ((look_sees c _).trans hs)
    exact ((hrun.after hlook).weaken (by omega) le_rfl).inl
  · rw [on_neg hs]
    exact ((run_path hlook.live).1.after hlook).inr

/-- A line with a script ends where a line begins. -/
lemma run_finishScriptLine (hc : c.Live) :
    Run e 4 (Form.scriptEnd e) c c.finishScriptLine ∧ c.finishScriptLine.Aligned := by
  rw [finishScriptLine]
  split_ifs with hl
  · exact ⟨((Run.refl hc).weaken (Nat.zero_le _) le_rfl).absent, Or.inr hl⟩
  · obtain ⟨hblank, _⟩ := run_eatBlank (e := e) hc
    obtain ⟨hfin, hread⟩ := run_finishLine (e := e) hblank.live "unexpected text after the script"
    have hat := end_of_line (hread.trans (hfin.lineEnd_eq hread.le).symm)
    obtain ⟨hnl, ha⟩ := run_eatNewlines (e := e) hfin.live (hat.imp_right Or.inr)
    exact ⟨((hblank.trans hfin).trans hnl).present, ha⟩

/-- **Lines with a script or a path**, whatever `body` makes of it. -/
lemma run_scriptLine {m : Nat} {L : TreeLanguage} {k marker : Kind} {body : Cursor → Cursor}
    (hbody : ∀ d : Cursor, d.Live → Run e m L d (body d)) (hc : c.Live) (hs : c.sees marker) :
    LineRun e (m + 5) (Form.scriptLine e k marker L) c (c.scriptLine k body) := by
  simp only [scriptLine, node]
  obtain ⟨hopen, hread⟩ := run_bump (e := e) hc.opened hs
  obtain ⟨hblank, _⟩ := run_eatBlank (e := e) hopen.live
  have hrun := hbody _ hblank.live
  obtain ⟨hfin, ha⟩ := run_finishScriptLine (e := e) hrun.live
  have hle := ((hblank.trans hrun).trans hfin).read_le
  refine LineRun.node ⟨(((hopen.trans hblank).trans hrun).trans hfin).weaken (by omega) le_rfl,
    ?_, ha⟩
  omega

lemma run_preRequestScript (hc : c.Live) (hs : c.sees .angleOpen) :
    LineRun e 16 (Form.preRequestScript e) c c.preRequestScript :=
  run_scriptLine (fun _ hd => run_scriptOrPath hd) hc hs

lemma run_responseHandler (hc : c.Live) (hs : c.sees .angleClose) :
    LineRun e 16 (Form.responseHandler e) c c.responseHandler :=
  run_scriptLine (fun _ hd => run_scriptOrPath hd) hc hs

lemma run_responseRedirect (hc : c.Live) (hs : c.sees .redirectMarker) :
    LineRun e 15 (Form.responseRedirect e) c c.responseRedirect :=
  run_scriptLine (fun _ hd => (run_path hd).1) hc hs

end Cursor

end RequestFile
