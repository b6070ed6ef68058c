import RequestFile.Proofs.LastLine.Body
import RequestFile.Proofs.Section

/-!
Sections and whole parses, without and with the line feed at the end.

* **Sections.** A section begins where something is left and ends where a line does
  (`Abreast.fullSection`), so the sections of both sources go along with each other
  (`Beside.sections`).
* **Whole parses.** The shorter parse breaks no promise and leaves nothing, so in the end both are
  behind the line feed (`past_sections`).
-/

namespace RequestFile

open Token (lineFeed)

namespace Cursor

open Lookahead

variable {ts : List Token} {c d c' d' : Cursor}

/-! ### Requests and responses -/

/-- A body follows the headers of both or of neither. -/
lemma Abreast.atBody_eq (h : Abreast ts c d) (hne : c.rest ≠ []) :
    (!d.stopped && !d.atSeparator && d.atBlankLine)
      = (!c.stopped && !c.atSeparator && c.atBlankLine) := by
  obtain ⟨hc, hd⟩ := h.stopped_of_ne hne
  rw [hc, hd, h.atSeparator_eq, h.atBlankLine_eq]

/-- **Headers and bodies** to the end of the section. -/
lemma Beside.message (h : Beside ts .ended c d) (hc : c.Live) (ha : c.Aligned) :
    Beside ts .ended c.message d.message := by
  obtain ⟨hhead, ha', _⟩ := run_headerLines (e := true) hc ha
  have h := h.headerLines
  simp only [Cursor.message]
  generalize c.headerLines = c' at h hhead ha' ⊢
  generalize d.headerLines = d' at h ⊢
  cases h with
  | fault h =>
      refine .fault ?_
      split_ifs
      · exact h.bodySection
      · exact h
  | abreast h hne =>
      rw [h.atBody_eq (hne rfl)]
      split_ifs
      · exact h.bodySection (hne rfl) hhead.live ha'
      · exact h.ended (hne rfl)
  | past h _ =>
      rw [stopped_of_nil h.nil, stopped_of_nil h.nil']
      exact h.beside

namespace Abreast

lemma request (h : Abreast ts c d) (hc : c.Live) (hurl : c.HasUrl) :
    Beside ts .ended c.request d.request := by
  refine h.nested fun c' d' hlike hlike' => (h.congr hlike hlike').node (by decide) fun h => ?_
  have hc' := hlike.live hc
  have hurl' : c'.opened.HasUrl := by
    obtain ⟨_, _, _, rfl⟩ := hlike
    exact hurl
  have hline := run_requestLine (e := true) hc'.opened hurl'
  exact h.beside.requestLine.message hline.live hline.aligned

lemma response (h : Abreast ts c d) (hc : c.Live) (hv : isVersion c.rest) :
    Beside ts .ended c.response d.response := by
  refine h.nested fun c' d' hlike hlike' => (h.congr hlike hlike').node (by decide) fun h => ?_
  have hc' := hlike.live hc
  have hv' : isVersion c'.opened.rest := by
    obtain ⟨_, _, _, rfl⟩ := hlike
    exact hv
  have hline := run_responseLine (e := true) hc'.opened hv'
  exact (h.beside.responseLine hv').message hline.live hline.aligned

/-! ### Sections -/

/-- **Lines in front of a request** and the request itself. -/
lemma preambleTurn (h : Abreast ts c d) (hne : c.rest ≠ []) (hc : c.Live) :
    Turn.Beside ts Cursor.preambleTurn .ended .ended (Cursor.preambleTurn c)
      (Cursor.preambleTurn d) := by
  obtain ⟨hstop, hstop'⟩ := h.stopped_of_ne hne
  simp only [Cursor.preambleTurn, hstop, hstop', Bool.false_or, h.atSeparator_eq]
  by_cases hsep : c.atSeparator = true
  · rw [if_pos hsep, if_pos hsep]
    exact .done (h.ended hne)
  rw [if_neg hsep, if_neg hsep, h.same_line lineLocal_preambleLine.skipBlanks]
  obtain ⟨hblank, _⟩ := run_eatBlank (e := true) hc
  have hbegins := PreambleLine.begins_ofTokens (skipBlanks c.rest)
  rw [← rest_eatBlank hc] at hbegins ⊢
  have h := h.beside.eatBlank
  cases hkind : PreambleLine.ofTokens c.eatBlank.rest with
  | blank => exact .again h.eatNewline
  | comment => exact .again h.comment
  | metadata => exact .again h.metadata
  | variableDeclaration => exact .again h.variableDeclaration
  | command =>
      rw [hkind] at hbegins
      exact .again (h.step (fun h => h.command) fun h => h.command (ne_nil_of_sees hbegins))
  | preRequestScript => exact .again h.preRequestScript
  | response =>
      rw [hkind] at hbegins
      exact .done (h.step (fun h => h.response) fun h => h.response hblank.live hbegins)
  | request =>
      rw [hkind] at hbegins
      obtain ⟨t, us, hr, hk⟩ := hbegins
      exact .done (h.step (fun h => h.request (.inl trivial)) fun h =>
        h.request hblank.live (hasUrl_eatBlank hc hr hk))

/-- The separator of a section, if it has one. -/
lemma optSeparator (h : Abreast ts c d) (hne : c.rest ≠ []) :
    Beside ts .ended (if c.atSeparator then c.separator else c)
      (if d.atSeparator then d.separator else d) := by
  rw [h.atSeparator_eq]
  split_ifs
  · exact h.beside.separator
  · exact h.ended hne

/-- **Sections** side by side. -/
lemma fullSection (h : Abreast ts c d) (hne : c.rest ≠ []) (hc : c.Live) (ha : c.Aligned) :
    Beside ts .ended c.fullSection d.fullSection := by
  refine h.nested fun c' d' hlike hlike' => (h.congr hlike hlike').node (by decide) fun h => ?_
  have hc' := (hlike.live hc).opened
  have hstart : c'.opened.rest ≠ [] ∧ c'.opened.Aligned := by
    obtain ⟨_, _, _, rfl⟩ := hlike
    exact ⟨hne, ha⟩
  obtain ⟨hsep, hasep⟩ := run_optSeparator (e := true) hc' hstart.2
  refine (h.optSeparator hstart.1).loop (I := fun c => c.Live ∧ c.Aligned) ⟨hsep.live, hasep⟩
    (fun h => h.preambleTurn) (fun {c c'} hi hturn => ?_)
    (fun h hne hi => h.preambleTurn (hne rfl) hi.1) fun {c d} h _ => ⟨c, d, ?_, ?_, h.beside⟩
  · have hrun := run_preambleTurn (e := true) hi.1 hi.2
    rw [hturn] at hrun
    exact ⟨hrun.1.live, hrun.2.2⟩
  · rw [Cursor.preambleTurn, stopped_of_nil h.nil]
    rfl
  · rw [Cursor.preambleTurn, stopped_of_nil h.nil']
    rfl

end Abreast

/-- **All sections.** -/
lemma Beside.sections (h : Beside ts .ended c d) (hc : c.Live) (ha : c.Aligned) :
    Beside ts .ended c.sections d.sections := by
  refine h.loopLines (I := fun c => c.Live ∧ c.Aligned) ⟨hc, ha⟩ (fun h _ => h.fullSection)
    (fun {c} hi hmore => ?_) (fun {c d} h hne => ?_)
    (fun h hne hi _ => h.fullSection hne hi.1 hi.2) fun hstop => by simp [hstop]
  · obtain ⟨hrun, _, ha⟩ := run_section_turn (e := true) c hi.1 hi.2 hmore
    exact ⟨hrun.live, ha⟩
  · obtain ⟨hc, hd⟩ := h.stopped_of_ne hne
    rw [hc, hd]

/-! ### Whole parses -/

variable {source : String}

/-- The starts of both parses. -/
lemma abreast_start (h : endsWithBreak source.toList = false) (hne : source ≠ "") :
    Abreast (Token.scan source) (start .unlimited (Token.scan source))
      (start .unlimited (Token.scan (source ++ "\n"))) where
  here := (live_start source).toSound
  there := (live_start (source ++ "\n")).toSound
  place := ⟨[], rfl, rfl, rfl⟩
  unended := Token.unended_scan h
  midline := fun hnil => absurd hnil (Token.scan_ne_nil hne)
  rest := Token.scan_lineFeed h
  read := rfl
  offset := rfl
  lineStart := rfl
  built := rfl
  lastReport := rfl
  failed := rfl
  backed := fun _ => (live_start source).backed

/-- **In the end** both parses are behind the line feed. -/
lemma past_sections (h : endsWithBreak source.toList = false) (hne : source ≠ "") :
    Past (Token.scan source) (start .unlimited (Token.scan source)).sections
      (start .unlimited (Token.scan (source ++ "\n"))).sections := by
  have hlive := live_start source
  obtain ⟨hrun, hnil⟩ := run_sections (e := true) hlive (Or.inr rfl)
  have hboth := ((abreast_start h hne).ended (Token.scan_ne_nil hne)).sections hlive (Or.inr rfl)
  have hsafe := hrun.safe (Nat.zero_le _) rfl
  cases hboth with
  | fault hfault => exact absurd hsafe hfault.fault
  | abreast _ hleft => exact absurd hnil (hleft rfl)
  | past hpast _ => exact hpast

end Cursor

end RequestFile
