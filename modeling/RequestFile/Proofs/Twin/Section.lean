import RequestFile.Proofs.Borders
import RequestFile.Proofs.Section
import RequestFile.Proofs.Twin.Body

/-!
Sections side by side, and the parse of two sources put together.

* **Sections.** The end of the shorter source ends a section as a separator does
  (`Twin.fullSection`), so the sections of the longer source begin with those of the shorter one
  (`Twin.sections_front`).
* **The boundary.** The next section takes its separator before anything is reported, so it does not
  matter whether the last report was made at the boundary (`Near.sections_back`).
* **Independence.** `Parsed.ofSource_append`: a source that ends a line and one that begins with a
  separator are parsed apart.
-/

namespace RequestFile

namespace Cursor

open Lookahead

variable {F : Frame} {pre : List Tree} {c d : Cursor}

namespace Twin

/-! ### Requests and responses -/

/-- A body follows the headers of both or of neither. -/
lemma atBody_eq (h : Twin F pre c d) :
    (!d.stopped && !d.atSeparator && d.atBlankLine)
      = (!c.stopped && !c.atSeparator && c.atBlankLine) := by
  have hnot := h.not_atBlankLine
  rw [h.not_stopped_and_not_atSeparator] at hnot ⊢
  cases hmore : !c.stopped && !c.atSeparator with
  | false => rfl
  | true => simpa [hmore] using hnot

/-- **Headers and bodies** to the end of the section. -/
lemma message (h : Twin F pre c d) (hc : c.Live) (ha : c.Aligned) :
    Twin F pre c.message d.message := by
  obtain ⟨hhead, ha', _⟩ := run_headerLines (e := true) hc ha
  have h := h.headerLines hc ha
  simp only [Cursor.message]
  rw [h.atBody_eq]
  split_ifs
  · exact h.bodySection hhead.live ha'
  · exact h

lemma request (h : Twin F pre c d) (hc : c.Live) (hurl : c.HasUrl) :
    Twin F pre c.request d.request := by
  refine nested h.toNear fun c' d' hlike hlike' => ?_
  have hc' := hlike.live hc
  have hurl' : c'.HasUrl := by
    obtain ⟨_, _, _, rfl⟩ := hlike
    exact hurl
  have hline := run_requestLine (e := true) hc'.opened hurl'
  exact (h.congr hlike hlike').node fun h =>
    (h.requestLine hc'.opened hurl').message hline.live hline.aligned

lemma response (h : Twin F pre c d) (hc : c.Live) (hv : isVersion c.rest) :
    Twin F pre c.response d.response := by
  refine nested h.toNear fun c' d' hlike hlike' => ?_
  have hc' := hlike.live hc
  have hv' : isVersion c'.rest := by
    obtain ⟨_, _, _, rfl⟩ := hlike
    exact hv
  have hline := run_responseLine (e := true) hc'.opened hv'
  exact (h.congr hlike hlike').node fun h =>
    (h.responseLine hc'.opened hv').message hline.live hline.aligned

/-! ### Sections -/

/-- **Lines in front of a request** and the request itself. -/
lemma preambleTurn (h : Twin F pre c d) (hc : c.Live) :
    Turn.Twin F pre (preambleTurn c) (preambleTurn d) := by
  simp only [Cursor.preambleTurn, h.stopped_or_atSeparator]
  by_cases hstop : (c.stopped || c.atSeparator) = true
  · rw [if_pos hstop, if_pos hstop]
    exact h
  rw [if_neg hstop, if_neg hstop]
  have hne : c.rest ≠ [] := by
    simp only [hc.stopped_eq, atEnd, Bool.or_eq_true, not_or, List.isEmpty_iff] at hstop
    exact hstop.1
  have hline : PreambleLine.ofTokens (skipBlanks d.rest)
      = PreambleLine.ofTokens (skipBlanks c.rest) :=
    h.same_line (h.inside hne) lineLocal_preambleLine.skipBlanks
  obtain ⟨hblank, _⟩ := run_eatBlank (e := true) hc
  have hbegins := PreambleLine.begins_ofTokens (skipBlanks c.rest)
  rw [← rest_eatBlank hc] at hbegins hline
  rw [hline, ← rest_eatBlank hc]
  -- the kind of the line is asked before its blanks, and its production begins behind them
  have h := h.eatBlank
  cases hkind : PreambleLine.ofTokens c.eatBlank.rest with
  | blank => exact h.eatNewline
  | comment =>
      rw [hkind] at hbegins
      exact h.comment hblank.live hbegins
  | metadata =>
      rw [hkind] at hbegins
      exact h.metadata hblank.live hbegins.1 hbegins.2
  | variableDeclaration =>
      rw [hkind] at hbegins
      exact h.variableDeclaration hblank.live hbegins
  | command =>
      rw [hkind] at hbegins
      exact h.command hblank.live hbegins
  | preRequestScript =>
      rw [hkind] at hbegins
      exact h.preRequestScript hblank.live hbegins
  | response =>
      rw [hkind] at hbegins
      exact h.response hblank.live hbegins
  | request =>
      rw [hkind] at hbegins
      obtain ⟨t, us, hr, hk⟩ := hbegins
      exact h.request hblank.live (hasUrl_eatBlank hc hr hk)

end Twin

/-- The separator of a section settles what the cursors disagree on. -/
lemma Near.optSeparator (h : Near F pre c d) (hc : c.Live) (hne : c.rest ≠ [])
    (ht : c.atSeparator ∨ Twin F pre c d) :
    Twin F pre (if c.atSeparator then c.separator else c)
      (if d.atSeparator then d.separator else d) := by
  obtain ⟨t, us, hr⟩ := List.exists_cons_of_ne_nil hne
  have hsep : d.atSeparator = c.atSeparator := by
    rw [atSeparator, atSeparator, h.rest, hr]
    rfl
  rw [hsep]
  split_ifs with hs
  · exact h.separator hc hs
  · exact ht.resolve_left hs

/-- **Sections** side by side; only one that begins with its separator may follow a report that the
cursors do not share. -/
lemma Near.fullSection (h : Near F pre c d) (hc : c.Live) (ha : c.Aligned) (hne : c.rest ≠ [])
    (ht : c.atSeparator ∨ Twin F pre c d) : Twin F pre c.fullSection d.fullSection := by
  refine Twin.nested h fun c' d' hlike hlike' => ?_
  have hc' := hlike.live hc
  have h' := h.congr hlike hlike'
  have ht' : c'.opened.atSeparator ∨ Twin F [] c'.opened d'.opened := by
    refine ht.imp (fun hs => ?_) fun h => ⟨Twin.opened h', (h.congr hlike hlike').last⟩
    obtain ⟨_, _, _, rfl⟩ := hlike
    exact hs
  have hne' : c'.opened.rest ≠ [] ∧ c'.opened.Aligned := by
    obtain ⟨_, _, _, rfl⟩ := hlike
    exact ⟨hne, ha⟩
  obtain ⟨hsep, hasep⟩ := run_optSeparator (e := true) hc'.opened hne'.2
  exact Twin.closed h' (Twin.loop (fun f hf haf => run_preambleTurn (e := true) hf haf)
    (fun _ _ hc _ h => h.preambleTurn hc) hsep.live hasep
    ((Twin.opened h').optSeparator hc'.opened hne'.1 ht'))

/-! ### All sections -/

lemma Near.aligned (h : Near F pre c d) (ha : c.Aligned) : d.Aligned := by
  rcases ha with hr | hl
  · rcases h.ending with hnil | he
    · exact Or.inl (by rw [h.rest, hr, hnil, List.append_nil])
    · exact Or.inr (h.lineStart.trans (he.2 hr))
  · exact Or.inr (h.lineStart.trans hl)

/-- The longer source is backed by the same error. -/
lemma Twin.live (h : Twin F pre c d) (hc : c.Live) : d.Live := by
  refine ⟨h.there, fun hd => ?_⟩
  have hfailed := hc.backed (h.last.mp hd)
  rw [failed, List.any_eq_true] at hfailed
  obtain ⟨x, hx, herr⟩ := hfailed
  rw [failed, h.reports, List.any_append, Bool.or_eq_true, List.any_map]
  exact Or.inr (List.any_eq_true.mpr ⟨x, hx, herr⟩)

/-- **The sections of the shorter source** come first in the longer one. -/
lemma Twin.sections_front (h : Twin F pre c d) (hc : c.Live) (ha : c.Aligned) :
    ∃ d', Twin F pre c.sections d' ∧ d.sections = d'.sections := by
  induction hn : c.rest.length using Nat.strong_induction_on generalizing c d with
  | h n ih =>
      by_cases hr : c.rest = []
      · exact ⟨d, by rwa [sections_of_nil hr], rfl⟩
      obtain ⟨hrun, hend, hgt⟩ := run_fullSection (e := true) hc ha
      have hfin := hrun.finish_eq
      have hlt := hgt hr
      rw [finish, finish] at hfin
      have hd : d.rest ≠ [] := by simp [h.rest, hr]
      rw [sections_eq hc ha hr, sections_eq (h.live hc) (h.aligned ha) hd]
      exact ih c.fullSection.rest.length (by omega)
        (h.toNear.fullSection hc ha hr (Or.inr h)) hrun.live hend.1 rfl

/-- **The sections behind a boundary**, where the cursors may disagree on the last report. -/
lemma Near.sections_back (h : Near F pre c d) (hF : F.tail = []) (hc : c.Live) (hd : d.Live)
    (ha : c.Aligned) (hs : c.atSeparator) : Twin F pre c.sections d.sections := by
  obtain ⟨t, us, hr, _⟩ := exists_of_sees hs
  have hne : c.rest ≠ [] := by
    rw [hr]
    exact List.cons_ne_nil t us
  have hne' : d.rest ≠ [] := by simp [h.rest, hr]
  obtain ⟨hrun, hend, _⟩ := run_fullSection (e := true) hc ha
  obtain ⟨d', h', heq⟩ := (h.fullSection hc ha hne (Or.inl hs)).sections_front hrun.live hend.1
  obtain ⟨_, hnil⟩ := run_sections (e := true) hrun.live hend.1
  have hd' : d'.rest = [] := by rw [h'.rest, hnil, hF, List.append_nil]
  rw [sections_eq hc ha hne, sections_eq hd (h.aligned ha) hne', heq, sections_of_nil hd']
  exact h'

end Cursor

/-! ### Two sources put together -/

lemma Diagnostic.shift_zero (d : Diagnostic) : d.shift 0 = d := by
  simp [Diagnostic.shift, Span.shift]

namespace Parsed

/-- `p` is what was found in one source and then, `n` bytes later, in another. -/
structure Joined (n : Nat) (p₁ p₂ p : Parsed) : Prop where
  tree : p.tree = .node .document (p₁.tree.children ++ p₂.tree.children)
  reports : p.reports = p₁.reports ++ p₂.reports.map (Diagnostic.shift n)
  tokens : p.tokens = p₁.tokens + p₂.tokens

open Cursor Lookahead

/-- The sources around a boundary, seen from the first one. -/
lemma twin_start {a b : String} (ha : endsLine a) (hb : startsSection b) :
    Twin ⟨Token.scan b, 0, 0, []⟩ [] (Cursor.start .unlimited (Token.scan a))
      (Cursor.start .unlimited (Token.scan (a ++ b))) := by
  have hopens : Opens (Token.scan b) := by
    obtain ⟨t, ts, hscan, hk⟩ := Token.scan_of_startsSection hb
    right
    rw [hscan, startsWith_cons]
    simpa using hk
  have hts : Terminated (Token.scan a) := by
    intro t ht
    rcases Token.getLast_scan ha with hnil | ⟨u, hu, hk⟩
    · rw [hnil] at ht
      exact absurd ht (by simp)
    · rw [Option.mem_def, hu] at ht
      rwa [← Option.some.inj ht]
  exact ⟨⟨(live_start a).toSound, (live_start (a ++ b)).toSound,
    Token.scan_append_of_startsSection ha hb, rfl, rfl, rfl, rfl, rfl, hopens,
    Or.inr ⟨hts, fun _ => rfl⟩⟩, by simp [Cursor.start]⟩

/-- **Sections are parsed apart**: the end of the first source is the same as a separator. -/
lemma joined_append {a b : String} (ha : endsLine a) (hb : startsSection b) {p₁ p₂ p : Parsed}
    (h₁ : ofSource .unlimited a = .ok p₁) (h₂ : ofSource .unlimited b = .ok p₂)
    (h : ofSource .unlimited (a ++ b) = .ok p) : Joined a.utf8ByteSize p₁ p₂ p := by
  have hlive := live_start a
  obtain ⟨d, hfront, heq⟩ := (twin_start ha hb).sections_front hlive (Or.inr rfl)
  obtain ⟨hrun, hnil⟩ := run_sections (e := true) hlive (Or.inr rfl)
  obtain ⟨hoffset, _⟩ := sections_start a
  obtain ⟨rfl, _⟩ := ofSource_eq_ok.mp h₁
  obtain ⟨rfl, _⟩ := ofSource_eq_ok.mp h₂
  obtain ⟨rfl, _⟩ := ofSource_eq_ok.mp h
  rw [heq]
  generalize (Cursor.start .unlimited (Token.scan a)).sections = c at *
  obtain ⟨t, ts, hscan, hk⟩ := Token.scan_of_startsSection hb
  have hrest : d.rest = Token.scan b := by rw [hfront.rest, hnil, List.nil_append]
  have hline : d.lineStart = true := by
    refine (hfront.aligned (Or.inl hnil)).resolve_left ?_
    rw [hrest, hscan]
    exact List.cons_ne_nil t ts
  have hreports : d.reports.toList = c.reports.toList := by
    rw [hfront.reports, List.nil_append, funext Diagnostic.shift_zero, List.map_id']
  -- where the first source ends, the joined one is related to the start of the second, shifted by
  -- what has been taken, built and reported
  have hnear : Near ⟨[], c.read, a.utf8ByteSize, c.reports.toList⟩ c.built.toList
      (Cursor.start .unlimited (Token.scan b)) d := by
    refine ⟨(live_start b).toSound, hfront.there, ?_, ?_, ?_, hline, ?_, ?_, Or.inl rfl,
      Or.inl rfl⟩
    · rw [hrest]
      exact (List.append_nil _).symm
    · exact hfront.read.trans (Nat.add_comm ..)
    · rw [hfront.offset, hoffset]
      exact Nat.add_comm ..
    · rw [hfront.built]
      exact (List.append_nil _).symm
    · rw [hreports]
      exact (List.append_nil _).symm
  have hs : (Cursor.start .unlimited (Token.scan b)).atSeparator := by
    rw [atSeparator, Cursor.start, hscan]
    simpa [isSeparatorLine] using hk
  have hback := hnear.sections_back rfl (live_start b) (hfront.live hrun.live) (Or.inr rfl) hs
  refine ⟨?_, hback.reports, ?_⟩
  · rw [hback.built]
    rfl
  · have hread := hback.read
    rw [← hback.there.charged, ← hback.here.charged] at hread
    rw [hread, hrun.live.charged]
    exact Nat.add_comm ..

/-- **Sections are independent**: when one source ends a line and another begins with a separator,
the parse of both together has the sections of the first and then those of the second, reports the
problems of the first and then those of the second, moved by the length of the first, and takes as
many tokens as both. -/
theorem ofSource_append (a b : String) (ha : endsLine a) (hb : startsSection b) :
    ∃ p₁ p₂ p, ofSource .unlimited a = .ok p₁ ∧ ofSource .unlimited b = .ok p₂ ∧
      ofSource .unlimited (a ++ b) = .ok p ∧
      p.tree = .node .document (p₁.tree.children ++ p₂.tree.children) ∧
      p.reports = p₁.reports ++ p₂.reports.map (Diagnostic.shift a.utf8ByteSize) ∧
      p.tokens = p₁.tokens + p₂.tokens := by
  obtain ⟨p₁, h₁, _⟩ := ofSource_unlimited a
  obtain ⟨p₂, h₂, _⟩ := ofSource_unlimited b
  obtain ⟨p, h, _⟩ := ofSource_unlimited (a ++ b)
  have hjoined := joined_append ha hb h₁ h₂ h
  exact ⟨p₁, p₂, p, h₁, h₂, h, hjoined.tree, hjoined.reports, hjoined.tokens⟩

/-- A multipart body that is left open ends with its source. -/
theorem ofSource_append_open_multipart :
    endsLine "POST /a\n\n--part\n" ∧ startsSection "### b\nGET /b" ∧
      ∃ p₁ p₂ p, ofSource .unlimited "POST /a\n\n--part\n" = .ok p₁ ∧
        ofSource .unlimited "### b\nGET /b" = .ok p₂ ∧
        ofSource .unlimited ("POST /a\n\n--part\n" ++ "### b\nGET /b") = .ok p ∧
        p.tree = .node .document (p₁.tree.children ++ p₂.tree.children) ∧
        p.reports = p₁.reports ++
          p₂.reports.map (Diagnostic.shift "POST /a\n\n--part\n".utf8ByteSize) ∧
        p.tokens = p₁.tokens + p₂.tokens :=
  ⟨by decide, by decide, ofSource_append _ _ (by decide) (by decide)⟩

end Parsed

end RequestFile
