import RequestFile.Proofs.Head
import RequestFile.Proofs.Lines

/-!
Runs of bodies.

* **Lines.** A body of text ends exactly where it was measured to (`run_textLines`), and that is the
  end of a line (`Run.aligned_of_lineBreak`).
* **Boundaries.** A closing boundary finds its two hyphens where its text ends
  (`run_lastBoundary`).
* **Multipart bodies.** `MultipartStep` lists what a turn over a multipart body does, and what is known
  of the tokens ahead then (`multipartTurn_step`). What holds of its lines is a case for each.
* **Items.** `BodyLine.begins_ofTokens` says what the first tokens of each kind of body are, and
  `run_bodyItem` that each ends where a line begins, with something taken.
-/

namespace RequestFile

open scoped Computability

namespace Lookahead

/-- What a multipart body begins with: hyphens with a text right behind them. -/
def OpensMultipart (ts : List Token) : Prop :=
  startsWith .doubleDash ts ∧
    ∃ t us, ts.drop 1 = t :: us ∧ t.kind ≠ .whitespace ∧ t.kind ≠ .newline

/-- A line that names a file begins with an angle bracket. -/
lemma startsWith_of_isExternal {ts : List Token} (h : isExternal ts) : startsWith .angleOpen ts := by
  simp only [isExternal, Bool.and_eq_true] at h
  exact h.1.1

/-- A form begins with a token that may begin a name. -/
lemma exists_of_isForm {ts : List Token} (h : isForm ts) :
    ∃ t us, ts = t :: us ∧ t.kind ≠ .newline ∧ formFirstForbidden.contains t.kind = false := by
  cases ts with
  | nil => cases h
  | cons t us =>
      simp only [isForm, Bool.and_eq_true, Bool.not_eq_true'] at h
      obtain ⟨hfirst, hequals⟩ := h
      refine ⟨t, us, rfl, fun hk => ?_, hfirst⟩
      rw [line_newline hk] at hequals
      simp [lengthOutsideVariables, lengthOutsideVariablesFrom, hk] at hequals

end Lookahead

namespace Cursor

variable {e : Bool} {k : Nat} {L : TreeLanguage} {stop : Nat} {c c' : Cursor}

/-! ### Text and files -/

/-- A run over whole lines ends where a line begins. -/
lemma Run.aligned_of_lineBreak {n : Nat} (h : Run e k L c c') (ha : c.Aligned)
    (hb : Lookahead.LineBreak c.rest n) (hr : c'.read = c.read + n) : c'.Aligned := by
  rcases hb.ends with rfl | hnil | ⟨t, ht, hk⟩
  · exact h.aligned_of_still hr ha
  · refine Or.inl ?_
    rw [h.rest_eq, hr, Nat.add_sub_cancel_left, hnil]
  · refine Or.inr ?_
    obtain ⟨ts, _, htook, _⟩ := h.grew
    have hlen : ts.length = n := by
      have := htook.read
      omega
    have hts : c.rest.take n = ts := by rw [htook.rest, ← hlen, List.take_left]
    rw [htook.lineStart, ← hts, ht]
    simp [hk]

/-- What lines of text keep: they do not go beyond their bound. -/
def WithinInput (stop : Nat) (c : Cursor) : Prop :=
  c.read ≤ stop ∧ stop ≤ c.finish

/-- One line of a text, or the part of it in front of the bound. -/
def textLine (stop : Nat) (c : Cursor) : Cursor :=
  let c := c.textUntil (min c.lineEnd stop)
  if c.read < stop then c.eatNewline else c

lemma run_textLine (hc : c.Live) (hw : WithinInput stop c) (h : c.read < stop) :
    Run e 1 (Form.opt Form.text * Form.lineEnd) c (c.textLine stop) ∧
      c.read < (c.textLine stop).read ∧ WithinInput stop (c.textLine stop) := by
  have hle := c.read_le_lineEnd
  obtain ⟨htext, hread⟩ := run_optText (e := e) hc (le_min hle hw.1) (min_le_left c.lineEnd stop)
  have hfin := htext.finish_eq
  simp only [textLine]
  generalize c.textUntil (min c.lineEnd stop) = d at *
  split_ifs with hlt
  · have hend : d.read = c.lineEnd := by omega
    have hline := htext.lineEnd_eq hend.le
    obtain ⟨t, us, hr⟩ := exists_of_lt_finish (hlt.trans_le (hw.2.trans hfin.ge))
    have hs := (end_of_line (hend.trans hline.symm)).resolve_left (by simp [hr])
    obtain ⟨hnl, hread'⟩ := run_eatNewline (e := e) htext.live
    have hfin' := hnl.finish_eq
    rw [if_pos hs] at hread'
    exact ⟨htext.trans hnl, by omega, by omega, hw.2.trans (hfin'.trans hfin).ge⟩
  · have hnone := (Run.refl (e := e) htext.live).absent (L := Form.leaf .newline)
    exact ⟨(htext.trans hnone).weaken (by omega) le_rfl, by omega, by omega, hw.2.trans hfin.ge⟩

/-- The turns of `textLines`. -/
lemma run_textLine_turn (d : Cursor) (hd : d.Live) (hw : WithinInput stop d)
    (hmore : decide (d.read < stop) && !d.stopped) :
    Run e 1 (Form.opt Form.text * Form.lineEnd) d (d.textLine stop) ∧
      d.read < (d.textLine stop).read ∧ WithinInput stop (d.textLine stop) := by
  simp only [Bool.and_eq_true, decide_eq_true_eq] at hmore
  exact run_textLine hd hw hmore.1

/-- **Lines of text** end exactly at their bound. -/
lemma run_textLines (hc : c.Live) (hw : WithinInput stop c) :
    Run e 2 Form.lines c (c.textLines stop) ∧ (c.textLines stop).read = stop := by
  obtain ⟨hrun, hend, hdone⟩ : Run e 2 Form.lines c (c.textLines stop) ∧
      WithinInput stop (c.textLines stop) ∧
      (decide ((c.textLines stop).read < stop) && !(c.textLines stop).stopped) = false :=
    Run.loopWhile (by decide) run_textLine_turn hc hw
  refine ⟨hrun, le_antisymm hend.1 (le_of_not_gt fun hlt => ?_)⟩
  obtain ⟨t, us, hr⟩ := exists_of_lt_finish (hlt.trans_le hend.2)
  simp [hlt, hrun.live.stopped_eq, atEnd, hr] at hdone

/-- **Bodies of text** over whole lines. -/
lemma run_textNode {K : Kind} {n : Nat} (hc : c.Live) (ha : c.Aligned)
    (hb : Lookahead.LineBreak c.rest n) :
    Run e 2 (Form.textBody K) c (c.textNode K (c.read + n)) ∧
      (c.textNode K (c.read + n)).read = c.read + n ∧ (c.textNode K (c.read + n)).Aligned := by
  obtain ⟨hrun, hread⟩ := run_textLines (e := e) hc.opened
    (show WithinInput (c.read + n) c from ⟨Nat.le_add_right _ _, Nat.add_le_add_left hb.le _⟩)
  exact ⟨hrun.node, hread, hrun.aligned_of_lineBreak ha hb hread⟩

lemma run_textBody {K : Kind} (hc : c.Live) (ha : c.Aligned) (hne : c.rest ≠ []) :
    LineRun e 2 (Form.textBody K) c (c.textBody K) := by
  obtain ⟨hrun, hread, ha'⟩ := run_textNode (e := e) (K := K) hc ha
    (Lookahead.lineBreak_textLength Lookahead.isBodyStop c.rest)
  have hpos := Lookahead.textLength_pos Lookahead.isBodyStop hne
  exact ⟨hrun, (Nat.lt_add_of_pos_right hpos).trans_le hread.ge, ha'⟩

lemma run_rawBody (hc : c.Live) (ha : c.Aligned) (hne : c.rest ≠ []) :
    LineRun e 2 (Form.textBody .rawBody) c c.rawBody := by
  obtain ⟨hrun, hread, ha'⟩ := run_textNode (e := e) (K := .rawBody) hc ha
    (Lookahead.lineBreak_textLength
      (fun l => Lookahead.isBlankLine l || Lookahead.isBodyStop l) c.rest)
  have hpos := Lookahead.textLength_pos
    (fun l => Lookahead.isBlankLine l || Lookahead.isBodyStop l) hne
  exact ⟨hrun, (Nat.lt_add_of_pos_right hpos).trans_le hread.ge, ha'⟩

lemma run_external (hc : c.Live) (hs : c.sees .angleOpen) :
    Run e 12 (Form.external e) c c.external ∧ c.read < c.external.read := by
  obtain ⟨hopen, hread⟩ := run_bump (e := e) hc hs
  obtain ⟨hat, _⟩ := run_eat (e := e) hopen.live .at
  obtain ⟨hblank, _⟩ := run_eatBlank (e := e) hat.live
  obtain ⟨hpath, _⟩ := run_path (e := e) hblank.live
  have hle := ((hat.trans hblank).trans hpath).read_le
  exact ⟨(((hopen.trans hat).trans hblank).trans hpath).weaken (by omega) le_rfl,
    (hread.symm ▸ Nat.lt_succ_self c.read : c.read < c.bump.read).trans_le hle⟩

lemma run_externalBody (hc : c.Live) (hs : c.sees .angleOpen) :
    LineRun e 15 (Form.externalBody e) c c.externalBody := by
  obtain ⟨hrun, hgt⟩ := run_external (e := e) hc.opened hs
  obtain ⟨hend, ha, _⟩ := run_endLine (e := e) hrun.node.live "unexpected text after the file path"
  exact ⟨hrun.node.trans hend, hgt.trans_le hend.read_le, ha⟩

lemma run_multipartExternal (hc : c.Live) (hs : c.sees .angleOpen) :
    LineRun e 15 (Form.multipartExternal e) c c.multipartExternal := by
  obtain ⟨hrun, hgt⟩ := run_external (e := e) hc.opened hs
  obtain ⟨hend, ha, _⟩ := run_endLine (e := e) hrun.live "unexpected text after the file path"
  exact LineRun.node ⟨hrun.trans hend, hgt.trans_le hend.read_le, ha⟩

/-- On a blank line the blank leads to its end. -/
lemma read_eatBlank_of_blankLine (hc : c.Live) (hb : c.atBlankLine) :
    c.eatBlank.read = c.lineEnd := by
  obtain ⟨hblank, _⟩ := run_eatBlank (e := true) hc
  rw [← hblank.lineEnd_eq (eatBlank_le_lineEnd hc), lineEnd]
  rcases eatBlank_of_blankLine hc hb with hr | hs
  · simp [hr]
  · obtain ⟨t, us, hr, hk⟩ := exists_of_sees hs
    simp [hr, Lookahead.lineLength_cons, hk]

/-- **Blank lines** are taken with their terminator. -/
lemma run_eatBlankLine (hc : c.Live) (hb : c.atBlankLine) :
    Run e 2 Form.blankLine c c.eatBlankLine ∧ c.eatBlankLine.Aligned ∧
      c.eatBlankLine.read = c.read + (c.rest.take (Lookahead.lineLength c.rest + 1)).length := by
  obtain ⟨hblank, _⟩ := run_eatBlank (e := e) hc
  obtain ⟨hnl, hread⟩ := run_eatNewline (e := e) hblank.live
  have hend := read_eatBlank_of_blankLine hc hb
  have hline := hblank.lineEnd_eq hend.le
  have hat := hend.trans hline.symm
  have hfin := hblank.finish_eq
  refine ⟨hblank.trans hnl, aligned_eatNewline hat, ?_⟩
  change c.eatBlank.eatNewline.read = _
  rw [hread, hend, lineEnd, List.length_take, Nat.add_assoc]
  rw [finish, finish, hend, lineEnd] at hfin
  congr 1
  rcases end_of_line hat with hr | hs
  · rw [hr, List.length_nil] at hfin
    simp only [sees, hr, Lookahead.startsWith_nil]
    simp
    omega
  · obtain ⟨t, us, hr, _⟩ := exists_of_sees hs
    rw [hr, List.length_cons] at hfin
    rw [if_pos hs]
    omega

lemma run_blankLine (hc : c.Live) (hb : c.atBlankLine) (hne : c.rest ≠ []) :
    LineRun e 2 Form.blankLine c c.eatBlankLine := by
  obtain ⟨hrun, ha, hread⟩ := run_eatBlankLine (e := e) hc hb
  have hpos : 0 < (c.rest.take (Lookahead.lineLength c.rest + 1)).length := by
    rw [List.length_take]
    have := List.length_pos_of_ne_nil hne
    omega
  exact ⟨hrun, (Nat.lt_add_of_pos_right hpos).trans_le hread.ge, ha⟩

/-! ### Multipart bodies -/

lemma boundaryTextEnd_bounds (hs : c.sees .doubleDash) :
    c.read < c.boundaryTextEnd ∧ c.boundaryTextEnd ≤ c.lineEnd := by
  have hlt := read_lt_lineEnd_of_sees hs (by decide)
  have hle := Lookahead.lengthOutsideVariables_le boundaryEndKinds
    ((c.segment c.lineEnd).drop 1)
  rw [List.length_drop, length_segment c.lineEnd_le_finish] at hle
  rw [boundaryTextEnd]
  omega

/-- Right behind the hyphens of a multipart body stands the text of its boundary. -/
lemma lt_boundaryTextEnd (hb : Lookahead.OpensMultipart c.rest) :
    c.read + 1 < c.boundaryTextEnd := by
  obtain ⟨hs, u, us, hdrop, hw, hn⟩ := hb
  obtain ⟨t, ts, hr, hk⟩ := Lookahead.exists_of_startsWith hs
  have hline : (c.segment c.lineEnd).drop 1 = u :: Lookahead.line us := by
    rw [segment, lineEnd, Nat.add_sub_cancel_left, Lookahead.take_lineLength]
    rw [hr, List.drop_succ_cons, List.drop_zero] at hdrop
    simp [Lookahead.line, hr, hk, hdrop, hn]
  have hmore : boundaryEndKinds.contains u.kind = false := by
    simp [boundaryEndKinds, KindSet.contains, hw, hn]
  have hpos := Lookahead.lengthOutsideVariables_pos (Lookahead.line us) hmore
  rw [boundaryTextEnd, hline]
  omega

/-- Behind the hyphens of a boundary line its text begins. -/
lemma run_boundaryHyphens (hc : c.Live) (hs : c.sees .doubleDash) :
    Run e 0 (Form.leaf .doubleDash) c.opened c.opened.bump ∧ c.opened.bump.read = c.read + 1 ∧
      c.opened.bump.lineEnd = c.lineEnd := by
  obtain ⟨hopen, hread⟩ := run_bump (e := e) hc.opened hs
  exact ⟨hopen, hread, hopen.lineEnd_eq (bump_le_lineEnd hs (by decide))⟩

/-- Boundary lines other than the last, by the form of their text. -/
lemma run_boundaryLine {b : Boundary} {textEnd : Nat} (hc : c.Live) (hs : c.sees .doubleDash)
    (hb : b ≠ .last)
    (hpart : Run e 10 L c.opened.bump (c.opened.bump.part .boundaryValue textEnd)) :
    LineRun e 13 (Form.openBoundary e b.kind L) c (c.boundaryLine b textEnd) := by
  simp only [boundaryLine, node, if_neg hb]
  obtain ⟨hopen, hread, _⟩ := run_boundaryHyphens (e := e) hc hs
  have hgt : c.read < c.opened.bump.read := hread.symm ▸ Nat.lt_succ_self c.read
  obtain ⟨hend, ha, _⟩ := run_endLine (e := e) hpart.live "unexpected text after the boundary"
  have hle := (hpart.trans hend).read_le
  exact LineRun.node ⟨((hopen.trans hpart).trans hend).weaken (by omega) le_rfl,
    hgt.trans_le hle, ha⟩

/-- **Boundary lines** other than the last. -/
lemma run_openBoundary {b : Boundary} {textEnd : Nat} (hc : c.Live) (hs : c.sees .doubleDash)
    (hb : b ≠ .last) (hl : textEnd ≤ c.lineEnd) :
    LineRun e 13 (Form.openBoundary e b.kind (Form.opt (Form.part e .boundaryValue))) c
      (c.boundaryLine b textEnd) := by
  obtain ⟨hopen, _, hline⟩ := run_boundaryHyphens (e := e) hc hs
  exact run_boundaryLine hc hs hb (run_part (e := e) hopen.live (hl.trans hline.ge)).1

/-- **The first boundary line** has a text. -/
lemma run_firstBoundary (hc : c.Live) (hs : c.sees .doubleDash)
    (hv : c.read + 1 < c.boundaryTextEnd) :
    LineRun e 13 (Form.firstBoundary e) c (c.boundaryLine .first c.boundaryTextEnd) := by
  obtain ⟨hopen, hread, hline⟩ := run_boundaryHyphens (e := e) hc hs
  have hl := (boundaryTextEnd_bounds hs).2
  have hfirst : Boundary.first ≠ .last := by decide
  exact run_boundaryLine hc hs hfirst
    (run_part_of_lt (e := e) hopen.live (hl.trans hline.ge) (by omega)).1

/-- Where the last boundary line ends, its hyphens stand. -/
lemma sees_closingHyphens {textEnd : Nat} (hc : c.Live) (hs : c.sees .doubleDash)
    (hl : textEnd ≤ c.lineEnd) (hb : c.boundaryHere textEnd = .last) :
    c.read + 2 < textEnd ∧
      (c.opened.bump.part .boundaryValue (textEnd - 1)).sees .doubleDash := by
  obtain ⟨hlen, hdash⟩ : c.read + 2 < textEnd ∧
      Lookahead.startsWith .doubleDash (c.rest.drop (textEnd - 1 - c.read)) := by
    rw [boundaryHere] at hb
    split_ifs at hb with h
    simpa using h
  obtain ⟨hopen, hread⟩ := run_bump (e := true) hc.opened hs
  have hread' : c.opened.bump.read = c.read + 1 := hread
  have hline : c.opened.bump.lineEnd = c.lineEnd :=
    hopen.lineEnd_eq (bump_le_lineEnd hs (by decide))
  obtain ⟨hpart, hend⟩ := run_part (e := true) (K := .boundaryValue) hopen.live
    (show textEnd - 1 ≤ _ by omega)
  have hat : (c.opened.bump.part .boundaryValue (textEnd - 1)).read - c.opened.read
      = textEnd - 1 - c.read := by
    change (c.opened.bump.part .boundaryValue (textEnd - 1)).read - c.read = _
    omega
  refine ⟨hlen, ?_⟩
  rw [sees, (hopen.trans hpart).rest_eq, hat]
  exact hdash

/-- **The last boundary line** finds its two hyphens at the end of its text. -/
lemma run_lastBoundary {textEnd : Nat} (hc : c.Live) (hs : c.sees .doubleDash)
    (hl : textEnd ≤ c.lineEnd) (hb : c.boundaryHere textEnd = .last) :
    LineRun e 13 (Form.lastBoundary e) c (c.boundaryLine .last textEnd) := by
  obtain ⟨hlen, hsees⟩ := sees_closingHyphens hc hs hl hb
  simp only [boundaryLine, node, if_true]
  obtain ⟨hopen, hread, hline⟩ := run_boundaryHyphens (e := e) hc hs
  obtain ⟨hpart, hend⟩ := run_part_of_lt (e := e) (K := .boundaryValue) hopen.live
    (show textEnd - 1 ≤ _ by omega) (by omega)
  generalize (c.opened.bump).part .boundaryValue (textEnd - 1) = d at *
  obtain ⟨hclose, _⟩ := run_bump (e := e) hpart.live hsees
  obtain ⟨htail, ha, _⟩ := run_endLine (e := e) hclose.live "unexpected text after the boundary"
  have hle := ((hpart.trans hclose).trans htail).read_le
  refine LineRun.node ⟨(((hopen.trans hpart).trans hclose).trans htail).weaken (by omega) le_rfl,
    (hread.symm ▸ Nat.lt_succ_self c.read : c.read < c.opened.bump.read).trans_le hle, ha⟩

lemma run_multipartContent (hc : c.Live) (hne : c.rest ≠ []) :
    LineRun e 1 Form.multipartContent c c.multipartContent := by
  simp only [multipartContent, node]
  have hle := c.read_le_lineEnd
  obtain ⟨htext, hend⟩ := run_optText (e := e) hc.opened hle le_rfl
  obtain ⟨hnl, _⟩ := run_eatNewline (e := e) htext.live
  have hend' : (c.opened.textUntil c.lineEnd).read = c.lineEnd := hend
  have hat := hend.trans (htext.lineEnd_eq hend.le).symm
  refine LineRun.node ⟨htext.trans hnl, ?_, aligned_eatNewline hat⟩
  change c.read < _
  rcases hle.lt_or_eq with hlt | heq
  · exact (hlt.trans_le hend'.ge).trans_le hnl.read_le
  · have hstill := (htext.still (hend'.trans heq.symm)).1
    have hgt := read_lt_eatNewline htext.live hat (by rw [hstill]; exact hne)
    exact (heq.trans hend'.symm).trans_lt hgt

lemma seesIn_of_isHeader (h : Lookahead.isHeader c.rest) : c.seesIn Lookahead.headerNameKinds := by
  simp only [Lookahead.isHeader, Bool.and_eq_true, decide_eq_true_eq] at h
  rw [seesIn, Lookahead.startsIn]
  cases hr : c.rest with
  | nil => simp [hr, Lookahead.headerNameLength] at h
  | cons t us =>
      by_contra hnot
      have ht : Lookahead.headerNameKinds.contains t.kind = false := by simpa using hnot
      simp [hr, Lookahead.headerNameLength, ht] at h

/-- What a turn over a multipart body that was opened at `opener` does, and what stands ahead of it. -/
inductive MultipartStep (opener : Span) (c : Cursor) : Turn → Prop
  | unclosed : MultipartStep opener c (.done (c.reportUnclosed .unclosedMultipart
      "expected a closing boundary" "multipart body starts here" opener))
  | blank (hne : c.rest ≠ []) (hblank : c.atBlankLine) :
      MultipartStep opener c (.again c.eatBlankLine)
  | last (hne : c.rest ≠ []) (hs : c.look.sees .doubleDash)
      (hb : c.look.boundaryHere c.look.boundaryTextEnd = .last) :
      MultipartStep opener c (.done (c.look.boundaryLine .last c.look.boundaryTextEnd))
  | inner (hne : c.rest ≠ []) (hs : c.look.sees .doubleDash)
      (hb : c.look.boundaryHere c.look.boundaryTextEnd = .inner) :
      MultipartStep opener c (.again (c.look.boundaryLine .inner c.look.boundaryTextEnd))
  | external (hne : c.rest ≠ []) (hs : c.look.sees .angleOpen) :
      MultipartStep opener c (.again c.look.multipartExternal)
  | header (hne : c.rest ≠ []) (hs : c.look.seesIn Lookahead.headerNameKinds) :
      MultipartStep opener c (.again c.look.header)
  | content (hne : c.rest ≠ []) : MultipartStep opener c (.again c.look.multipartContent)

lemma multipartTurn_step (opener : Span) (hc : c.Live) :
    MultipartStep opener c (multipartTurn opener c) := by
  simp only [multipartTurn]
  by_cases hend : c.stopped || c.atSeparator || Lookahead.isHandler c.rest
  · rw [if_pos hend]
    exact .unclosed
  rw [if_neg hend]
  have hne : c.rest ≠ [] := by
    simp only [hc.stopped_eq, atEnd, Bool.or_eq_true, not_or, List.isEmpty_iff] at hend
    exact hend.1.1
  by_cases hblank : c.atBlankLine
  · rw [if_pos hblank]
    exact .blank hne hblank
  rw [if_neg hblank]
  by_cases hbound : Lookahead.isBoundary c.look.rest
  · rw [if_pos hbound]
    simp only [Lookahead.isBoundary, Bool.and_eq_true] at hbound
    cases hb : c.look.boundaryHere c.look.boundaryTextEnd with
    | last => exact .last hne hbound.1 hb
    | inner => exact .inner hne hbound.1 hb
    | first =>
        -- the first boundary is not looked for between two others
        rw [boundaryHere] at hb
        split_ifs at hb
  rw [if_neg hbound]
  by_cases hext : Lookahead.isExternal c.look.rest
  · rw [if_pos hext]
    exact .external hne (Lookahead.startsWith_of_isExternal hext)
  rw [if_neg hext]
  by_cases hheader : Lookahead.isHeader c.look.rest
  · rw [if_pos hheader]
    exact .header hne (seesIn_of_isHeader hheader)
  · rw [if_neg hheader]
    exact .content hne

/-- **Lines of a multipart body** each end where a line begins. -/
lemma run_multipartTurn (opener : Span) (hc : c.Live) (ha : c.Aligned) :
    Turning e 16 (Form.multipartLine e) (Form.lastBoundary e + Form.lapse e) Aligned Aligned c
      (multipartTurn opener c) := by
  have hlook := run_look (e := e) hc
  have hstep := multipartTurn_step opener hc
  generalize multipartTurn opener c = turn at hstep ⊢
  cases hstep with
  | unclosed =>
      have hrun := run_reportUnclosed (e := e) (p := .unclosedMultipart) hc rfl
        "expected a closing boundary" "multipart body starts here" opener
      exact ⟨(hrun.weaken (Nat.zero_le _) le_rfl).inr, hrun.aligned_of_still (fileAt_read ..) ha⟩
  | blank hne hblank =>
      have hline := run_blankLine (e := e) hc hblank hne
      exact ⟨((hline.toRun.weaken (by omega) le_rfl).inl).inl.inl.inl, hline.moved, hline.aligned⟩
  | last _ hs hb =>
      have hline := run_lastBoundary (e := e) hlook.live hs (boundaryTextEnd_bounds hs).2 hb
      exact ⟨((hline.toRun.after hlook).weaken (by omega) le_rfl).inl, hline.aligned⟩
  | inner _ hs _ =>
      have hline := (run_openBoundary (e := e) (b := .inner) hlook.live hs (by decide)
        (boundaryTextEnd_bounds hs).2).after hlook
      exact ⟨(hline.toRun.weaken (by omega) le_rfl).inr.inl.inl.inl, hline.moved, hline.aligned⟩
  | external _ hs =>
      have hline := (run_multipartExternal (e := e) hlook.live hs).after hlook
      exact ⟨hline.toRun.inr.inl.inl, hline.moved, hline.aligned⟩
  | header _ hs =>
      have hline := (run_header (e := e) hlook.live hs).after hlook
      exact ⟨hline.toRun.inr.inl, hline.moved, hline.aligned⟩
  | content hne =>
      have hne' : c.look.rest ≠ [] := by rwa [look_rest]
      have hline := (run_multipartContent (e := e) hlook.live hne').after hlook
      exact ⟨(hline.toRun.weaken (by omega) le_rfl).inr, hline.moved, hline.aligned⟩

/-- **Multipart bodies** end where a line begins, closed or not. -/
lemma run_multipart (hc : c.Live) (hb : Lookahead.OpensMultipart c.rest) :
    LineRun e 45 (Form.multipart e) c c.multipart := by
  simp only [multipart, node]
  have hfirst := run_firstBoundary (e := e) hc.opened hb.1 (lt_boundaryTextEnd (c := c.opened) hb)
  obtain ⟨hloop, ha⟩ := Run.loop (by decide)
    (fun d hd ha => run_multipartTurn (e := e) c.span hd ha) hfirst.live hfirst.aligned
  refine LineRun.node ⟨(hfirst.toRun.trans hloop).weaken (by omega) (mul_assoc ..).ge, ?_, ha⟩
  exact hfirst.moved.trans_le hloop.read_le

/-! ### Forms -/

/-- The line is not over: a token is ahead, or the cursor stands in its middle. -/
def Midway (c : Cursor) : Prop :=
  c.rest ≠ [] ∨ c.lineStart = false

lemma Run.midway (h : Run e k L c c') (hle : c'.read ≤ c.lineEnd) (hm : c.Midway) :
    c'.Midway := by
  obtain ⟨ts, _, htook, _⟩ := h.grew
  have hread := htook.read
  have hts : c.rest.take ts.length = ts := by rw [htook.rest, List.take_left]
  cases hl : ts.getLast? with
  | none =>
      obtain rfl := List.getLast?_eq_none_iff.mp hl
      rwa [Midway, (h.still hread).1, htook.lineStart]
  | some t =>
      have ht := List.mem_of_getLast? hl
      have hk : t.kind ≠ .newline := by
        rw [← hts] at ht
        rw [lineEnd] at hle
        exact Lookahead.kind_of_mem_take (by omega) ht
      right
      rw [htook.lineStart, hl]
      simpa using hk

/-- An equals sign and the blanks behind it stay on their line. -/
lemma run_equals (hc : c.Live) (hs : c.sees .equals) :
    Run e 1 (Form.operator .equals * Form.blank) c c.operator.eatBlank ∧
      c.operator.eatBlank.read ≤ c.lineEnd ∧ c.operator.eatBlank.lineEnd = c.lineEnd := by
  obtain ⟨hop, hread⟩ := run_operator (e := e) hc hs
  obtain ⟨hblank, _⟩ := run_eatBlank (e := e) hop.live
  have hlt := read_lt_lineEnd_of_sees hs (by decide)
  have hstay := hop.stays (by omega) (eatBlank_le_lineEnd hop.live)
  exact ⟨hop.trans hblank, hstay, (hop.trans hblank).lineEnd_eq hstay⟩

lemma run_formValue {line : Nat} (hc : c.Live) (hs : c.sees .equals) (hl : c.lineEnd = line) :
    Run e 11 (Form.formValue e) c (c.formValue line) ∧ (c.formValue line).read ≤ line := by
  simp only [formValue]
  obtain ⟨hequals, hstay, hline⟩ := run_equals (e := e) hc hs
  have ho := outsideVariables_bounds (c := c.operator.eatBlank) paramValueEndKinds
    (show c.operator.eatBlank.read ≤ line by omega)
  have hb := trimmedEnd_bounds ho.1
  obtain ⟨hpart, hread⟩ := run_part (e := e) (K := .formParamValue) hequals.live
    (hb.2.trans (ho.2.trans (by omega)))
  exact ⟨hequals.trans hpart, by omega⟩

/-- Where a value was announced, its equals sign is found after the name. -/
lemma sees_formValue {nameStop : Nat} (hc : c.Live) (h : c.read ≤ nameStop)
    (hl : nameStop ≤ c.lineEnd)
    (hv : Lookahead.startsWith .equals (c.rest.drop (nameStop - c.read))) :
    (c.opened.part .formParamName (c.trimmedEnd nameStop)).eatBlank.sees .equals ∧
      (c.opened.part .formParamName (c.trimmedEnd nameStop)).eatBlank.lineEnd = c.lineEnd := by
  have hf := hl.trans c.lineEnd_le_finish
  have hb := trimmedEnd_bounds h
  obtain ⟨hname, hread⟩ := run_part (e := true) (K := .formParamName) hc.opened (hb.2.trans hl)
  have hread' : (c.opened.part .formParamName (c.trimmedEnd nameStop)).read
      = c.trimmedEnd nameStop := hread.trans (max_eq_right hb.1)
  obtain ⟨hblank, _⟩ := run_eatBlank (e := true) hname.live
  have hnot : ¬Lookahead.startsWith .whitespace (c.rest.drop (nameStop - c.read)) := by
    obtain ⟨t, us, hr, hk⟩ := Lookahead.exists_of_startsWith hv
    simp [hr, hk]
  have hat := hname.read_eatBlank hread'.ge (hread'.trans_le hb.2) hf hnot
  refine ⟨?_, (hname.trans hblank).lineEnd_eq (hat.trans_le hl)⟩
  rw [sees, (hname.trans hblank).rest_eq, hat]
  exact hv

/-- **Form parameters with a name and a value** stay on their line. -/
lemma run_valuedParam {nameStop : Nat} (hc : c.Live)
    (hn : c.outsideVariables formNameEndKinds c.lineEnd = nameStop)
    (h : c.read < c.trimmedEnd nameStop)
    (hv : Lookahead.startsWith .equals (c.rest.drop (nameStop - c.read))) :
    Run e 22 (Form.valuedParam e) c c.formParam ∧ c.formParam.read ≤ c.lineEnd := by
  have ho := outsideVariables_bounds formNameEndKinds c.read_le_lineEnd
  rw [hn] at ho
  have hb := trimmedEnd_bounds ho.1
  simp only [formParam, hn, hv, Bool.not_true, Bool.and_false, Bool.false_eq_true, if_false,
    if_true, node]
  obtain ⟨hname, hread⟩ := run_part_of_lt (e := e) (K := .formParamName) hc.opened
    (hb.2.trans ho.2) h
  obtain ⟨hblank, _⟩ := run_eatBlank (e := e) hname.live
  obtain ⟨hs, hline⟩ := sees_formValue hc ho.1 ho.2 hv
  obtain ⟨hval, hle⟩ := run_formValue (e := e) hblank.live hs hline
  have hrun := (hname.trans hblank).trans hval
  generalize (c.opened.part .formParamName (c.trimmedEnd nameStop)).eatBlank.formValue c.lineEnd
    = d at *
  exact ⟨hrun.node, hle⟩

/-- **Form parameters with a name** stay on their line. -/
lemma run_namedParam (hc : c.Live)
    (h : c.read < c.trimmedEnd (c.outsideVariables formNameEndKinds c.lineEnd)) :
    Run e 22 (Form.namedParam e) c c.formParam ∧ c.formParam.read ≤ c.lineEnd := by
  by_cases hv : Lookahead.startsWith .equals
      (c.rest.drop (c.outsideVariables formNameEndKinds c.lineEnd - c.read))
  · obtain ⟨hrun, hle⟩ := run_valuedParam (e := e) hc rfl h hv
    exact ⟨hrun.weaken le_rfl (Form.valuedParam_le e), hle⟩
  have ho := outsideVariables_bounds formNameEndKinds c.read_le_lineEnd
  have hb := trimmedEnd_bounds ho.1
  simp only [formParam]
  generalize c.outsideVariables formNameEndKinds c.lineEnd = nameStop at *
  rw [if_neg (by simp [h.ne'])]
  simp only [node]
  obtain ⟨hname, hread⟩ := run_part_of_lt (e := e) (K := .formParamName) hc.opened
    (hb.2.trans ho.2) h
  obtain ⟨hblank, _⟩ := run_eatBlank (e := e) hname.live
  have hnone := (Run.refl (e := e) hblank.live).absent (L := Form.formValue e)
  rw [if_neg hv]
  exact ⟨(((hname.trans hblank).trans hnone).weaken (by omega) le_rfl).node,
    hname.stays (hread.trans_le (hb.2.trans ho.2)) (eatBlank_le_lineEnd hname.live)⟩

/-- **Form parameters without a name** have an equals sign. -/
lemma run_namelessParam {nameStop : Nat} (hc : c.Live)
    (hn : c.outsideVariables formNameEndKinds c.lineEnd = nameStop)
    (h : c.trimmedEnd nameStop = c.read)
    (hv : Lookahead.startsWith .equals (c.rest.drop (nameStop - c.read))) :
    Run e 22 (Form.namelessParam e) c c.formParam ∧ c.formParam.read ≤ c.lineEnd := by
  have ho := outsideVariables_bounds formNameEndKinds c.read_le_lineEnd
  rw [hn] at ho
  obtain ⟨hs, hline⟩ := sees_formValue hc ho.1 ho.2 hv
  have hnone : c.opened.part .formParamName (c.trimmedEnd nameStop) = c.opened := by
    have hnot : ¬c.opened.read < c.trimmedEnd nameStop := h.le.not_gt
    rw [part, if_neg hnot]
  rw [hnone] at hs hline
  simp only [formParam, hn, hv, Bool.not_true, Bool.and_false, if_true, node, hnone]
  obtain ⟨hblank, _⟩ := run_eatBlank (e := e) hc.opened
  obtain ⟨hval, hle⟩ := run_formValue (e := e) hblank.live hs hline
  exact ⟨((hblank.trans hval).weaken (by omega) le_rfl).node, hle⟩

/-- **Form parameters** stay on their line. -/
lemma run_formParam (hc : c.Live) :
    Run e 22 (Form.opt (Form.formParam e)) c c.formParam ∧ c.formParam.read ≤ c.lineEnd := by
  have ho := outsideVariables_bounds formNameEndKinds c.read_le_lineEnd
  have hb := trimmedEnd_bounds ho.1
  rcases hb.1.lt_or_eq with hlt | heq
  · obtain ⟨hrun, hle⟩ := run_namedParam (e := e) hc hlt
    exact ⟨hrun.inl.present, hle⟩
  by_cases hv : Lookahead.startsWith .equals
      (c.rest.drop (c.outsideVariables formNameEndKinds c.lineEnd - c.read))
  · obtain ⟨hrun, hle⟩ := run_namelessParam (e := e) hc rfl heq.symm hv
    exact ⟨hrun.inr.present, hle⟩
  · have hnone : c.formParam = c := by
      simp only [formParam]
      rw [if_pos (by simp [← heq, hv])]
    rw [hnone]
    exact ⟨((Run.refl hc).weaken (Nat.zero_le _) le_rfl).absent, c.read_le_lineEnd⟩

/-- The end of a line, if the form goes on below. -/
def formBreak : Cursor → Cursor :=
  on .newline (fun c => if formContinues (c.rest.drop 1) then c.bump else c) id

lemma run_formBreak (hc : c.Live) (hm : c.Midway) :
    Run e 1 Form.lineEnd c c.formBreak ∧ c.formBreak.Midway := by
  have hlook := run_look (e := e) hc
  have hm' : c.look.Midway := by rwa [Midway, look_rest, look_lineStart]
  by_cases hn : c.sees .newline
  · rw [formBreak, on_pos hn, look_rest]
    split_ifs with hmore
    · obtain ⟨hrun, hread⟩ := run_bump (e := e) hlook.live ((look_sees _ _).trans hn)
      refine ⟨(hrun.after hlook).present, Or.inl fun hnil => ?_⟩
      rw [hrun.rest_eq, hread, Nat.add_sub_cancel_left, look_rest] at hnil
      rw [hnil] at hmore
      exact absurd hmore (by decide)
    · exact ⟨hlook.absent, hm'⟩
  · rw [formBreak, on_neg hn]
    exact ⟨hlook.absent, hm'⟩

/-- A parameter of some form, and its ampersand if another one may follow. -/
lemma run_formTurn_of (hm : c.Midway)
    (hparam : Run e 22 L c c.formParam ∧ c.formParam.read ≤ c.lineEnd) :
    Turning e 24 (L * Form.operator .ampersand * Form.lineEnd) L Midway Midway c (formTurn c) := by
  obtain ⟨hparam, hend⟩ := hparam
  have hlook := run_look (e := e) hparam.live
  have hrun := hparam.quiet hlook
  have hm := hrun.midway (by rwa [look_read]) hm
  simp only [formTurn]
  by_cases hs : c.formParam.look.sees .ampersand
  · rw [if_pos hs]
    obtain ⟨hop, hread⟩ := run_operator (e := e) hlook.live hs
    have hlt := read_lt_lineEnd_of_sees hs (by decide)
    obtain ⟨hnl, hm⟩ := run_formBreak (e := e) hop.live (hop.midway (hread.trans_le hlt) hm)
    have hle := hrun.read_le
    have hle' := hnl.read_le
    exact ⟨(hrun.trans hop).trans hnl, (show c.read < _ by omega).trans_le hle', hm⟩
  · rw [if_neg hs]
    exact ⟨hrun.weaken (by omega) le_rfl, hm⟩

/-- A parameter, and its ampersand if another one may follow. -/
lemma run_formTurn (hc : c.Live) (hm : c.Midway) :
    Turning e 24 (Form.opt (Form.formParam e) * Form.operator .ampersand * Form.lineEnd)
      (Form.opt (Form.formParam e)) Midway Midway c (formTurn c) :=
  run_formTurn_of hm (run_formParam hc)

/-- A form begins with the name of a parameter. -/
lemma read_lt_of_isForm (h : Lookahead.isForm c.rest) :
    c.read < c.trimmedEnd (c.outsideVariables formNameEndKinds c.lineEnd) := by
  obtain ⟨t, us, hr, hk, hforbidden⟩ := Lookahead.exists_of_isForm h
  have hblank : t.kind ≠ .whitespace := by
    intro hw
    rw [hw] at hforbidden
    exact absurd hforbidden (by decide)
  have hname : formNameEndKinds.contains t.kind = false := by
    simp only [Lookahead.formFirstForbidden, KindSet.contains, List.contains_eq_mem, List.mem_cons,
      decide_eq_false_iff_not, not_or] at hforbidden
    simp [formNameEndKinds, KindSet.contains, hforbidden, hk]
  have hline : c.segment c.lineEnd = t :: Lookahead.line us := by
    rw [segment, lineEnd, Nat.add_sub_cancel_left, Lookahead.take_lineLength, hr]
    simp [Lookahead.line, hk]
  have hpos := Lookahead.lengthOutsideVariables_pos (Lookahead.line us) hname
  rw [← hline] at hpos
  obtain ⟨n, hn⟩ := Nat.exists_eq_add_of_le' hpos
  have hcut : c.segment (c.outsideVariables formNameEndKinds c.lineEnd) = t :: us.take n := by
    rw [segment, outsideVariables, Nat.add_sub_cancel_left, hn, hr, List.take_succ_cons]
  rw [trimmedEnd, hcut]
  exact Nat.lt_add_of_pos_right (Lookahead.trimmedLength_pos hblank)

/-- Where a form begins, the name of its first parameter ends at the equals sign that was found. -/
lemma startsWith_equals_of_isForm (h : Lookahead.isForm c.rest) :
    Lookahead.startsWith .equals
      (c.rest.drop (c.outsideVariables formNameEndKinds c.lineEnd - c.read)) := by
  obtain ⟨t, us, hr, _⟩ := Lookahead.exists_of_isForm h
  rw [hr, Lookahead.isForm, ← hr, Bool.and_eq_true] at h
  obtain ⟨v, vs, hdrop, hk⟩ := Lookahead.exists_of_startsWith h.2
  have hsub : ∀ k, formNameEndKinds.contains k → Lookahead.formSearchEnd.contains k := by
    intro k hk
    simp only [formNameEndKinds, Lookahead.formSearchEnd, KindSet.contains, List.contains_eq_mem,
      List.mem_cons, decide_eq_true_eq] at hk ⊢
    tauto
  have hline : (Lookahead.line c.rest).drop
      (Lookahead.lengthOutsideVariables Lookahead.formSearchEnd (Lookahead.line c.rest))
        = v :: Lookahead.line vs := by
    have hle := Lookahead.lengthOutsideVariables_le Lookahead.formSearchEnd (Lookahead.line c.rest)
    rw [← Lookahead.line_drop hle, hdrop]
    simp [Lookahead.line, hk]
  have hsame := Lookahead.lengthOutsideVariablesFrom_of_subset hsub hline (by rw [hk]; decide)
  have hsegment : c.segment c.lineEnd = Lookahead.line c.rest := by
    rw [segment, lineEnd, Nat.add_sub_cancel_left, Lookahead.take_lineLength]
  rw [outsideVariables, hsegment, Nat.add_sub_cancel_left, Lookahead.lengthOutsideVariables, hsame]
  exact h.2

/-- Form bodies end where a line begins, whatever form their first parameter has. -/
lemma run_formBody_of_first (hform : Lookahead.isForm c.rest)
    (hfirst : Run e 22 L c.opened c.opened.formParam ∧ c.opened.formParam.read ≤ c.lineEnd) :
    LineRun e 51 (Form.formBodyFrom e L) c c.formBody := by
  simp only [formBody, node]
  obtain ⟨t, us, hr, hk, _⟩ := Lookahead.exists_of_isForm hform
  have hm : c.opened.Midway := by
    left
    rw [opened, hr]
    exact List.cons_ne_nil t us
  obtain ⟨hloop, _⟩ := Run.loop_of_first (by decide)
    (fun d hd hm => run_formTurn (e := e) hd hm) (run_formTurn_of hm hfirst)
  obtain ⟨hend, ha, hge⟩ := run_endLine (e := e) hloop.live "unexpected text in form body"
  have hparams : L + L * Form.operator .ampersand * Form.lineEnd * Form.formParams e
      = L * Form.opt (Form.operator .ampersand * Form.lineEnd * Form.formParams e) := by
    rw [Form.opt, mul_add, mul_one]
    simp only [mul_assoc]
  refine LineRun.node ⟨(hloop.weaken le_rfl hparams.le).trans hend, ?_, ha⟩
  -- the loop has left the line, or the end of the line is behind it
  have hlt := read_lt_lineEnd hr hk
  rcases hloop.read_le.lt_or_eq with hmoved | hstill
  · exact hmoved.trans_le hend.read_le
  · have hline := hloop.lineEnd_eq (hstill.ge.trans c.opened.read_le_lineEnd)
    exact (hlt.trans_le hline.ge).trans_le hge

/-- **Form bodies** begin with a named parameter and end where a line begins. -/
lemma run_formBody (hc : c.Live) (hform : Lookahead.isForm c.rest) :
    LineRun e 51 (Form.formBody e) c c.formBody :=
  run_formBody_of_first hform
    (run_namedParam (e := e) hc.opened (read_lt_of_isForm (c := c.opened) hform))

/-! ### GraphQL -/

/-- What skipping blank lines keeps: all lines up to the bound are blank. -/
def BlankUntil (stop : Nat) (c : Cursor) : Prop :=
  c.Aligned ∧ c.read + Lookahead.blankLinesLength c.rest = stop

/-- In front of the bound there is a blank line. -/
lemma BlankUntil.ne_nil (hb : BlankUntil stop c) (h : c.read < stop) : c.rest ≠ [] := by
  intro hr
  obtain ⟨_, hstop⟩ := hb
  have hnil : Lookahead.blankLinesLength [] = 0 := rfl
  rw [hr] at hstop
  omega

lemma run_skipTurn (hc : c.Live) (hb : BlankUntil stop c) (h : c.read < stop) :
    Run e 2 Form.blankLine c c.eatBlankLine ∧ c.read < c.eatBlankLine.read ∧
      BlankUntil stop c.eatBlankLine := by
  have hne := hb.ne_nil h
  obtain ⟨_, hstop⟩ := hb
  have hblank : c.atBlankLine := by
    by_contra hnot
    rw [Lookahead.blankLinesLength_of_not_blank hnot] at hstop
    omega
  obtain ⟨hrun, ha, hread⟩ := run_eatBlankLine (e := e) hc hblank
  have hrest : c.eatBlankLine.rest = c.rest.drop (Lookahead.lineLength c.rest + 1) := by
    rw [hrun.rest_eq, hread, Nat.add_sub_cancel_left, List.length_take]
    rcases le_total (Lookahead.lineLength c.rest + 1) c.rest.length with hle | hle
    · rw [min_eq_left hle]
    · rw [min_eq_right hle, List.drop_length, List.drop_of_length_le hle]
  rw [Lookahead.blankLinesLength_of_blank hne hblank, ← hrest] at hstop
  exact ⟨hrun, (run_blankLine (e := e) hc hblank hne).moved, ha, by rw [hread]; omega⟩

/-- The turns of `skipTo`. -/
lemma run_skipLine_turn (d : Cursor) (hd : d.Live) (hb : BlankUntil stop d)
    (hmore : decide (d.read < stop) && !d.stopped) :
    Run e 2 Form.blankLine d d.eatBlankLine ∧ d.read < d.eatBlankLine.read ∧
      BlankUntil stop d.eatBlankLine := by
  simp only [Bool.and_eq_true, decide_eq_true_eq] at hmore
  exact run_skipTurn hd hb hmore.1

/-- **Skipping blank lines** ends exactly in front of the first line that is not blank. -/
lemma run_skipBlankLines (hc : c.Live) (ha : c.Aligned) :
    Run e 4 Form.blankLine∗ c (c.skipTo (c.read + Lookahead.blankLinesLength c.rest)) ∧
      (c.skipTo (c.read + Lookahead.blankLinesLength c.rest)).Aligned ∧
      (c.skipTo (c.read + Lookahead.blankLinesLength c.rest)).rest
        = c.rest.drop (Lookahead.blankLinesLength c.rest) := by
  generalize hs : c.read + Lookahead.blankLinesLength c.rest = stop
  obtain ⟨hrun, ⟨ha', hstop⟩, hdone⟩ : Run e 4 Form.blankLine∗ c (c.skipTo stop) ∧
      BlankUntil stop (c.skipTo stop) ∧
      (decide ((c.skipTo stop).read < stop) && !(c.skipTo stop).stopped) = false :=
    Run.loopWhile (by decide) run_skipLine_turn hc ⟨ha, hs⟩
  refine ⟨hrun, ha', ?_⟩
  have hread : (c.skipTo stop).read = stop := by
    by_contra hne
    have hlt : (c.skipTo stop).read < stop := by omega
    have hnil : (c.skipTo stop).rest = [] := by
      simpa [hlt, hrun.live.stopped_eq, atEnd] using hdone
    have hzero : Lookahead.blankLinesLength [] = 0 := rfl
    rw [hnil] at hstop
    omega
  rw [hrun.rest_eq, hread, ← hs, Nat.add_sub_cancel_left]

lemma run_graphqlVariables (hc : c.Live) (ha : c.Aligned) :
    Run e 6 (Form.opt (Form.blankLine∗ * Form.textBody .jsonBody)) c c.graphqlVariables ∧
      c.graphqlVariables.Aligned := by
  simp only [graphqlVariables]
  split_ifs
  · obtain ⟨hskip, ha', _⟩ := run_skipBlankLines (e := e) hc ha
    obtain ⟨hrun, _, ha''⟩ := run_textNode (e := e) (K := .jsonBody) hskip.live ha'
      (Lookahead.lineBreak_lengthBeforeTail Lookahead.isExternal _)
    exact ⟨(hskip.trans hrun).present, ha''⟩
  · exact ⟨((Run.refl hc).weaken (Nat.zero_le _) le_rfl).absent, ha⟩

lemma run_graphqlFile (hc : c.Live) (ha : c.Aligned) :
    Run e 19 (Form.opt (Form.blankLine∗ * Form.externalBody e)) c c.graphqlFile ∧
      c.graphqlFile.Aligned := by
  simp only [graphqlFile]
  split_ifs with hext
  · obtain ⟨hskip, ha', hrest⟩ := run_skipBlankLines (e := e) hc ha
    rw [← hrest] at hext
    have hrun := run_externalBody (e := e) hskip.live (Lookahead.startsWith_of_isExternal hext)
    exact ⟨(hskip.trans hrun.toRun).present, hrun.aligned⟩
  · exact ⟨((Run.refl hc).weaken (Nat.zero_le _) le_rfl).absent, ha⟩

/-- **GraphQL bodies** end where a line begins. -/
lemma run_graphqlBody (hc : c.Live) (ha : c.Aligned) (hne : c.rest ≠ []) :
    LineRun e 27 (Form.graphqlBody e) c c.graphqlBody := by
  simp only [graphqlBody, node]
  obtain ⟨hdata, hread, ha'⟩ := run_textNode (e := e) (K := .graphqlData) hc.opened ha
    (Lookahead.lineBreak_lengthBeforeTail Lookahead.isGraphqlTail _)
  obtain ⟨hvars, ha''⟩ := run_graphqlVariables (e := e) hdata.live ha'
  obtain ⟨hfile, ha'''⟩ := run_graphqlFile (e := e) hvars.live ha''
  have hpos := Lookahead.lengthBeforeTail_pos Lookahead.isGraphqlTail hne
  have hle := (hvars.trans hfile).read_le
  refine LineRun.node ⟨(hdata.trans hvars).trans hfile, ?_, ha'''⟩
  exact ((Nat.lt_add_of_pos_right hpos).trans_le hread.ge).trans_le hle

end Cursor

/-! ### Body sections -/

namespace BodyLine

/-- What is known about the tokens of a line of a body section, by what the line begins. -/
def Begins (ts : List Token) : BodyLine → Prop
  | .blank => Lookahead.isBlankLine ts
  | .comment => Lookahead.startsWith .hash ts ∨ Lookahead.startsWith .doubleSlash ts
  | .responseHandler => Lookahead.startsWith .angleClose ts
  | .redirect => Lookahead.startsWith .redirectMarker ts
  | .multipart => Lookahead.OpensMultipart ts
  | .external => Lookahead.startsWith .angleOpen ts
  | .form => Lookahead.isForm ts
  | .xml | .json | .graphql | .raw => ∃ t us, ts = t :: us ∧ t.kind ≠ .newline

lemma begins_formOrRaw {t : Token} {us : List Token} (hk : t.kind ≠ .newline) :
    Begins (t :: us) (formOrRaw (t :: us)) := by
  rw [formOrRaw]
  split_ifs with h
  · exact h
  · exact ⟨t, us, rfl, hk⟩

lemma begins_ofTokens (ts : List Token) : Begins ts (ofTokens ts) := by
  rw [ofTokens]
  by_cases hb : Lookahead.isBlankLine ts
  · rw [if_pos hb]
    exact hb
  rw [if_neg hb]
  obtain ⟨t, us, rfl, hk⟩ := Lookahead.exists_of_not_isBlankLine hb
  have hraw : Begins (t :: us) (formOrRaw (t :: us)) := begins_formOrRaw hk
  have hplain : ∃ v vs, t :: us = v :: vs ∧ v.kind ≠ .newline := ⟨t, us, rfl, hk⟩
  simp only [List.head?_cons, Option.map_some, List.drop_succ_cons, List.drop_zero]
  -- one case for each kind of token that may begin a body
  split
  · next h => exact Or.inl (by simpa using h)
  · next h => exact Or.inr (by simpa using h)
  · next h =>
      split_ifs
      · simpa [Begins] using h
      · exact hraw
  · next h =>
      split_ifs
      · simpa [Begins] using h
      · exact hraw
  · next h =>
      split_ifs with hopens
      · simp only [Bool.and_eq_true, Bool.not_eq_true'] at hopens
        have hmore : ¬Lookahead.isBlankLine us := by simp [hopens.1]
        obtain ⟨u, vs, rfl, hu⟩ := Lookahead.exists_of_not_isBlankLine hmore
        exact ⟨by simpa using h, u, vs, rfl, by simpa using hopens.2, hu⟩
      · exact hraw
  · next h =>
      split_ifs
      · simpa [Begins] using h
      · exact hplain
      · exact hraw
  · exact hplain
  · exact hplain
  · split_ifs
    · exact hplain
    · exact hraw
  · exact hraw

end BodyLine

namespace Cursor

variable {e : Bool} {c : Cursor}

/-- **Items of a body section** end where a line begins. -/
lemma run_bodyItem {line : BodyLine} (hc : c.Live) (ha : c.Aligned) (hne : c.rest ≠ [])
    (hb : line.Begins c.rest) : LineRun e 51 (Form.bodyItem e) c (c.bodyItem line) := by
  -- one bound for all items, that of forms
  cases line with
  | blank =>
      have h := (run_blankLine (e := e) hc hb hne).weaken (show 2 ≤ 51 by omega) le_rfl
      exact h.inl.inl.inl.inl.inl.inl.inl.inl.inl.inl
  | comment =>
      have h := (run_comment (e := e) hc hb).weaken (show 1 ≤ 51 by omega) le_rfl
      exact h.inr.inl.inl.inl.inl.inl.inl.inl.inl.inl
  | responseHandler =>
      have h := (run_responseHandler (e := e) hc hb).weaken (show 16 ≤ 51 by omega) le_rfl
      exact h.inr.inl.inl.inl.inl.inl.inl.inl.inl
  | redirect =>
      have h := (run_responseRedirect (e := e) hc hb).weaken (show 15 ≤ 51 by omega) le_rfl
      exact h.inr.inl.inl.inl.inl.inl.inl.inl
  | multipart =>
      have h := (run_multipart (e := e) hc hb).weaken (show 45 ≤ 51 by omega) le_rfl
      exact h.inr.inl.inl.inl.inl.inl.inl
  | external =>
      have h := (run_externalBody (e := e) hc hb).weaken (show 15 ≤ 51 by omega) le_rfl
      exact h.inr.inl.inl.inl.inl.inl
  | xml =>
      have h := (run_textBody (e := e) (K := .xmlBody) hc ha hne).weaken
        (show 2 ≤ 51 by omega) le_rfl
      exact h.inr.inl.inl.inl.inl
  | json =>
      have h := (run_textBody (e := e) (K := .jsonBody) hc ha hne).weaken
        (show 2 ≤ 51 by omega) le_rfl
      exact h.inr.inl.inl.inl
  | graphql =>
      have h := (run_graphqlBody (e := e) hc ha hne).weaken (show 27 ≤ 51 by omega) le_rfl
      exact h.inr.inl.inl
  | form =>
      exact (run_formBody (e := e) hc hb).inr.inl
  | raw =>
      have h := (run_rawBody (e := e) hc ha hne).weaken (show 2 ≤ 51 by omega) le_rfl
      exact h.inr

/-- The turns of `bodySection`. -/
lemma run_bodyItem_turn (f : Cursor) (hf : f.Live) (ha : f.Aligned)
    (hmore : !f.stopped && !f.atSeparator) :
    Run e 51 (Form.bodyItem e) f (f.bodyItem (BodyLine.ofTokens f.rest)) ∧
      f.read < (f.bodyItem (BodyLine.ofTokens f.rest)).read ∧
      (f.bodyItem (BodyLine.ofTokens f.rest)).Aligned := by
  simp only [hf.stopped_eq, atEnd, Bool.and_eq_true, Bool.not_eq_true',
    List.isEmpty_eq_false_iff] at hmore
  have hline := run_bodyItem (e := e) hf ha hmore.1 (BodyLine.begins_ofTokens f.rest)
  exact ⟨hline.toRun, hline.moved, hline.aligned⟩

/-- Where a section ends: at a separator or at the end, and where a line begins. -/
def SectionEnd (c : Cursor) : Prop :=
  c.Aligned ∧ (c.rest = [] ∨ c.atSeparator)

lemma SectionEnd.closed (h : SectionEnd c) (K : Kind) (before : Array Tree) :
    SectionEnd (c.closed K before) := h

lemma SectionEnd.raised (h : SectionEnd c) : SectionEnd c.raised := h

/-- **Body sections** run to a separator or to the end. -/
lemma run_bodySection (hc : c.Live) (ha : c.Aligned) :
    Run e 0 (Form.bodyItem e)∗ c c.bodySection ∧ SectionEnd c.bodySection := by
  obtain ⟨hrun, ha', hdone⟩ := Run.loopWhile (e := e) (by decide) run_bodyItem_turn hc.lowered
    (show c.lowered.Aligned from ha)
  have hend : SectionEnd (c.lowered.loopWhile (fun c => !c.stopped && !c.atSeparator)
      fun c => c.bodyItem (BodyLine.ofTokens c.rest)) := by
    refine ⟨ha', ?_⟩
    rw [or_iff_not_imp_left]
    simpa [hrun.live.stopped_eq, atEnd] using hdone
  rw [bodySection, hc.nested_eq]
  exact ⟨hrun.raised (by decide), hend.raised⟩

end Cursor

end RequestFile
