import RequestFile.Proofs.Body
import RequestFile.Proofs.Twin.Head

/-!
Bodies side by side.

A body goes over many lines, so what follows behind the end can matter in two ways.

* **Measuring.** A text that is measured in whole lines ends at a separator where it would end at
  the end (`Twin.textBody`, `Twin.graphqlBody`), and the same holds of the search for what comes
  after blank lines.
* **Asking.** A multipart body asks on each line whether it is done (`Twin.multipartTurn`), and a
  form whether it goes on below (`Twin.formTurn`).
-/

namespace RequestFile

namespace Cursor

open Lookahead

variable {F : Frame} {pre : List Tree} {stop : Nat} {c d : Cursor}

namespace Twin

/-! ### Text and files -/

lemma textLine (h : Twin F pre c d) (hw : WithinInput stop c) (hlt : c.read < stop) :
    Twin F pre (c.textLine stop) (d.textLine (stop + F.read)) := by
  have hi : Inside F c := h.inside (rest_ne_nil (hlt.trans_le hw.2))
  have hmin : min d.lineEnd (stop + F.read) = min c.lineEnd stop + F.read := by
    rw [h.lineEnd_eq hi, Nat.add_min_add_right]
  have h' := h.textUntil ((min_le_left c.lineEnd stop).trans c.lineEnd_le_finish)
  simp only [Cursor.textLine, hmin, h'.read, Nat.add_lt_add_iff_right]
  split_ifs
  · exact h'.eatNewline
  · exact h'

/-- **Lines of text** up to the same position. -/
lemma textLines (h : Twin F pre c d) (hc : c.Live) (hw : WithinInput stop c) :
    Twin F pre (c.textLines stop) (d.textLines (stop + F.read)) := by
  refine loopWhile (I := WithinInput stop) (e := true) run_textLine_turn
    (fun c d _ hw h => h.more_eq fun hlt => rest_ne_nil (hlt.trans_le hw.2))
    (fun c d _ hw hmore h => ?_) hc hw h
  simp only [Bool.and_eq_true, decide_eq_true_eq] at hmore
  exact h.textLine hw hmore.1

/-- **Bodies of text** that were measured to be equally long. -/
lemma textNode {K : Kind} {n n' : Nat} (h : Twin F pre c d) (hc : c.Live) (hb : LineBreak c.rest n)
    (hn : n' = n) : Twin F pre (c.textNode K (c.read + n)) (d.textNode K (d.read + n')) := by
  have hstop : d.read + n' = c.read + n + F.read := by
    rw [h.read, hn, Nat.add_right_comm]
  rw [hstop]
  exact h.node fun h => h.textLines hc.opened
    (show WithinInput (c.read + n) c from ⟨Nat.le_add_right _ _, Nat.add_le_add_left hb.le _⟩)

lemma textBody {K : Kind} (h : Twin F pre c d) (hc : c.Live) (hne : c.rest ≠ []) :
    Twin F pre (c.textBody K) (d.textBody K) :=
  h.textNode hc (lineBreak_textLength isBodyStop c.rest)
    (h.same_lines hne fun ht hts hne => textLength_append ht hts hne fun l hl => by
      simp [isBodyStop, hl])

lemma rawBody (h : Twin F pre c d) (hc : c.Live) (hne : c.rest ≠ []) :
    Twin F pre c.rawBody d.rawBody :=
  h.textNode hc (lineBreak_textLength (fun l => isBlankLine l || isBodyStop l) c.rest)
    (h.same_lines hne fun ht hts hne => textLength_append ht hts hne fun l hl => by
      simp [isBodyStop, hl])

/-- The name of a file stays on its line. -/
lemma external (h : Twin F pre c d) (hc : c.Live) (hs : c.sees .angleOpen) :
    Twin F pre c.external d.external ∧ Inside F c.external := by
  obtain ⟨hopen, _⟩ := run_bump (e := true) hc hs
  obtain ⟨hat, _⟩ := run_eat (e := true) hopen.live .at
  obtain ⟨hblank, _⟩ := run_eatBlank (e := true) hat.live
  obtain ⟨hpath, hle⟩ := run_path (e := true) hblank.live
  have hi := (((h.inside_of_sees hs).bump hc hs (by decide)).eat hopen.live
    (show Kind.at ≠ .newline by decide)).eatBlank hat.live
  exact ⟨(((h.bump hs).eat (by decide)).eatBlank).path hblank.live hi, hpath.inside hle hi⟩

lemma externalBody (h : Twin F pre c d) (hc : c.Live) (hs : c.sees .angleOpen) :
    Twin F pre c.externalBody d.externalBody := by
  obtain ⟨hrun, _⟩ := run_external (e := true) hc.opened hs
  obtain ⟨h', hi⟩ := external ⟨opened h.toNear, h.last⟩ hc.opened hs
  exact (closed h.toNear h').endLine hrun.node.live _ hi

lemma multipartExternal (h : Twin F pre c d) (hc : c.Live) (hs : c.sees .angleOpen) :
    Twin F pre c.multipartExternal d.multipartExternal := by
  obtain ⟨hrun, _⟩ := run_external (e := true) hc.opened hs
  refine h.node fun h => ?_
  obtain ⟨h', hi⟩ := h.external hc.opened hs
  exact h'.endLine hrun.live _ hi

lemma eatBlankLine (h : Twin F pre c d) : Twin F pre c.eatBlankLine d.eatBlankLine :=
  h.eatBlank.eatNewline

/-! ### Multipart bodies -/

lemma boundaryTextEnd_eq (h : Near F pre c d) (hs : c.sees .doubleDash) :
    d.boundaryTextEnd = c.boundaryTextEnd + F.read := by
  rw [boundaryTextEnd, h.lineEnd_eq (h.inside_of_sees hs), h.segment_eq c.lineEnd_le_finish, h.read,
    boundaryTextEnd]
  omega

/-- Both find the same closing hyphens. -/
lemma boundaryHere_eq {textEnd : Nat} (h : Near F pre c d) (hl : textEnd ≤ c.lineEnd) :
    d.boundaryHere (textEnd + F.read) = c.boundaryHere textEnd := by
  have hlen : d.read + 2 < textEnd + F.read ↔ c.read + 2 < textEnd := by
    rw [h.read]
    omega
  have hdrop : textEnd + F.read - 1 - d.read = textEnd - 1 - c.read := by
    rw [h.read]
    omega
  have hf := hl.trans c.lineEnd_le_finish
  rw [finish] at hf
  have hdash := h.startsWith_drop_eq (show Kind.doubleDash ≠ .separatorMarker by decide)
    (show textEnd - 1 - c.read ≤ c.rest.length by omega)
  simp only [boundaryHere, hlen, hdrop, hdash]

/-- **Boundary lines** other than the last. -/
lemma openBoundary {b : Boundary} {textEnd : Nat} (h : Twin F pre c d) (hc : c.Live)
    (hs : c.sees .doubleDash) (hb : b ≠ .last) (hl : textEnd ≤ c.lineEnd) :
    Twin F pre (c.boundaryLine b textEnd) (d.boundaryLine b (textEnd + F.read)) := by
  simp only [Cursor.boundaryLine, if_neg hb]
  obtain ⟨hopen, _⟩ := run_bump (e := true) hc.opened hs
  have hline : c.opened.bump.lineEnd = c.lineEnd :=
    hopen.lineEnd_eq (bump_le_lineEnd hs (by decide))
  have hl' := hl.trans hline.ge
  obtain ⟨hpart, hread⟩ := run_part (e := true) (K := .boundaryValue) hopen.live hl'
  have hi : Inside F c.opened := h.inside_of_sees hs
  have hi := hi.bump hc.opened hs (by decide)
  have hle := hread.trans_le (max_le (read_le_lineEnd _) hl')
  exact h.node fun h => ((h.bump hs).part hopen.live hl' hi).endLine hpart.live _
    (hpart.inside hle hi)

/-- **The last boundary line** has its hyphens at the same place. -/
lemma lastBoundary {textEnd : Nat} (h : Twin F pre c d) (hc : c.Live) (hs : c.sees .doubleDash)
    (hl : textEnd ≤ c.lineEnd) (hb : c.boundaryHere textEnd = .last) :
    Twin F pre (c.boundaryLine .last textEnd) (d.boundaryLine .last (textEnd + F.read)) := by
  obtain ⟨hlen, hsees⟩ := sees_closingHyphens hc hs hl hb
  have hmark : textEnd + F.read - 1 = textEnd - 1 + F.read := by omega
  simp only [Cursor.boundaryLine, if_true, hmark]
  obtain ⟨hopen, _⟩ := run_bump (e := true) hc.opened hs
  have hline : c.opened.bump.lineEnd = c.lineEnd :=
    hopen.lineEnd_eq (bump_le_lineEnd hs (by decide))
  have hl' : textEnd - 1 ≤ c.opened.bump.lineEnd := by omega
  obtain ⟨hpart, hread⟩ := run_part (e := true) (K := .boundaryValue) hopen.live hl'
  obtain ⟨hclose, _⟩ := run_bump (e := true) hpart.live hsees
  have hi : Inside F c.opened := h.inside_of_sees hs
  have hi := hi.bump hc.opened hs (by decide)
  have hle := hread.trans_le (max_le (read_le_lineEnd _) hl')
  refine h.node fun h => ?_
  have h := ((h.bump hs).part (K := .boundaryValue) hopen.live hl' hi).bump hsees
  exact h.endLine hclose.live _ ((hpart.inside hle hi).bump hpart.live hsees (by decide))

lemma multipartContent (h : Twin F pre c d) (hne : c.rest ≠ []) :
    Twin F pre c.multipartContent d.multipartContent := by
  have hi : Inside F c.opened := h.inside hne
  refine h.node fun h => ?_
  rw [h.lineEnd_eq hi]
  exact (h.textUntil (lineEnd_le_finish _)).eatNewline

/-- **Lines of a multipart body**: a separator leaves it open as the end does. -/
lemma multipartTurn {opener opener' : Span} (h : Twin F pre c d) (hc : c.Live)
    (ho : opener' = opener.shift F.offset) :
    Turn.Twin F pre (multipartTurn opener c) (multipartTurn opener' d) := by
  have hlook := run_look (e := true) hc
  have hlookne := look_rest c
  have hhandler : isHandler d.rest = isHandler c.rest := by
    rw [h.rest, isHandler_append h.opens]
  simp only [Cursor.multipartTurn, h.stopped_or_atSeparator, hhandler]
  by_cases hend : (c.stopped || c.atSeparator || isHandler c.rest) = true
  · rw [if_pos hend, if_pos hend]
    exact h.reportUnclosed _ _ _ ho
  rw [if_neg hend, if_neg hend]
  -- from here on there is a line, and both sources see the same of it
  have hne : c.rest ≠ [] := by
    simp only [hc.stopped_eq, atEnd, Bool.or_eq_true, not_or, List.isEmpty_iff] at hend
    exact hend.1.1
  have hi := h.inside hne
  have hblank : d.atBlankLine = c.atBlankLine := h.same_line hi lineLocal_isBlankLine
  rw [hblank]
  by_cases hb : c.atBlankLine
  · rw [if_pos hb, if_pos hb]
    exact h.eatBlankLine
  rw [if_neg hb, if_neg hb]
  have h := h.look
  have hi := hi.look
  rw [← hlookne] at hne
  generalize c.look = c at *
  generalize d.look = d at *
  have hbound : isBoundary d.rest = isBoundary c.rest := h.same_line hi lineLocal_isBoundary
  have hext : isExternal d.rest = isExternal c.rest := h.same_line hi lineLocal_isExternal
  have hheader : isHeader d.rest = isHeader c.rest := h.same_line hi lineLocal_isHeader
  rw [hbound, hext, hheader]
  split_ifs with hisb hise hish
  · simp only [isBoundary, Bool.and_eq_true] at hisb
    have hs : c.sees .doubleDash := hisb.1
    have hl := (boundaryTextEnd_bounds hs).2
    rw [boundaryTextEnd_eq h.toNear hs, boundaryHere_eq h.toNear hl]
    cases hb : c.boundaryHere c.boundaryTextEnd with
    | last => exact h.lastBoundary hlook.live hs hl hb
    | inner => exact h.openBoundary hlook.live hs (by decide) hl
    | first => exact h.openBoundary hlook.live hs (by decide) hl
  · exact h.multipartExternal hlook.live (startsWith_of_isExternal hise)
  · exact h.header hlook.live (seesIn_of_isHeader hish) hi
  · exact h.multipartContent hne

/-- **Multipart bodies**, closed or not. -/
lemma multipart (h : Twin F pre c d) (hc : c.Live) (hs : c.sees .doubleDash) :
    Twin F pre c.multipart d.multipart := by
  have hspan := h.span_eq (h.inside_of_sees hs)
  have hl := (boundaryTextEnd_bounds (c := c.opened) hs).2
  have hfirst := run_openBoundary (e := true) (b := .first) hc.opened hs (by decide) hl
  simp only [Cursor.multipart]
  refine h.node fun h => ?_
  rw [boundaryTextEnd_eq (c := c.opened) h.toNear hs]
  exact loop (fun f hf ha => run_multipartTurn (e := true) c.span hf ha)
    (fun _ _ hc _ h => h.multipartTurn hc hspan) hfirst.live hfirst.aligned
    (h.openBoundary hc.opened hs (by decide) hl)

/-! ### Forms -/

lemma inside_of_midway (h : Near F pre c d) (hm : c.Midway) : Inside F c :=
  hm.elim h.inside h.inside_of_midline

/-- The equals sign of a parameter and its value stay on their line. -/
lemma formValue (h : Twin F pre c d) (hc : c.Live) (hs : c.sees .equals) (hl : c.lineEnd = stop)
    (hi : Inside F c) : Twin F pre (c.formValue stop) (d.formValue (stop + F.read)) := by
  obtain ⟨hequals, hstay, hline⟩ := run_equals (e := true) hc hs
  have hi := hequals.inside hstay hi
  have h := (h.operator hs).eatBlank
  simp only [Cursor.formValue]
  generalize c.operator.eatBlank = c at *
  generalize d.operator.eatBlank = d at *
  have hf : stop ≤ c.finish := by
    rw [← hl, ← hline]
    exact c.lineEnd_le_finish
  have ho := outsideVariables_bounds paramValueEndKinds (show c.read ≤ stop by omega)
  have hb := trimmedEnd_bounds ho.1
  rw [h.outsideVariables_eq _ hf, h.trimmedEnd_eq (ho.2.trans hf)]
  exact h.part hequals.live (hb.2.trans (ho.2.trans (hl.symm.trans hline.symm).le)) hi

/-- **Form parameters** stay on their line. -/
lemma formParam (h : Twin F pre c d) (hc : c.Live) (hi : Inside F c) :
    Twin F pre c.formParam d.formParam := by
  have hf := c.lineEnd_le_finish
  have ho := outsideVariables_bounds formNameEndKinds c.read_le_lineEnd
  have hb := trimmedEnd_bounds ho.1
  have hline := h.lineEnd_eq hi
  have hstop := h.outsideVariables_eq formNameEndKinds hf
  have hname := h.trimmedEnd_eq (ho.2.trans hf)
  simp only [Cursor.formParam, hline, hstop, hname]
  generalize c.outsideVariables formNameEndKinds c.lineEnd = nameStop at *
  have hdrop : nameStop + F.read - d.read = nameStop - c.read := by
    rw [h.read]
    omega
  have hle : nameStop - c.read ≤ c.rest.length := by
    have := ho.2.trans hf
    rw [finish] at this
    omega
  rw [hdrop, h.startsWith_drop_eq (by decide) hle]
  simp only [h.read, Nat.add_right_cancel_iff]
  -- a parameter without a name and a value takes nothing
  by_cases hnone : (decide (c.trimmedEnd nameStop = c.read) &&
      !startsWith .equals (c.rest.drop (nameStop - c.read))) = true
  · rw [if_pos hnone, if_pos hnone]
    exact h
  rw [if_neg hnone, if_neg hnone]
  refine h.node fun h => ?_
  obtain ⟨hpart, hread⟩ := run_part (e := true) (K := .formParamName) hc.opened (hb.2.trans ho.2)
  obtain ⟨hblank, _⟩ := run_eatBlank (e := true) hpart.live
  have hle' := hread.trans_le (max_le c.read_le_lineEnd (hb.2.trans ho.2))
  have hi' := (hpart.inside hle' hi).eatBlank hpart.live
  have h := (h.part (K := .formParamName) hc.opened (hb.2.trans ho.2) hi).eatBlank
  split_ifs with hv
  · obtain ⟨hs, hline⟩ := sees_formValue hc ho.1 ho.2 hv
    exact h.formValue hblank.live hs hline hi'
  · exact h

lemma formBreak (h : Twin F pre c d) : Twin F pre c.formBreak d.formBreak := by
  refine h.on (by decide) (fun hs h => ?_) fun _ h => h
  rw [← look_sees c .newline] at hs
  obtain ⟨t, us, hr, _⟩ := exists_of_sees hs
  rw [h.same_drop (by rw [hr, List.length_cons]; omega) formContinues_append]
  split_ifs
  · exact h.bump hs
  · exact h

lemma formTurn (h : Twin F pre c d) (hc : c.Live) (hm : c.Midway) :
    Turn.Twin F pre (formTurn c) (formTurn d) := by
  have h := (h.formParam hc (inside_of_midway h.toNear hm)).look
  simp only [Cursor.formTurn]
  rw [h.sees_eq (by decide)]
  split_ifs with hs
  · exact (h.operator hs).formBreak
  · exact h

/-- **Form bodies** end with their last line. -/
lemma formBody (h : Twin F pre c d) (hc : c.Live) (hne : c.rest ≠ []) :
    Twin F pre c.formBody d.formBody := by
  have hm : c.opened.Midway := Or.inl hne
  obtain ⟨hloop, hm'⟩ := Run.loop (by decide)
    (fun f hf hm => run_formTurn (e := true) hf hm) hc.opened hm
  refine h.node fun h => ?_
  have h := loop (fun f hf hm => run_formTurn (e := true) hf hm)
    (fun _ _ hc hm h => h.formTurn hc hm) hc.opened hm h
  exact h.endLine hloop.live _ (inside_of_midway h.toNear hm')

/-! ### GraphQL -/

/-- Blank lines up to the same position. -/
lemma skipBlankLines (h : Twin F pre c d) (hc : c.Live) (ha : c.Aligned) :
    Twin F pre (c.skipTo (c.read + blankLinesLength c.rest))
      (d.skipTo (d.read + blankLinesLength c.rest)) := by
  have hstop : d.read + blankLinesLength c.rest = c.read + blankLinesLength c.rest + F.read := by
    rw [h.read, Nat.add_right_comm]
  rw [hstop]
  exact loopWhile (I := BlankUntil _) (e := true) run_skipLine_turn
    (fun _ _ _ hb h => h.more_eq hb.ne_nil) (fun _ _ _ _ _ h => h.eatBlankLine) hc ⟨ha, rfl⟩ h

lemma blankLinesLength_eq (h : Near F pre c d) :
    blankLinesLength d.rest = blankLinesLength c.rest := by
  have hsame := h.same_drop (Nat.zero_le _) (f := blankLinesLength) blankLinesLength_append
  rwa [List.drop_zero, List.drop_zero] at hsame

lemma graphqlVariables (h : Twin F pre c d) (hc : c.Live) (ha : c.Aligned) :
    Twin F pre c.graphqlVariables d.graphqlVariables := by
  have hle := (lineBreak_blankLinesLength c.rest).le
  have hjson : isJson (d.rest.drop (blankLinesLength c.rest))
      = isJson (c.rest.drop (blankLinesLength c.rest)) :=
    h.same_drop hle isJson_append
  simp only [Cursor.graphqlVariables, blankLinesLength_eq h.toNear, hjson]
  split_ifs with hj
  · obtain ⟨hskip, _, hrest⟩ := run_skipBlankLines (e := true) hc ha
    have h := h.skipBlankLines hc ha
    rw [← hrest] at hj
    generalize c.skipTo (c.read + blankLinesLength c.rest) = c at *
    generalize d.skipTo (d.read + blankLinesLength _) = d at *
    have hne : c.rest ≠ [] := by
      intro hnil
      rw [hnil] at hj
      exact absurd hj (by decide)
    exact h.textNode hskip.live (lineBreak_lengthBeforeTail isExternal c.rest)
      (h.same_lines hne fun ht hts hne => lengthBeforeTail_append _ ht hts hne)
  · exact h

lemma graphqlFile (h : Twin F pre c d) (hc : c.Live) (ha : c.Aligned) :
    Twin F pre c.graphqlFile d.graphqlFile := by
  have hle := (lineBreak_blankLinesLength c.rest).le
  have hext : isExternal (d.rest.drop (blankLinesLength c.rest))
      = isExternal (c.rest.drop (blankLinesLength c.rest)) :=
    h.same_drop hle isExternal_append
  simp only [Cursor.graphqlFile, blankLinesLength_eq h.toNear, hext]
  split_ifs with hx
  · obtain ⟨hskip, _, hrest⟩ := run_skipBlankLines (e := true) hc ha
    rw [← hrest] at hx
    exact (h.skipBlankLines hc ha).externalBody hskip.live (startsWith_of_isExternal hx)
  · exact h

/-- **GraphQL bodies** with all their parts. -/
lemma graphqlBody (h : Twin F pre c d) (hc : c.Live) (ha : c.Aligned) (hne : c.rest ≠ []) :
    Twin F pre c.graphqlBody d.graphqlBody := by
  have hbreak := lineBreak_lengthBeforeTail isGraphqlTail c.rest
  obtain ⟨hdata, _, ha'⟩ := run_textNode (e := true) (K := .graphqlData) hc.opened ha hbreak
  obtain ⟨hvars, ha''⟩ := run_graphqlVariables (e := true) hdata.live ha'
  refine h.node fun h => ?_
  have h := h.textNode (K := .graphqlData) hc.opened hbreak
    (h.same_lines hne fun ht hts hne => lengthBeforeTail_append _ ht hts hne)
  exact (h.graphqlVariables hdata.live ha').graphqlFile hvars.live ha''

/-! ### Body sections -/

/-- **Items of a body section**, by what their first line begins. -/
lemma bodyItem {line : BodyLine} (h : Twin F pre c d) (hc : c.Live) (ha : c.Aligned)
    (hne : c.rest ≠ []) (hb : line.Begins c.rest) :
    Twin F pre (c.bodyItem line) (d.bodyItem line) := by
  cases line with
  | blank => exact h.eatBlankLine
  | comment => exact h.comment hc hb
  | responseHandler => exact h.responseHandler hc hb
  | redirect => exact h.responseRedirect hc hb
  | multipart => exact h.multipart hc hb.1
  | external => exact h.externalBody hc hb
  | xml => exact h.textBody hc hne
  | json => exact h.textBody hc hne
  | graphql => exact h.graphqlBody hc ha hne
  | form => exact h.formBody hc hne
  | raw => exact h.rawBody hc hne

/-- **Body sections** end at the end as they do at a separator. -/
lemma bodySection (h : Twin F pre c d) (hc : c.Live) (ha : c.Aligned) :
    Twin F pre c.bodySection d.bodySection := by
  refine nested h.toNear fun c' d' hlike hlike' => ?_
  have ha' : c'.Aligned := by
    obtain ⟨_, _, _, rfl⟩ := hlike
    exact ha
  refine loopWhile (I := Aligned) (e := true) run_bodyItem_turn
    (fun _ _ _ _ h => h.not_stopped_and_not_atSeparator) (fun c d hc ha hmore h => ?_)
    (hlike.live hc) ha' (h.congr hlike hlike')
  have hne : c.rest ≠ [] := by
    simp only [hc.stopped_eq, atEnd, Bool.and_eq_true, Bool.not_eq_true',
      List.isEmpty_eq_false_iff] at hmore
    exact hmore.1
  rw [h.same (h.inside hne) bodyLine_append]
  exact h.bodyItem hc ha hne (BodyLine.begins_ofTokens c.rest)

end Twin

end Cursor

end RequestFile
