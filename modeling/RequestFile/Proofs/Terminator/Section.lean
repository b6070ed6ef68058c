import RequestFile.Proofs.Terminator.Head

/-!
Bodies and sections of a recoded source.

Text bodies take whole lines, so they go over terminators; these are leaves of their own, and the
numbers of tokens in a line are the same on both sides. From the steps of all productions follows
that whole parses stay side by side (`Cursor.Recast.sections`).
-/

namespace RequestFile

namespace Cursor

open Lookahead

variable {e : Terminator} {source : String} {c d : Cursor} {k : Kind} {stop stop' : Nat}
  {opener opener' : Span}

namespace Recast

/-! ### Text and files -/

lemma textLines (h : Recast e source c d) (stop : Nat) :
    Recast e source (c.textLines stop) (d.textLines stop) := by
  refine h.loopUntil stop fun {c d} h => ?_
  have h' : Recast e source (c.textUntil (min c.lineEnd stop)) (d.textUntil (min d.lineEnd stop)) :=
    h.textUntil (by rw [h.lineEnd_eq])
  exact h'.ifBefore stop h'.eatNewline

lemma textNode (h : Recast e source c d) (hs : stop' = stop) :
    Recast e source (c.textNode k stop) (d.textNode k stop') := by
  subst hs
  exact h.node fun h => h.textLines stop'

lemma textBody (h : Recast e source c d) : Recast e source (c.textBody k) (d.textBody k) :=
  h.textNode (by rw [h.read, h.rest, e.textLength_map _ lineLocal_isBodyStop])

lemma rawBody (h : Recast e source c d) : Recast e source c.rawBody d.rawBody :=
  h.textNode (by rw [h.read, h.rest, e.textLength_map _
    (lineLocal_isBlankLine.or lineLocal_isBodyStop)])

lemma finishPathLine (h : Recast e source c d) :
    Recast e source c.finishPathLine d.finishPathLine :=
  (h.eatBlank.finishLine _).eatNewline

lemma external (h : Recast e source c d) : Recast e source c.external d.external :=
  ((h.bump.eat .at).eatBlank).path

lemma externalBody (h : Recast e source c d) : Recast e source c.externalBody d.externalBody :=
  (h.node external).finishPathLine

lemma multipartExternal (h : Recast e source c d) :
    Recast e source c.multipartExternal d.multipartExternal :=
  h.node fun h => h.external.finishPathLine

/-! ### Multipart bodies -/

lemma boundaryTextEnd_eq (h : Recast e source c d) : d.boundaryTextEnd = c.boundaryTextEnd := by
  rw [boundaryTextEnd, h.segment_eq, ← List.map_drop, e.lengthOutsideVariables_map, h.read,
    h.lineEnd_eq, boundaryTextEnd]

lemma boundaryHere_eq (h : Recast e source c d) (textEnd : Nat) :
    d.boundaryHere textEnd = c.boundaryHere textEnd := by
  simp only [boundaryHere, h.read, h.drop_eq, e.startsWith_map]

lemma boundaryLine (h : Recast e source c d) (b : Boundary) (hs : stop' = stop) :
    Recast e source (c.boundaryLine b stop) (d.boundaryLine b stop') := by
  subst hs
  refine h.node fun h => ?_
  dsimp only
  split_ifs
  · exact ((h.bump.part rfl).bump.eatBlank.finishLine _).eatNewline
  · exact ((h.bump.part rfl).eatBlank.finishLine _).eatNewline

lemma multipartContent (h : Recast e source c d) :
    Recast e source c.multipartContent d.multipartContent :=
  h.node fun h => (h.textUntil h.lineEnd_eq).eatNewline

lemma multipartTurn (h : Recast e source c d) (ho : opener' = opener.move (e.offset source)) :
    Turn.Recast e source (multipartTurn opener c) (multipartTurn opener' d) := by
  have h' := h.look
  simp only [Cursor.multipartTurn, h.stopped_eq, h.atSeparator_eq, h.atBlankLine_eq,
    h.rest, h'.rest, e.same_line lineLocal_isHandler, e.same_line lineLocal_isBoundary,
    e.same_line lineLocal_isExternal, e.same_line lineLocal_isHeader,
    h'.boundaryTextEnd_eq, h'.boundaryHere_eq]
  split_ifs
  · exact h.reportUnclosed _ _ _ ho
  · exact h.eatBlankLine
  · cases c.look.boundaryHere c.look.boundaryTextEnd <;> exact h'.boundaryLine _ rfl
  · exact h'.multipartExternal
  · exact h'.header
  · exact h'.multipartContent

lemma multipart (h : Recast e source c d) : Recast e source c.multipart d.multipart := by
  simp only [Cursor.multipart]
  exact h.node fun h' =>
    (h'.boundaryLine .first h'.boundaryTextEnd_eq).loop fun h' => h'.multipartTurn h.span_eq

/-! ### Forms -/

lemma formValue (h : Recast e source c d) (hs : stop' = stop) :
    Recast e source (c.formValue stop) (d.formValue stop') :=
  h.operator.eatBlank.part (h.operator.eatBlank.trimmedEnd_eq
    (h.operator.eatBlank.outsideVariables_eq _ hs))

lemma formParam (h : Recast e source c d) : Recast e source c.formParam d.formParam := by
  have hname := h.outsideVariables_eq formNameEndKinds h.lineEnd_eq
  simp only [Cursor.formParam, hname, h.trimmedEnd_eq rfl, h.read, h.drop_eq, e.startsWith_map]
  split_ifs
  · exact h
  · exact h.node fun h' => (h'.part rfl).eatBlank.formValue h.lineEnd_eq
  · exact h.node fun h' => (h'.part rfl).eatBlank

lemma formTurn (h : Recast e source c d) : Turn.Recast e source (formTurn c) (formTurn d) := by
  have h := h.formParam.look
  simp only [Cursor.formTurn, h.sees_eq]
  split_ifs
  · refine h.operator.on (fun h => ?_) fun h => h
    rw [h.drop_eq, e.same_line lineLocal_formContinues]
    split_ifs
    · exact h.bump
    · exact h
  · exact h

lemma formBody (h : Recast e source c d) : Recast e source c.formBody d.formBody :=
  h.node fun h => (((h.loop formTurn).eatBlank).finishLine _).eatNewline

/-! ### GraphQL -/

lemma skipTo (h : Recast e source c d) (hs : stop' = stop) :
    Recast e source (c.skipTo stop) (d.skipTo stop') := by
  subst hs
  exact h.loopUntil stop' eatBlankLine

lemma graphqlVariables (h : Recast e source c d) :
    Recast e source c.graphqlVariables d.graphqlVariables := by
  have hskip : Recast e source (c.skipTo (c.read + blankLinesLength c.rest))
      (d.skipTo (d.read + blankLinesLength d.rest)) :=
    h.skipTo (by rw [h.read, h.rest, e.blankLinesLength_map])
  have hjson : isJson (d.rest.drop (blankLinesLength d.rest))
      = isJson (c.rest.drop (blankLinesLength c.rest)) := by
    rw [h.drop_eq, e.same_line lineLocal_isJson, h.rest, e.blankLinesLength_map]
  simp only [Cursor.graphqlVariables, hjson]
  split_ifs
  · exact hskip.textNode (by
      rw [hskip.read, hskip.rest, e.lengthBeforeTail_map _ lineLocal_isExternal])
  · exact h

lemma graphqlFile (h : Recast e source c d) : Recast e source c.graphqlFile d.graphqlFile := by
  have hexternal : isExternal (d.rest.drop (blankLinesLength d.rest))
      = isExternal (c.rest.drop (blankLinesLength c.rest)) := by
    rw [h.drop_eq, e.same_line lineLocal_isExternal, h.rest, e.blankLinesLength_map]
  simp only [Cursor.graphqlFile, hexternal]
  split_ifs
  · exact (h.skipTo (by rw [h.read, h.rest, e.blankLinesLength_map])).externalBody
  · exact h

lemma graphqlBody (h : Recast e source c d) : Recast e source c.graphqlBody d.graphqlBody :=
  h.node fun h => (h.textNode (by
    rw [h.read, h.rest, e.lengthBeforeTail_map _ lineLocal_isGraphqlTail])).graphqlVariables.graphqlFile

/-! ### Body sections -/

lemma bodyItem (h : Recast e source c d) (line : BodyLine) :
    Recast e source (c.bodyItem line) (d.bodyItem line) := by
  cases line with
  | blank => exact h.eatBlankLine
  | comment => exact h.comment
  | responseHandler => exact h.responseHandler
  | redirect => exact h.responseRedirect
  | multipart => exact h.multipart
  | external => exact h.externalBody
  | xml => exact h.textBody
  | json => exact h.textBody
  | graphql => exact h.graphqlBody
  | form => exact h.formBody
  | raw => exact h.rawBody

lemma bodySection (h : Recast e source c d) : Recast e source c.bodySection d.bodySection :=
  h.nested fun h => h.loopWhile (fun h => by rw [h.stopped_eq, h.atSeparator_eq])
    fun {c d} h => by
      rw [h.rest, e.bodyLine_map]
      exact h.bodyItem _

/-! ### Sections -/

lemma message (h : Recast e source c d) : Recast e source c.message d.message := by
  have h := h.headerLines
  simp only [Cursor.message, h.stopped_eq, h.atSeparator_eq, h.atBlankLine_eq]
  split_ifs
  · exact h.bodySection
  · exact h

lemma request (h : Recast e source c d) : Recast e source c.request d.request :=
  h.nested fun h => h.node fun h => h.requestLine.message

lemma response (h : Recast e source c d) : Recast e source c.response d.response :=
  h.nested fun h => h.node fun h => h.responseLine.message

lemma preambleTurn (h : Recast e source c d) :
    Turn.Recast e source (preambleTurn c) (preambleTurn d) := by
  have h' := h.eatBlank
  simp only [Cursor.preambleTurn, h.stopped_eq, h.atSeparator_eq, h.rest, e.skipBlanks_map,
    e.same_line lineLocal_preambleLine]
  split_ifs
  · exact h
  · cases PreambleLine.ofTokens (skipBlanks c.rest) with
    | blank => exact h'.eatNewline
    | comment => exact h'.comment
    | metadata => exact h'.metadata
    | variableDeclaration => exact h'.variableDeclaration
    | command => exact h'.command
    | preRequestScript => exact h'.preRequestScript
    | response => exact h'.response
    | request => exact h'.request

lemma fullSection (h : Recast e source c d) : Recast e source c.fullSection d.fullSection := by
  refine h.nested fun h => h.node fun h => ?_
  rw [h.atSeparator_eq]
  split_ifs
  · exact h.separator.loop preambleTurn
  · exact h.loop preambleTurn

/-- **Whole parses** stay side by side. -/
lemma sections (h : Recast e source c d) : Recast e source c.sections d.sections :=
  h.loopWhile (fun h => by rw [h.stopped_eq]) fullSection

end Recast

/-- The cursors in front of both sources stand at the same place. -/
lemma recast_start (e : Terminator) (limits : Limits) {source : String}
    (h : '\r' ∉ source.toList) :
    Recast e source (start limits (Token.scan source))
      (start limits (Token.scan (e.recode source))) := by
  have hplain := e.text_token h
  have htext := Token.textOf_scan source
  rw [e.scan_recode h]
  generalize Token.scan source = ts at hplain htext ⊢
  refine ⟨rfl, hplain, rfl, ⟨"", ?_, ?_, ?_⟩, rfl, rfl, rfl, rfl, rfl, rfl, rfl, rfl⟩
  · rw [String.empty_append, start, htext]
  · rw [start, String.utf8ByteSize_empty]
  · rw [start, e.recode_empty, String.utf8ByteSize_empty]

end Cursor

end RequestFile
