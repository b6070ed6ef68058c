import RequestFile.Proofs.Terminator.Step

/-!
Heads of sections of a recoded source.

From values up to headers, every production keeps two cursors side by side: it is made of steps that
do. Where a production compares positions or kinds of tokens, both sides compare the same; where it
keeps a range for a later report, the ranges have moved alike.
-/

namespace RequestFile

namespace Cursor

open Lookahead

variable {e : Terminator} {source : String} {c d : Cursor} {k : Kind} {stop stop' : Nat}
  {opener opener' : Span}

namespace Recast

/-! ### References -/

/-- What is done only in front of a position. -/
lemma ifBefore {c' d' : Cursor} (h : Recast e source c d) (stop : Nat)
    (h' : Recast e source c' d') :
    Recast e source (if c.read < stop then c' else c) (if d.read < stop then d' else d) := by
  rw [h.read]
  split_ifs
  · exact h'
  · exact h

lemma identifierWithin (h : Recast e source c d) (bound : Option Nat) :
    Recast e source (c.identifierWithin bound) (d.identifierWithin bound) := by
  rw [Cursor.identifierWithin, Cursor.identifierWithin, h.rest,
    e.same_line lineLocal_identifierLength?]
  cases identifierLength? c.rest with
  | none => exact h.reportHere _ _
  | some n =>
      dsimp only
      rw [h.read]
      split_ifs
      · exact h.leaf rfl
      · exact h.reportHere _ _

lemma identifier (h : Recast e source c d) : Recast e source c.identifier d.identifier :=
  h.identifierWithin none

lemma variableName (h : Recast e source c d) (stop : Nat) :
    Recast e source (c.variableName stop) (d.variableName stop) := by
  rw [Cursor.variableName, Cursor.variableName, h.read]
  split_ifs
  · exact h.identifierWithin _
  · exact h.reportHere _ _

lemma blankBeforeCloser (h : Recast e source c d) (stop : Nat) :
    Recast e source (c.blankBeforeCloser stop) (d.blankBeforeCloser stop) := by
  rw [Cursor.blankBeforeCloser, Cursor.blankBeforeCloser, h.read]
  split_ifs
  · refine h.on (fun h => ?_) fun h => h
    rw [h.drop_eq, e.startsWith_map]
    split_ifs
    · exact h.bump
    · exact h
  · exact h

lemma variableCloser (h : Recast e source c d) (stop : Nat)
    (ho : opener' = opener.move (e.offset source)) :
    Recast e source (c.variableCloser stop opener) (d.variableCloser stop opener') := by
  simp only [Cursor.variableCloser, h.read]
  split_ifs
  · exact h.on bump fun h => h.reportUnclosed _ _ _ ho
  · exact h.reportUnclosed _ _ _ ho

lemma variableRef (h : Recast e source c d) (stop : Nat) :
    Recast e source (c.variableRef stop) (d.variableRef stop) := by
  have h := h.demand .varOpen
  simp only [Cursor.variableRef]
  exact h.node fun h' =>
    (((h'.bump.ifBefore stop h'.bump.eatBlank).variableName stop).blankBeforeCloser
      stop).variableCloser stop h.span_eq

/-! ### Values and paths -/

lemma interpolated (h : Recast e source c d) (stop : Nat) :
    Recast e source (c.interpolated stop) (d.interpolated stop) :=
  h.loopUntil stop fun h => h.on (fun h => h.variableRef stop) fun h =>
    h.textUntil (h.before_eq _ rfl)

lemma interpolatedNode (h : Recast e source c d) (hs : stop' = stop) :
    Recast e source (c.interpolatedNode k stop) (d.interpolatedNode k stop') := by
  subst hs
  exact h.node fun h => h.interpolated stop'

lemma value (h : Recast e source c d) (hs : stop' = stop) :
    Recast e source (c.value stop) (d.value stop') := by
  rw [Cursor.value, Cursor.value, h.read, hs]
  split_ifs
  · exact h
  · exact h.interpolatedNode rfl

/-- A value up to the last token of the line that is not a blank. -/
lemma trimmedValue (h : Recast e source c d) :
    Recast e source (c.value (c.trimmedEnd c.lineEnd)) (d.value (d.trimmedEnd d.lineEnd)) :=
  h.value (h.trimmedEnd_eq h.lineEnd_eq)

lemma path (h : Recast e source c d) : Recast e source c.path d.path := by
  rw [Cursor.path, Cursor.path, h.rest, e.same_line lineLocal_pathLength]
  cases pathLength c.rest with
  | zero => exact h.reportHere _ _
  | succ n => exact h.interpolatedNode (by rw [h.read])

/-! ### Scripts -/

lemma scriptPiece (h : Recast e source c d) (ho : opener' = opener.move (e.offset source)) :
    Turn.Recast e source (scriptPiece opener c) (scriptPiece opener' d) := by
  have h' := h.look.look
  simp only [Cursor.scriptPiece, h.stopped_eq, h.lineStart, h.atSeparator_eq, h.look.sees_eq,
    h'.sees_eq]
  split_ifs
  · exact h.reportUnclosed _ _ _ ho
  · exact h.look.bump
  · exact h'.bump
  · exact h'.textUntil (h'.before_eq _ h'.lineEnd_eq)

lemma inlineScript (h : Recast e source c d) : Recast e source c.inlineScript d.inlineScript := by
  have h := h.demand .scriptOpen
  simp only [Cursor.inlineScript]
  exact h.node fun h' => h'.bump.loop fun h' => h'.scriptPiece h.span_eq

lemma scriptOrPath (h : Recast e source c d) : Recast e source c.scriptOrPath d.scriptOrPath :=
  h.on inlineScript path

lemma finishScriptLine (h : Recast e source c d) :
    Recast e source c.finishScriptLine d.finishScriptLine := by
  rw [Cursor.finishScriptLine, Cursor.finishScriptLine, h.lineStart]
  split_ifs
  · exact h
  · exact (h.eatBlank.finishLine _).eatNewlines

lemma scriptLine {body : Cursor → Cursor} (h : Recast e source c d)
    (hbody : ∀ {c d}, Recast e source c d → Recast e source (body c) (body d)) :
    Recast e source (c.scriptLine k body) (d.scriptLine k body) :=
  h.node fun h => (hbody h.bump.eatBlank).finishScriptLine

lemma preRequestScript (h : Recast e source c d) :
    Recast e source c.preRequestScript d.preRequestScript :=
  h.scriptLine scriptOrPath

lemma responseHandler (h : Recast e source c d) :
    Recast e source c.responseHandler d.responseHandler :=
  h.scriptLine scriptOrPath

lemma responseRedirect (h : Recast e source c d) :
    Recast e source c.responseRedirect d.responseRedirect :=
  h.scriptLine path

/-! ### Lines in front of a request -/

lemma separator (h : Recast e source c d) : Recast e source c.separator d.separator := by
  have h := h.demand .separatorMarker
  simp only [Cursor.separator]
  exact h.node fun h => h.bump.eatBlank.trimmedValue.eatBlank.eatNewline

lemma comment (h : Recast e source c d) : Recast e source c.comment d.comment :=
  h.node fun h => (h.bump.textUntil h.bump.lineEnd_eq).eatNewline

lemma metadataValue (h : Recast e source c d) :
    Recast e source c.metadataValue d.metadataValue := by
  have h' : Recast e source
      (if c.eatBlank.atEnd then c.eatBlank
        else c.eatBlank.on .equals (fun c => c.bump.eatBlank) id)
      (if d.eatBlank.atEnd then d.eatBlank
        else d.eatBlank.on .equals (fun c => c.bump.eatBlank) id) := by
    rw [h.eatBlank.atEnd_eq]
    split_ifs
    · exact h.eatBlank
    · exact h.eatBlank.on (fun h => h.bump.eatBlank) fun h => h
  simp only [Cursor.metadataValue, h.trimmedEnd_eq h.lineEnd_eq]
  exact h.ifBefore _ (h'.value rfl)

lemma metadata (h : Recast e source c d) : Recast e source c.metadata d.metadata :=
  h.node fun h =>
    ((h.bump.eatBlank).demand .at).bump.identifier.metadataValue.eatBlank.eatNewline

lemma assignedValue (h : Recast e source c d) (stop : Nat) :
    Recast e source (c.assignedValue stop) (d.assignedValue stop) := by
  rw [Cursor.assignedValue, Cursor.assignedValue, h.read]
  split_ifs
  · exact h.reportHere _ _
  · exact h.value rfl

lemma assignment (h : Recast e source c d) (hs : stop' = stop) :
    Recast e source (c.assignment stop) (d.assignment stop') := by
  subst hs
  have h' := ((h.demand .at).bump.identifier).eatBlank
  simp only [Cursor.assignment, h'.atEnd_eq]
  split_ifs
  · exact (h'.reportHere _ _).errorUntil rfl
  · exact h'.on (fun h => h.bump.eatBlank.assignedValue stop') fun h =>
      (h.reportHere _ _).errorUntil rfl

lemma variableDeclaration (h : Recast e source c d) :
    Recast e source c.variableDeclaration d.variableDeclaration :=
  h.node fun h => (h.assignment (h.trimmedEnd_eq h.lineEnd_eq)).eatBlank.eatNewline

lemma argument (h : Recast e source c d) : Recast e source c.argument d.argument :=
  h.node fun h => h.assignment (h.trimmedEnd_eq (h.outsideVariables_eq _ h.lineEnd_eq))

lemma argumentTurn (h : Recast e source c d) :
    Turn.Recast e source (argumentTurn c) (argumentTurn d) := by
  have h' := h.look.argument.eatBlank
  simp only [Cursor.argumentTurn, h.look.sees_eq, h'.atEnd_eq, h'.look.sees_eq]
  split_ifs
  · exact h.look
  · exact h'
  · exact h'.look.bump.eatBlank
  · exact h'.look

lemma argumentsCloser (h : Recast e source c d) (ho : opener' = opener.move (e.offset source)) :
    Recast e source (c.argumentsCloser opener) (d.argumentsCloser opener') := by
  have hmissing : ∀ {c d}, Recast e source c d → Recast e source
      (c.file (((Diagnostic.new .expectedCloseParen c.span).saying "expected `)`").relatedTo
        "declarations start here" opener))
      (d.file (((Diagnostic.new .expectedCloseParen d.span).saying "expected `)`").relatedTo
        "declarations start here" opener')) := fun h => h.file (by rw [h.span_eq, ho]; rfl)
  simp only [Cursor.argumentsCloser, h.atEnd_eq]
  split_ifs
  · exact hmissing h
  · exact h.on bump hmissing

lemma arguments (h : Recast e source c d) : Recast e source c.arguments d.arguments := by
  have h := h.demand .parenOpen
  exact (h.bump.eatBlank.loop argumentTurn).argumentsCloser h.span_eq

lemma commandValue (h : Recast e source c d) (hs : stop' = stop) :
    Recast e source (c.commandValue stop) (d.commandValue stop') := by
  rw [Cursor.commandValue, Cursor.commandValue, h.read, hs]
  split_ifs
  · exact h.value rfl
  · exact h.reportHere _ _

lemma command (h : Recast e source c d) : Recast e source c.command d.command := by
  refine h.node fun h => ?_
  have h := (h.leaf (K := .commandName) (congrArg (· + 1) h.read)).eatBlank
  generalize (c.opened.leaf .commandName (c.opened.read + 1)).eatBlank = c at h ⊢
  generalize (d.opened.leaf .commandName (d.opened.read + 1)).eatBlank = d at h ⊢
  dsimp only
  have hopener : (argumentsOffset? (d.segment d.lineEnd)).map (d.read + ·)
      = (argumentsOffset? (c.segment c.lineEnd)).map (c.read + ·) := by
    rw [h.segment_eq, e.argumentsOffset?_map, h.lineEnd_eq, h.read]
  have hvalue := h.commandValue (h.trimmedEnd_eq (congrArg₂ Option.getD hopener h.lineEnd_eq))
  rw [hopener] at hvalue ⊢
  split_ifs
  · exact (hvalue.eatBlank.arguments.eatBlank.finishLine _).eatNewline
  · exact (hvalue.eatBlank.finishLine _).eatNewline

/-! ### URLs -/

lemma part (h : Recast e source c d) (hs : stop' = stop) :
    Recast e source (c.part k stop) (d.part k stop') := by
  subst hs
  exact h.ifBefore stop' (h.interpolatedNode rfl)

lemma queryValue (h : Recast e source c d) (stop : Nat) :
    Recast e source (c.queryValue stop) (d.queryValue stop) :=
  h.ifBefore stop (h.on (fun h => h.operator.part (h.operator.outsideVariables_eq _ rfl))
    fun h => h)

lemma queryParam (h : Recast e source c d) (stop : Nat) :
    Recast e source (c.queryParam stop) (d.queryParam stop) := by
  have hbuild : ∀ {c d : Cursor} (nameEnd : Nat), Recast e source c d → Recast e source
      (c.node .queryParam fun c => (c.part .queryParamName nameEnd).queryValue stop)
      (d.node .queryParam fun c => (c.part .queryParamName nameEnd).queryValue stop) :=
    fun nameEnd h => h.node fun h => (h.part rfl).queryValue stop
  simp only [Cursor.queryParam, h.outsideVariables_eq _ rfl, h.read]
  split_ifs
  · exact h.on (hbuild _) fun h => h
  · exact hbuild _ h

lemma queryPart (h : Recast e source c d) (stop : Nat) :
    Recast e source (c.queryPart k stop) (d.queryPart k stop) :=
  h.node fun h => h.operator.ifBefore stop (h.operator.queryParam stop)

lemma fragment (h : Recast e source c d) (stop : Nat) :
    Recast e source (c.fragment stop) (d.fragment stop) :=
  h.node fun h => h.operator.textUntil (h.operator.before_eq _ rfl)

lemma urlText (h : Recast e source c d) (stop : Nat) :
    Recast e source (c.urlText stop) (d.urlText stop) := by
  refine h.textUntil ?_
  rw [h.segment_eq, ← List.map_drop, e.lengthBefore_map, h.read]

lemma urlPiece (h : Recast e source c d) (stop : Nat) :
    Recast e source (c.urlPiece stop) (d.urlPiece stop) := by
  have h := h.look
  simp only [Cursor.urlPiece, h.sees_eq]
  split_ifs
  · exact h.queryPart stop
  · exact h.queryPart stop
  · exact h.fragment stop
  · exact h.variableRef stop
  · exact h.urlText stop

lemma urlLine (h : Recast e source c d) (hs : stop' = stop) :
    Recast e source (c.urlLine stop) (d.urlLine stop') := by
  subst hs
  exact h.loopUntil stop' fun h => h.urlPiece stop'

/-- Both find the version at the same position. -/
lemma urlNextLine (h : Recast e source c d) :
    Recast e source c.urlNextLine.1 d.urlNextLine.1 ∧ d.urlNextLine.2 = c.urlNextLine.2 := by
  have h := h.eatBlank.eatNewline.eatBlank
  have hsplit : splitVersion (line d.eatBlank.eatNewline.eatBlank.rest)
      = splitVersion (line c.eatBlank.eatNewline.eatBlank.rest) := by
    rw [h.rest, e.line_map]
  rw [Cursor.urlNextLine, Cursor.urlNextLine]
  simp only [hsplit, h.read]
  exact ⟨h.urlLine rfl, trivial⟩

lemma urlNextLines (h : Recast e source c d) (version : Option Nat) (fuel : Nat) :
    Recast e source (c.urlNextLines version fuel).1 (d.urlNextLines version fuel).1 ∧
      (d.urlNextLines version fuel).2 = (c.urlNextLines version fuel).2 := by
  induction fuel generalizing c d version with
  | zero => exact ⟨h.broken _, rfl⟩
  | succ fuel ih =>
      obtain ⟨hnext, hversion⟩ := h.urlNextLine
      simp only [Cursor.urlNextLines, h.rest, e.nextLineIsIndented_map, hversion]
      split_ifs
      · exact ih hnext _
      · exact ⟨h, rfl⟩

/-! ### Request lines -/

/-- Only the text of a word is looked at. -/
lemma reportMethodCase (h : Recast e source c d) (hs : c.sees .word) :
    Recast e source c.reportMethodCase d.reportMethodCase := by
  simp only [Cursor.reportMethodCase, h.headText_eq hs (by decide)]
  cases methodLike? (headText c.rest) with
  | none => exact h
  | some m => exact h.file (by rw [h.span_eq]; rfl)

lemma method (h : Recast e source c d) : Recast e source c.method d.method := by
  have h := h.look
  simp only [Cursor.method, h.sees_eq, h.drop_eq, e.startsWith_map, e.isBlankLine_map]
  by_cases hs : c.look.sees .word
  · rw [h.headText_eq hs (by decide)]
    split_ifs
    · exact (h.leaf (congrArg (· + 1) h.read)).eatBlank
    · exact h.reportMethodCase hs
    · exact h
  · simp only [hs, Bool.false_and]
    exact h

lemma targetUrl (h : Recast e source c d) :
    Recast e source c.targetUrl.1 d.targetUrl.1 ∧ d.targetUrl.2 = c.targetUrl.2 := by
  have hsplit : splitVersion (line d.rest) = splitVersion (line c.rest) := by
    rw [h.rest, e.line_map]
  simp only [Cursor.targetUrl, hsplit, h.read]
  obtain ⟨length, version⟩ := splitVersion (line c.rest)
  dsimp only
  split_ifs
  · exact ⟨h.reportHere _ _, rfl⟩
  · have hline : Recast e source (c.opened.urlLine (c.read + length))
        (d.opened.urlLine (c.read + length)) := h.opened.urlLine rfl
    rw [hline.rest, List.length_map]
    obtain ⟨hlines, hversion⟩ := hline.urlNextLines (version.map (c.read + ·)) _
    exact ⟨h.closed hlines, hversion⟩

lemma version {position position' : Option Nat} (h : Recast e source c d)
    (hp : position' = position) : Recast e source (c.version position) (d.version position') := by
  subst hp
  cases position' with
  | none => exact h
  | some v =>
      simp only [Cursor.version, h.eatBlank.read]
      split_ifs
      · exact h.eatBlank.leaf rfl
      · exact h.eatBlank

lemma requestLine (h : Recast e source c d) : Recast e source c.requestLine d.requestLine := by
  obtain ⟨hurl, hversion⟩ := h.method.targetUrl
  exact ((hurl.version hversion).eatBlank.finishLine _).eatNewline

/-! ### Response lines and headers -/

lemma status (h : Recast e source c d) : Recast e source c.status d.status := by
  have h := h.look
  simp only [Cursor.status, h.sees_eq]
  by_cases hs : c.look.sees .word
  · have hcode := (h.leaf (K := .statusCode) (congrArg (· + 1) h.read)).eatBlank
    rw [h.headText_eq hs (by decide), hcode.trimmedEnd_eq hcode.lineEnd_eq, hs, Bool.true_and]
    cases isStatusCode (headText c.look.rest) with
    | true => exact (hcode.ifBefore _ (hcode.leaf rfl)).eatBlank
    | false => exact h.rejectLine _ _
  · simp only [hs, Bool.false_and]
    exact h.rejectLine _ _

lemma responseLine (h : Recast e source c d) : Recast e source c.responseLine d.responseLine :=
  (h.leaf (congrArg (· + 3) h.read)).eatBlank.status.eatNewline

/-- A header name holds no terminator. -/
lemma checkHeaderName (h : Recast e source c d) (hs : stop' = stop)
    (hn : stop = c.read + headerNameLength c.rest) :
    Recast e source (c.checkHeaderName stop) (d.checkHeaderName stop') := by
  have hname : (c.segment stop).map e.token = c.segment stop := by
    refine e.map_token_eq_self fun t ht hk => ?_
    rw [segment, hn, Nat.add_sub_cancel_left, headerNameLength,
      ← List.prefix_iff_eq_take.mp (List.takeWhile_prefix _)] at ht
    have hmem := List.mem_takeWhile_imp ht
    rw [hk] at hmem
    exact absurd hmem (by decide)
  simp only [Cursor.checkHeaderName, h.segment_eq, hs, hname]
  split_ifs
  · exact h
  · exact h.report _ (h.spanTo_eq rfl) _

lemma header (h : Recast e source c d) : Recast e source c.header d.header := by
  refine h.node fun h => ?_
  have hend : d.opened.read + headerNameLength d.opened.rest
      = c.opened.read + headerNameLength c.opened.rest := by
    rw [h.read, h.rest, e.same_line lineLocal_headerNameLength]
  have h := ((h.checkHeaderName hend rfl).leaf (K := .headerEntity) hend).eatBlank
  dsimp only
  refine (h.on (fun h' => ?_) fun h' => h'.rejectLine _ _).eatNewline
  exact (h'.bump.eatBlank.value (h'.bump.eatBlank.trimmedEnd_eq h.lineEnd_eq)).eatBlank

lemma strayHeaderLine (h : Recast e source c d) :
    Recast e source c.strayHeaderLine d.strayHeaderLine := by
  refine ((h.file ?_).errorUntil h.lineEnd_eq).eatNewline
  rw [h.spanTo_eq h.lineEnd_eq]
  rfl

lemma headerLine (h : Recast e source c d) : Recast e source c.headerLine d.headerLine := by
  have h := h.look
  simp only [Cursor.headerLine, h.seesIn_eq]
  split_ifs
  · exact h.comment
  · exact h.header
  · exact h.strayHeaderLine

lemma headerLines (h : Recast e source c d) : Recast e source c.headerLines d.headerLines :=
  h.loopWhile (fun h => by rw [h.stopped_eq, h.atSeparator_eq, h.atBlankLine_eq]) headerLine

end Recast

end Cursor

end RequestFile
