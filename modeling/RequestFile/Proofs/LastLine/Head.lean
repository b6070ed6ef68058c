import RequestFile.Proofs.Head
import RequestFile.Proofs.LastLine.Step

/-!
Lines up to the body, without and with the line feed at the end.

* **On a line.** Values, names, URLs and versions end before the line feed, so they stay abreast.
  Their bounds are positions in the shorter source, and both cursors find the same ones.
* **Scripts.** An inline script that is left open goes on to the end and takes the line feed in a
  turn of its own (`Beside.inlineScript`); what may follow a script does so otherwise.
* **Whole lines.** Separators, comments, declarations, commands, request lines and headers end with
  the line feed where nothing else is left.
-/

namespace RequestFile

namespace Cursor

open Lookahead

variable {ts : List Token} {s : Stage} {c d : Cursor} {k : Kind} {stop : Nat}
  {opener opener' : Span}

namespace Beside

/-! ### Values and paths -/

lemma identifierWithin (h : Beside ts .line c d) (bound : Option Nat) :
    Beside ts .line (c.identifierWithin bound) (d.identifierWithin bound) := by
  refine h.step (fun h => h.identifierWithin bound) fun h => ?_
  rw [Cursor.identifierWithin, Cursor.identifierWithin, h.same_line lineLocal_identifierLength?,
    h.read]
  cases hn : identifierLength? c.rest with
  | none => exact h.beside.reportHere rfl _
  | some n =>
      have hle := (identifierLength?_bounds hn).2.trans (lineLength_le c.rest)
      dsimp only
      split_ifs
      · exact h.beside.leaf (by decide) (h.read_add_le hle)
      · exact h.beside.reportHere rfl _

lemma identifier (h : Beside ts .line c d) : Beside ts .line c.identifier d.identifier :=
  h.identifierWithin none

lemma variableName (h : Beside ts .line c d) (stop : Nat) :
    Beside ts .line (c.variableName stop) (d.variableName stop) := by
  refine h.step (fun h => h.variableName stop) fun h => ?_
  rw [Cursor.variableName, Cursor.variableName, h.read]
  split_ifs
  · exact h.beside.identifierWithin _
  · exact h.beside.reportHere rfl _

lemma blankBeforeCloser (h : Beside ts .line c d) (stop : Nat) :
    Beside ts .line (c.blankBeforeCloser stop) (d.blankBeforeCloser stop) := by
  refine h.step (fun h => h.blankBeforeCloser stop) fun h => ?_
  rw [Cursor.blankBeforeCloser, Cursor.blankBeforeCloser, h.read]
  split_ifs
  · refine h.on (by decide) (fun h => ?_) fun h => h.beside
    rw [h.startsWith_drop_eq (by decide)]
    split_ifs
    · exact h.beside.bump
    · exact h.beside
  · exact h.beside

lemma variableCloser (h : Beside ts .line c d) (stop : Nat) (opener opener' : Span) :
    Beside ts .line (c.variableCloser stop opener) (d.variableCloser stop opener') := by
  refine h.step (fun h => h.variableCloser stop trivial) fun h => ?_
  simp only [Cursor.variableCloser, h.read]
  split_ifs
  · exact h.on (by decide) (fun h => h.beside.bump) fun h => h.beside.reportUnclosed rfl _ _ _ _
  · exact h.beside.reportUnclosed rfl _ _ _ _

lemma variableRef (h : Beside ts .line c d) (stop : Nat) :
    Beside ts .line (c.variableRef stop) (d.variableRef stop) := by
  refine h.step (fun h => h.variableRef stop) fun h => ?_
  have hdemand : Abreast ts (c.demand .varOpen) (d.demand .varOpen) :=
    h.congr (alike_demand c _) (alike_demand d _)
  simp only [Cursor.variableRef]
  refine hdemand.lineNode fun h => ?_
  have hname := h.beside.bump.ifBefore stop (fun h => h.eatBlank) h.beside.bump.eatBlank
  exact ((hname.variableName stop).blankBeforeCloser stop).variableCloser stop _ _

lemma interpolated (h : Beside ts .line c d) (hs : stop ≤ ts.length) :
    Beside ts .line (c.interpolated stop) (d.interpolated stop) := by
  refine h.loopUntil hs (fun h => h.on (fun h => h.variableRef stop) fun h => h.textUntil _)
    fun h _ => h.on (by decide) (fun h => h.beside.variableRef stop) fun h => ?_
  rw [h.before_eq _ hs]
  exact h.beside.textUntil (h.before_le _ stop)

lemma interpolatedNode (h : Beside ts .line c d) (hk : k ≠ .value) (hs : stop ≤ ts.length) :
    Beside ts .line (c.interpolatedNode k stop) (d.interpolatedNode k stop) :=
  h.step (fun h => h.interpolatedNode hk stop) fun h => h.lineNode fun h => h.beside.interpolated hs

lemma value (h : Beside ts .line c d) (hs : stop ≤ ts.length) :
    Beside ts .line (c.value stop) (d.value stop) := by
  refine h.step (fun h => h.value (hs.trans h.finish.ge)) fun h => ?_
  rw [Cursor.value, Cursor.value, h.read]
  split_ifs
  · exact h.beside
  · exact h.lineNode fun h => h.beside.interpolated hs

/-- A value up to the last token of the line that is not a blank. -/
lemma trimmedValue (h : Beside ts .line c d) :
    Beside ts .line (c.value (c.trimmedEnd c.lineEnd)) (d.value (d.trimmedEnd d.lineEnd)) := by
  refine h.step (fun h => h.trimmedValue) fun h => ?_
  rw [h.trimmedLineEnd_eq]
  exact h.beside.value (h.trimmedEnd_le _)

lemma path (h : Beside ts .line c d) : Beside ts .line c.path d.path := by
  refine h.step (fun h => h.path) fun h => ?_
  have hle := (pathLength_le c.rest).trans (lineLength_le c.rest)
  rw [Cursor.path, Cursor.path, h.same_line lineLocal_pathLength, h.read]
  cases hn : pathLength c.rest with
  | zero => exact h.beside.reportHere rfl _
  | succ n => exact h.beside.interpolatedNode (by decide) (h.read_add_le (hn ▸ hle))

/-! ### Scripts -/

end Beside

lemma stopped_of_nil (hr : c.rest = []) : c.stopped = true := by
  simp [stopped, atEnd, hr]

/-- The end of a script left open, with the line feed in a turn of its own. -/
lemma Abreast.scriptPiece (h : Abreast ts c d) (opener opener' : Span) :
    Turn.Beside ts (scriptPiece opener') .line .any (scriptPiece opener c)
      (scriptPiece opener' d) := by
  have h' := h.look.look
  simp only [Cursor.scriptPiece, h.stopped_eq.2, Bool.false_or, h.lineStart, h.atSeparator_eq]
  by_cases hnil : c.rest = []
  · have hs : d.look.sees .scriptClose = false ∧ d.look.look.sees .newline = true := by
      simp only [sees, look_rest, h.rest, hnil]
      exact ⟨rfl, rfl⟩
    rw [if_pos (by simp [stopped_of_nil hnil]), if_neg (by simp [h.midline hnil]),
      if_neg (by simp [hs.1]), if_pos hs.2]
    refine .extra fun n => ?_
    have hlook := (h.congr (alike_refl c) (alike_look d)).congr (alike_refl c) (alike_look _)
    have hpast : Past ts c d.look.look.bump := hlook.takeLineFeed hnil
    rw [iterate, Cursor.scriptPiece, if_pos (by simp [stopped_of_nil hpast.nil'])]
    exact hpast.beside.any.reportUnclosed rfl _ _ _ _
  · rw [(h.stopped_of_ne hnil).1, Bool.false_or, h.look.sees_eq (by decide),
      h'.sees_eq_of_ne (by rwa [look_rest, look_rest])]
    split_ifs
    · exact .done (h.beside.any.reportUnclosed rfl _ _ _ _)
    · exact .done h.look.beside.bump.any
    · exact .again h'.beside.bump
    · rw [h'.lineEnd_eq, h'.before_eq _ h'.lineEnd_le]
      exact .again (h'.beside.textUntil (h'.before_le _ _))

/-- Line terminators ahead, of which the line feed may be the last. -/
lemma Beside.eatNewlines (h : Beside ts .line c d) :
    Beside ts .ended c.eatNewlines d.eatNewlines := by
  refine h.lineLoop (fun {c} h => ?_) fun {c d} h => ?_
  · dsimp only
    split_ifs
    · exact h
    · exact h.look.bump
    · exact h.look
  · simp only [h.atEnd_eq, Bool.false_eq_true, if_false]
    by_cases hnil : c.rest = []
    · have hs : d.look.sees .newline = true := by
        rw [look_sees, sees, h.rest, hnil]
        rfl
      rw [if_pos (by simp [atEnd, hnil]), if_pos hs]
      refine .extra fun n => ?_
      have hpast := (h.congr (alike_refl c) (alike_look d)).takeLineFeed hnil
      rw [Cursor.iterate, if_pos (by simp [atEnd, hpast.nil'])]
      exact hpast.beside
    · rw [if_neg (by simpa [atEnd] using hnil), h.look.sees_eq_of_ne (by rwa [look_rest])]
      split_ifs
      · exact .again h.look.beside.bump
      · exact .done (h.look.ended (by rwa [look_rest]))

namespace Beside

lemma inlineScript (h : Beside ts .line c d) :
    Beside ts .any c.inlineScript d.inlineScript := by
  refine h.step (fun h => h.inlineScript) fun h => ?_
  have hdemand : Abreast ts (c.demand .scriptOpen) (d.demand .scriptOpen) :=
    h.congr (alike_demand c _) (alike_demand d _)
  simp only [Cursor.inlineScript]
  exact hdemand.node (by decide) fun h =>
    h.beside.bump.lineLoop (fun h => h.scriptPiece trivial) fun h => h.scriptPiece _ _

lemma scriptOrPath (h : Beside ts .line c d) : Beside ts .any c.scriptOrPath d.scriptOrPath :=
  h.step (fun h => h.scriptOrPath) fun h =>
    h.on (by decide) (fun h => h.beside.inlineScript) fun h => h.beside.path.any

end Beside

/-- At the end nothing follows a script. -/
lemma finishScriptLine_of_nil (hr : c.rest = []) : c.finishScriptLine = c := by
  have hend : c.atEnd = true := by simp [atEnd, hr]
  have hnone : c.eatNewlines = c := by
    rw [eatNewlines, loop, iterate, if_pos hend]
  rw [finishScriptLine]
  split_ifs
  · rfl
  · rw [eatBlank, eat_of_nil hr, finishLine, if_pos hend, hnone]

namespace Beside

lemma finishScriptLine (h : Beside ts .any c d) :
    Beside ts .ended c.finishScriptLine d.finishScriptLine := by
  cases h with
  | fault h => exact .fault h.finishScriptLine
  | past h _ =>
      rw [finishScriptLine_of_nil h.nil, finishScriptLine_of_nil h.nil']
      exact h.beside
  | abreast h _ =>
      rw [Cursor.finishScriptLine, Cursor.finishScriptLine, h.lineStart]
      split_ifs with hline
      · exact h.ended fun hnil => by simp [h.midline hnil] at hline
      · exact (h.beside.eatBlank.finishLine _).eatNewlines

lemma scriptLine {body : Cursor → Cursor} (h : Beside ts .line c d) (hk : k ∉ Tree.shortKinds)
    (hf : ∀ {c}, (faults ts).Holds c → (faults ts).Holds (body c))
    (hbody : ∀ {c d}, Beside ts .line c d → Beside ts .any (body c) (body d)) :
    Beside ts .ended (c.scriptLine k body) (d.scriptLine k body) := by
  refine h.step (fun h => h.scriptLine (fun hv => hk (by rw [hv]; decide)) hf) fun h => ?_
  exact h.node (fun _ => hk) fun h => (hbody h.beside.bump.eatBlank).finishScriptLine

lemma preRequestScript (h : Beside ts .line c d) :
    Beside ts .ended c.preRequestScript d.preRequestScript :=
  h.scriptLine (by decide) (fun h => h.scriptOrPath) scriptOrPath

lemma responseHandler (h : Beside ts .line c d) :
    Beside ts .ended c.responseHandler d.responseHandler :=
  h.scriptLine (by decide) (fun h => h.scriptOrPath) scriptOrPath

lemma responseRedirect (h : Beside ts .line c d) :
    Beside ts .ended c.responseRedirect d.responseRedirect :=
  h.scriptLine (by decide) (fun h => h.path) fun h => h.path.any

/-! ### Lines in front of a request -/

lemma separator (h : Beside ts .line c d) : Beside ts .ended c.separator d.separator := by
  refine h.step (fun h => h.separator) fun h => ?_
  have hdemand : Abreast ts (c.demand .separatorMarker) (d.demand .separatorMarker) :=
    h.congr (alike_demand c _) (alike_demand d _)
  simp only [Cursor.separator]
  exact hdemand.node (by decide) fun h => h.beside.bump.eatBlank.trimmedValue.eatBlank.eatNewline

/-- The tokens up to the end of the line, and its terminator. -/
lemma lineRest (h : Beside ts .line c d) :
    Beside ts .ended (c.textUntil c.lineEnd).eatNewline (d.textUntil d.lineEnd).eatNewline := by
  refine h.step (fun h => (h.textUntil _).eatNewline) fun h => ?_
  rw [h.lineEnd_eq]
  exact (h.beside.textUntil h.lineEnd_le).eatNewline

lemma comment (h : Beside ts .line c d) : Beside ts .ended c.comment d.comment :=
  h.step (fun h => h.comment) fun h => h.node (by decide) fun h => h.beside.bump.lineRest

/-- An equals sign, which may be missing, and the blank after it. -/
lemma optEquals (h : Beside ts .line c d) :
    Beside ts .line (if c.atEnd then c else c.on .equals (fun c => c.bump.eatBlank) id)
      (if d.atEnd then d else d.on .equals (fun d => d.bump.eatBlank) id) := by
  refine h.step (fun h => ?_) fun h => ?_
  · split_ifs
    · exact h
    · exact h.on (fun h => h.bump.eatBlank) fun h => h
  · have hyes : Abreast ts c.look d.look →
        Beside ts .line c.look.bump.eatBlank d.look.bump.eatBlank :=
      fun h => h.beside.bump.eatBlank
    have hno : ∀ {c d : Cursor}, Abreast ts c d → Beside ts .line (id c) (id d) := Abreast.beside
    exact h.onUnlessEnd (by decide) hyes hno

lemma metadataValue (h : Beside ts .line c d) :
    Beside ts .line c.metadataValue d.metadataValue := by
  refine h.step (fun h => h.metadataValue) fun h => ?_
  have hvalue := h.beside.eatBlank.optEquals.value (h.trimmedEnd_le c.lineEnd)
  simp only [Cursor.metadataValue, h.trimmedLineEnd_eq, h.read]
  by_cases hlt : c.read < c.trimmedEnd c.lineEnd
  · rw [if_pos hlt, if_pos hlt]
    exact hvalue
  · rw [if_neg hlt, if_neg hlt]
    exact h.beside

lemma metadata (h : Beside ts .line c d) : Beside ts .ended c.metadata d.metadata :=
  h.step (fun h => h.metadata) fun h => h.node (by decide) fun h =>
    ((h.beside.bump.eatBlank).demand .at).bump.identifier.metadataValue.eatBlank.eatNewline

lemma assignedValue (h : Beside ts .line c d) (hs : stop ≤ ts.length) :
    Beside ts .line (c.assignedValue stop) (d.assignedValue stop) := by
  refine h.step (fun h => h.assignedValue (hs.trans h.finish.ge)) fun h => ?_
  rw [Cursor.assignedValue, Cursor.assignedValue, h.read]
  split_ifs
  · exact h.beside.reportHere rfl _
  · exact h.beside.value hs

lemma assignment (h : Beside ts .line c d) (hs : stop ≤ ts.length) :
    Beside ts .line (c.assignment stop) (d.assignment stop) := by
  refine h.step (fun h => h.assignment (hs.trans h.finish.ge)) fun h => ?_
  have hmissing : ∀ {c d}, Beside ts .line c d → Beside ts .line
      ((c.reportHere .expectedEquals "expected `=` after the variable name").errorUntil stop)
      ((d.reportHere .expectedEquals "expected `=` after the variable name").errorUntil stop) :=
    fun h => (h.reportHere rfl _).errorUntil hs
  refine ((h.beside.demand .at).bump.identifier).eatBlank.elim (fun h => .fault ?_) fun h => ?_
  · simp only [Cursor.assignment]
    split_ifs
    · exact (h.reportHere trivial _).errorUntil _
    · exact h.on (fun h => h.bump.eatBlank.assignedValue (hs.trans h.bump.eatBlank.finish.ge))
        fun h => (h.reportHere trivial _).errorUntil _
  · exact h.onUnlessEnd (by decide) (fun h => h.beside.bump.eatBlank.assignedValue hs)
      fun h => hmissing h.beside

lemma variableDeclaration (h : Beside ts .line c d) :
    Beside ts .ended c.variableDeclaration d.variableDeclaration := by
  refine h.step (fun h => h.variableDeclaration) fun h => h.node (by decide) fun h => ?_
  rw [h.trimmedLineEnd_eq]
  exact (h.beside.assignment (h.trimmedEnd_le _)).eatBlank.eatNewline

lemma argument (h : Beside ts .line c d) : Beside ts .line c.argument d.argument := by
  refine h.step (fun h => h.argument) fun h => h.lineNode fun h => ?_
  rw [h.lineEnd_eq, h.outsideVariables_eq _ h.lineEnd_le,
    h.trimmedEnd_eq (h.outsideVariables_le _ _)]
  exact h.beside.assignment (h.trimmedEnd_le _)

end Beside

lemma Abreast.argumentTurn (h : Abreast ts c d) {turn : Cursor → Turn} :
    Turn.Beside ts turn .line .line (argumentTurn c) (argumentTurn d) := by
  have h := h.look
  have h' := h.beside.argument.eatBlank
  simp only [Cursor.argumentTurn, h.sees_eq (show Kind.at ≠ .newline by decide)]
  by_cases hat : c.look.sees .at
  · simp only [hat, Bool.not_true, Bool.false_eq_true, if_false]
    refine h'.takeTurn (fun h' => ?_) fun h' => ?_
    · split_ifs
      · exact h'
      · exact h'.look.bump.eatBlank
      · exact h'.look
    simp only [h'.atEnd_eq, Bool.false_eq_true, if_false,
      h'.look.sees_eq (show Kind.comma ≠ .newline by decide)]
    by_cases hend : c.look.argument.eatBlank.atEnd
    · have hs : c.look.argument.eatBlank.look.sees .comma = false := by
        rw [look_sees, sees, List.isEmpty_iff.mp hend, startsWith_nil]
      rw [if_pos hend, hs, if_neg Bool.false_ne_true]
      exact .done (h'.congr (alike_refl _) (alike_look _)).beside
    · rw [if_neg hend]
      split_ifs
      · exact .again h'.look.beside.bump.eatBlank
      · exact .done h'.look.beside
  · simp only [hat, Bool.not_false, if_true]
    exact .done h.beside

namespace Beside

lemma argumentsCloser (h : Beside ts .line c d) (opener opener' : Span) :
    Beside ts .line (c.argumentsCloser opener) (d.argumentsCloser opener') := by
  refine h.step (fun h => h.argumentsCloser trivial) fun h => ?_
  have hmissing : ∀ {c d}, Abreast ts c d → Beside ts .line
      (c.file (((Diagnostic.new .expectedCloseParen c.span).saying "expected `)`").relatedTo
        "declarations start here" opener))
      (d.file (((Diagnostic.new .expectedCloseParen d.span).saying "expected `)`").relatedTo
        "declarations start here" opener')) := fun h => by
    refine (h.file ?_ ?_ ?_ fun _ => ?_).beside <;> rfl
  exact h.onUnlessEnd (by decide) (fun h => h.beside.bump) hmissing

lemma arguments (h : Beside ts .line c d) : Beside ts .line c.arguments d.arguments :=
  ((h.demand .parenOpen).bump.eatBlank.lineLoop (fun h => h.argumentTurn)
    fun h => h.argumentTurn).argumentsCloser _ _

lemma commandValue (h : Beside ts .line c d) (hs : stop ≤ ts.length) :
    Beside ts .line (c.commandValue stop) (d.commandValue stop) := by
  refine h.step (fun h => h.commandValue (hs.trans h.finish.ge)) fun h => ?_
  rw [Cursor.commandValue, Cursor.commandValue, h.read]
  split_ifs
  · exact h.beside.value hs
  · exact h.beside.reportHere rfl _

lemma commandContent (h : Beside ts .line c d) :
    Beside ts .line c.commandContent d.commandContent := by
  refine h.step (fun h => ?_) fun h => ?_
  · have hvalue := fun stop => h.commandValue (trimmedEnd_le_finish _ stop)
    simp only [Cursor.commandContent]
    split_ifs
    · exact (hvalue _).eatBlank.arguments
    · exact hvalue _
  have hopener : argumentsOffset? (d.segment d.lineEnd)
      = argumentsOffset? (c.segment c.lineEnd) := by
    rw [h.lineEnd_eq, h.segment_eq h.lineEnd_le]
  cases ho : argumentsOffset? (c.segment c.lineEnd) with
  | none =>
      rw [commandContent_alone ho, commandContent_alone (hopener.trans ho), h.trimmedLineEnd_eq]
      exact h.beside.commandValue (h.trimmedEnd_le _)
  | some n =>
      have hle : c.read + n ≤ ts.length := by
        obtain ⟨hlt, _⟩ := startsWith_drop_take (startsWith_argumentsOffset? ho)
        have hend := h.lineEnd_le
        omega
      rw [commandContent_arguments ho, commandContent_arguments (hopener.trans ho), h.read,
        h.trimmedEnd_eq hle]
      exact (h.beside.commandValue (h.trimmedEnd_le _)).eatBlank.arguments

end Beside

lemma Abreast.command (h : Abreast ts c d) (hne : c.rest ≠ []) :
    Beside ts .ended c.command d.command := by
  have heq : ∀ c : Cursor, c.command = c.node .command fun c =>
      ((c.leaf .commandName (c.read + 1)).eatBlank.commandContent.eatBlank.finishLine
        "unexpected text after the command").eatNewline := fun _ => rfl
  rw [heq, heq]
  refine h.node (by decide) fun h => ?_
  rw [h.read]
  have hle := h.read_add_le (List.length_pos_iff.mpr hne)
  exact (h.beside.leaf (by decide) hle).eatBlank.commandContent.endLine _

namespace Beside

/-! ### URLs -/

lemma part (h : Beside ts .line c d) (hk : k ≠ .value) (hs : stop ≤ ts.length) :
    Beside ts .line (c.part k stop) (d.part k stop) :=
  h.ifBefore stop (fun h => h.interpolatedNode hk stop) (h.interpolatedNode hk hs)

lemma queryValue (h : Beside ts .line c d) (hs : stop ≤ ts.length) :
    Beside ts .line (c.queryValue stop) (d.queryValue stop) := by
  refine h.step (fun h => h.queryValue stop) fun h => ?_
  simp only [Cursor.queryValue, h.read]
  split_ifs
  · refine h.on (by decide) (fun h => ?_) fun h => h.beside
    refine h.beside.operator.step (fun h => h.part (by decide) _) fun h => ?_
    rw [h.outsideVariables_eq _ hs]
    exact h.beside.part (by decide) (h.outsideVariables_le _ _)
  · exact h.beside

lemma queryParam (h : Beside ts .line c d) (hs : stop ≤ ts.length) :
    Beside ts .line (c.queryParam stop) (d.queryParam stop) := by
  refine h.step (fun h => h.queryParam stop) fun h => ?_
  have hbuild : ∀ {c d}, Abreast ts c d → ∀ {i}, i ≤ ts.length → Beside ts .line
      (c.node .queryParam fun c => (c.part .queryParamName i).queryValue stop)
      (d.node .queryParam fun c => (c.part .queryParamName i).queryValue stop) := fun h _ hi =>
    h.lineNode fun h => (h.beside.part (by decide) hi).queryValue hs
  have hle := h.outsideVariables_le queryNameEndKinds stop
  simp only [Cursor.queryParam, h.outsideVariables_eq _ hs, h.read]
  split_ifs
  · exact h.on (by decide) (fun h => hbuild h hle) fun h => h.beside
  · exact hbuild h hle

lemma queryPart (h : Beside ts .line c d) (hk : k ≠ .value) (hs : stop ≤ ts.length) :
    Beside ts .line (c.queryPart k stop) (d.queryPart k stop) :=
  h.step (fun h => h.queryPart hk stop) fun h => h.lineNode fun h =>
    h.beside.operator.ifBefore stop (fun h => h.queryParam stop) (h.beside.operator.queryParam hs)

lemma fragment (h : Beside ts .line c d) (hs : stop ≤ ts.length) :
    Beside ts .line (c.fragment stop) (d.fragment stop) := by
  refine h.step (fun h => h.fragment stop) fun h => h.lineNode fun h => ?_
  refine h.beside.operator.step (fun h => h.textUntil _) fun h => ?_
  dsimp only
  rw [h.before_eq _ hs]
  exact h.beside.textUntil (h.before_le _ _)

end Beside

lemma Abreast.urlPiece (h : Abreast ts c d) (hlt : c.read < stop) (hs : stop ≤ ts.length) :
    Beside ts .line (c.urlPiece stop) (d.urlPiece stop) := by
  have hb := urlText_bounds (c := c.look) (by rwa [look_read]) (hs.trans h.look.finish_eq.ge)
  have h := h.look
  simp only [Cursor.urlPiece, h.sees_eq (show Kind.question ≠ .newline by decide),
    h.sees_eq (show Kind.ampersand ≠ .newline by decide),
    h.sees_eq (show Kind.hash ≠ .newline by decide),
    h.sees_eq (show Kind.varOpen ≠ .newline by decide)]
  split_ifs
  · exact h.beside.queryPart (by decide) hs
  · exact h.beside.queryPart (by decide) hs
  · exact h.beside.fragment hs
  · exact h.beside.variableRef stop
  · rw [urlText, urlText, h.segment_eq hs, h.read]
    exact h.beside.textUntil (hb.2.trans hs)

namespace Beside

lemma urlLine (h : Beside ts .line c d) (hs : stop ≤ ts.length) :
    Beside ts .line (c.urlLine stop) (d.urlLine stop) :=
  h.loopUntil hs (fun h => h.urlPiece stop) fun h hlt => h.urlPiece hlt hs

end Beside

/-! ### URLs over several lines -/

/-- Two cursors behind a URL, which have found a version at the same position of their line. -/
def BesideUrl (ts : List Token) (p q : Cursor × Option Nat) : Prop :=
  (faults ts).Holds p.1 ∨
    (Abreast ts p.1 q.1 ∧ q.2 = p.2 ∧ ∀ v, p.2 = some v → v + 3 ≤ ts.length)

lemma BesideUrl.beside {p q : Cursor × Option Nat} (h : BesideUrl ts p q) :
    Beside ts .line p.1 q.1 :=
  h.elim .fault fun h => h.1.beside

/-- Where a version has been found on the line ahead. -/
lemma Abreast.version_le (h : Abreast ts c d) {v : Nat}
    (hv : (splitVersion (line c.rest)).2.map (c.read + ·) = some v) : v + 3 ≤ ts.length := by
  obtain ⟨i, hi, rfl⟩ := Option.map_eq_some_iff.mp hv
  have hle := (splitVersion_bounds c.rest).2.2 i hi
  rw [Nat.add_assoc]
  exact h.read_add_le (hle.trans (lineLength_le _))

lemma Abreast.splitVersion_le (h : Abreast ts c d) :
    c.read + (splitVersion (line c.rest)).1 ≤ ts.length :=
  h.read_add_le ((splitVersion_bounds c.rest).1.trans (lineLength_le _))

/-- The content of a line of a URL, and the version behind it. -/
lemma Beside.urlContent (h : Beside ts .line c d) :
    BesideUrl ts
      (c.urlLine (c.read + (splitVersion (line c.rest)).1),
        (splitVersion (line c.rest)).2.map (c.read + ·))
      (d.urlLine (d.read + (splitVersion (line d.rest)).1),
        (splitVersion (line d.rest)).2.map (d.read + ·)) := by
  refine h.elim (fun h => .inl (h.urlLine _)) fun h => ?_
  rw [h.same_line lineLocal_line, h.read]
  exact (h.beside.urlLine h.splitVersion_le).elim .inl
    fun h' => .inr ⟨h', rfl, fun v hv => h.version_le hv⟩

/-- Where an indented line follows, something is left behind a blank. -/
lemma eatBlank_ne_nil (hn : nextLineIsIndented c.rest) : c.eatBlank.rest ≠ [] := by
  have hlen : 1 < c.rest.length := by
    simp only [nextLineIsIndented, Bool.and_eq_true] at hn
    obtain ⟨t, us, hr, _⟩ := exists_of_startsWith hn.1
    have hdrop := congrArg List.length hr
    rw [List.length_drop, List.length_drop, List.length_cons] at hdrop
    omega
  refine List.ne_nil_of_length_pos ?_
  by_cases hs : c.sees .whitespace
  · obtain ⟨t, us, hr, _⟩ := exists_of_sees hs
    have hrest : c.eatBlank.rest = us := by
      rw [eatBlank, eat, if_neg (by simp [atEnd, hr]), on_pos hs, bump, look_rest, hr]
      simp [take, hr]
    rw [hr, List.length_cons] at hlen
    rw [hrest]
    exact Nat.lt_of_succ_lt_succ hlen
  · obtain ⟨_, _, _, heq⟩ := alike_eat hs
    have hrest : c.eatBlank.rest = c.rest := by
      rw [eatBlank, heq]
    rw [hrest]
    exact Nat.zero_lt_of_lt hlen

/-- A further line of a URL. -/
lemma Abreast.urlNextLine (h : Abreast ts c d) (hn : nextLineIsIndented c.rest) :
    BesideUrl ts c.urlNextLine d.urlNextLine := by
  have hindented : Beside ts .line c.eatBlank.eatNewline.eatBlank d.eatBlank.eatNewline.eatBlank :=
    h.beside.eatBlank.step (fun h => h.eatNewline.eatBlank)
      fun h => (h.eatNewline_of_ne (eatBlank_ne_nil hn)).1.eatBlank
  exact hindented.urlContent

/-- The further lines of a URL; the longer parse has fuel for one more. -/
lemma BesideUrl.urlNextLines {p q : Cursor × Option Nat} (h : BesideUrl ts p q) (n : Nat) :
    BesideUrl ts (p.1.urlNextLines p.2 n) (q.1.urlNextLines q.2 (n + 1)) := by
  induction n generalizing p q with
  | zero =>
      refine .inl ⟨fault_broken _ p.1, ?_⟩
      exact h.beside.finish_eq
  | succ n ih =>
      obtain ⟨c, v⟩ := p
      obtain ⟨d, w⟩ := q
      rcases h with h | ⟨h, hvw, hle⟩
      · exact .inl (h.urlNextLines v _)
      · obtain rfl : w = v := hvw
        have hsame : nextLineIsIndented d.rest = nextLineIsIndented c.rest := by
          rw [h.rest, nextLineIsIndented_lineFeed]
        rw [Cursor.urlNextLines, Cursor.urlNextLines, hsame]
        split_ifs with hmore
        · exact ih (h.urlNextLine (Bool.and_eq_true_iff.mp hmore).2)
        · exact .inr ⟨h, rfl, hle⟩

lemma Abreast.urlLines (h : Abreast ts c d) : BesideUrl ts c.urlLines d.urlLines := by
  rcases h.beside.urlContent with hfirst | ⟨hfirst, hv, hle⟩
  · exact .inl (hfirst.urlNextLines _ _)
  · have hlines := BesideUrl.urlNextLines (.inr ⟨hfirst, hv, hle⟩)
      ((c.urlLine (c.read + (splitVersion (line c.rest)).1)).rest.length + 1)
    rw [Cursor.urlLines, Cursor.urlLines]
    dsimp only at hlines ⊢
    rwa [hfirst.rest, List.length_append]

/-- The lines of a URL, if it holds something, as `targetUrl` has them. -/
lemma targetUrl_of_content (hne : (splitVersion (line c.rest)).1 ≠ 0) :
    c.targetUrl = (c.opened.urlLines.1.closed .targetUrl c.built, c.opened.urlLines.2) := by
  simp only [targetUrl]
  rw [if_neg hne]
  rfl

/-- Without content an error is reported in place of a URL. -/
lemma targetUrl_of_empty (h0 : (splitVersion (line c.rest)).1 = 0) :
    c.targetUrl = (c.reportHere .expectedUrl "expected a URL",
      (splitVersion (line c.rest)).2.map (c.read + ·)) := by
  simp only [targetUrl]
  rw [if_pos h0]

lemma Abreast.targetUrl (h : Abreast ts c d) : BesideUrl ts c.targetUrl d.targetUrl := by
  have hsame : splitVersion (line d.rest) = splitVersion (line c.rest) := by
    rw [h.same_line lineLocal_line]
  by_cases h0 : (splitVersion (line c.rest)).1 = 0
  · rw [targetUrl_of_empty h0, targetUrl_of_empty (by rw [hsame, h0]), hsame, h.read]
    exact .inr ⟨h.report rfl rfl rfl _, rfl, fun v hv => h.version_le hv⟩
  · rw [targetUrl_of_content h0, targetUrl_of_content (by rwa [hsame])]
    rcases h.opened.urlLines with hlines | ⟨hlines, hv, hle⟩
    · exact .inl ⟨hlines.fault, hlines.finish⟩
    · exact (h.closed (fun hs => absurd rfl hs) hlines.beside).elim .inl fun h => .inr ⟨h, hv, hle⟩

/-! ### Request lines -/

/-- A warning about a method is given in front of its word. -/
lemma Abreast.reportMethodCase (h : Abreast ts c d) (hne : c.rest ≠ []) :
    Abreast ts c.reportMethodCase d.reportMethodCase := by
  simp only [Cursor.reportMethodCase, h.headText_eq hne]
  cases methodLike? (headText c.rest) with
  | none => exact h
  | some m => exact h.file rfl rfl rfl fun hnil => absurd hnil hne

namespace Beside

lemma method (h : Beside ts .line c d) : Beside ts .line c.method d.method := by
  refine h.step (fun h => h.method) fun h => ?_
  have h := h.look
  simp only [Cursor.method, h.sees_eq (show Kind.word ≠ .newline by decide),
    h.startsWith_drop_eq (show Kind.whitespace ≠ .newline by decide), h.isBlankLine_drop_eq]
  by_cases hs : c.look.sees .word
  · have hne := ne_nil_of_sees hs
    rw [h.headText_eq hne, h.read]
    split_ifs
    · exact (h.beside.leaf (by decide) (h.read_add_le (List.length_pos_iff.mpr hne))).eatBlank
    · exact (h.reportMethodCase hne).beside
    · exact h.beside
  · simp only [hs, Bool.false_and]
    exact h.beside

lemma version (h : Beside ts .line c d) {position position' : Option Nat}
    (heq : position' = position) (hp : ∀ v, position = some v → v + 3 ≤ ts.length) :
    Beside ts .line (c.version position) (d.version position') := by
  subst heq
  refine h.step (fun h => h.version position') fun h => ?_
  cases position' with
  | none => exact h.beside
  | some v =>
      simp only [Cursor.version]
      refine h.beside.eatBlank.step (fun h => ?_) fun h => ?_
      · split_ifs
        · exact h.leaf (by decide) _
        · exact h
      · rw [h.read]
        split_ifs
        · exact h.beside.leaf (by decide) (hp v rfl)
        · exact h.beside

/-- **Request lines**, with the lines that go on their URLs. -/
lemma requestLine (h : Beside ts .line c d) :
    Beside ts .ended c.requestLine d.requestLine := by
  refine h.step (fun h => h.requestLine (.inl trivial)) fun h => ?_
  refine h.beside.method.step (fun h => (((h.targetUrl (.inl trivial)).version _).eatBlank.finishLine _).eatNewline)
    fun h => ?_
  rcases h.targetUrl with hurl | ⟨hurl, hv, hle⟩
  · exact .fault ((hurl.version _).eatBlank.finishLine _).eatNewline
  · exact (hurl.beside.version hv hle).endLine _

/-! ### Response lines and headers -/

lemma status (h : Beside ts .line c d) : Beside ts .line c.status d.status := by
  refine h.step (fun h => h.status) fun h => ?_
  have h := h.look
  simp only [Cursor.status, h.sees_eq (show Kind.word ≠ .newline by decide)]
  by_cases hs : c.look.sees .word
  · have hne := ne_nil_of_sees hs
    rw [h.headText_eq hne, hs, Bool.true_and, h.read]
    cases isStatusCode (headText c.look.rest) with
    | false => exact h.beside.rejectLine rfl _
    | true =>
        simp only [if_true]
        have hcode := (h.beside.leaf (K := .statusCode) (by decide) (h.read_add_le
          (List.length_pos_iff.mpr hne))).eatBlank
        refine Beside.eatBlank (hcode.step (fun h => ?_) fun h => ?_)
        · exact h.ifBefore _ (h.leaf (by decide) _)
        · rw [h.trimmedLineEnd_eq]
          exact h.beside.ifBefore _ (fun h => h.leaf (by decide) _)
            (h.beside.leaf (by decide) (h.trimmedEnd_le _))
  · simp only [hs, Bool.false_and]
    exact h.beside.rejectLine rfl _

lemma responseLine (h : Beside ts .line c d) (hv : isVersion c.rest) :
    Beside ts .ended c.responseLine d.responseLine := by
  refine h.step (fun h => h.responseLine) fun h => ?_
  have hle := (isVersion_le hv).trans (lineLength_le c.rest)
  rw [Cursor.responseLine, Cursor.responseLine, h.read]
  exact (h.beside.leaf (by decide) (h.read_add_le hle)).eatBlank.status.eatNewline

lemma checkHeaderName (h : Beside ts .line c d) (hs : stop ≤ ts.length) :
    Beside ts .line (c.checkHeaderName stop) (d.checkHeaderName stop) := by
  refine h.step (fun h => h.checkHeaderName stop) fun h => ?_
  simp only [Cursor.checkHeaderName, h.segment_eq hs]
  split_ifs
  · exact h.beside
  · exact (h.report rfl rfl rfl _).beside

/-- The value of a header behind its colon, or what stands in its place. -/
lemma headerValue (h : Beside ts .line c d) :
    Beside ts .ended
      (c.on .colon
        (fun e => (e.bump.eatBlank.value (e.bump.eatBlank.trimmedEnd c.lineEnd)).eatBlank)
        (Cursor.rejectLine .expectedColon "expected `:` after header name")).eatNewline
      (d.on .colon
        (fun e => (e.bump.eatBlank.value (e.bump.eatBlank.trimmedEnd d.lineEnd)).eatBlank)
        (Cursor.rejectLine .expectedColon "expected `:` after header name")).eatNewline := by
  refine Beside.eatNewline (h.step (fun h => ?_) fun h => ?_)
  · exact h.on (fun h => (h.bump.eatBlank.value (trimmedEnd_le_finish _ _)).eatBlank)
      fun h => h.rejectLine trivial _
  · refine h.on (by decide) (fun h' => ?_) fun h => h.beside.rejectLine rfl _
    refine (h'.beside.bump.eatBlank.step (fun h => h.value (trimmedEnd_le_finish _ _))
      fun h'' => ?_).eatBlank
    rw [h.lineEnd_eq, h''.trimmedEnd_eq h.lineEnd_le]
    exact h''.beside.value (h''.trimmedEnd_le _)

lemma header (h : Beside ts .line c d) : Beside ts .ended c.header d.header := by
  refine h.step (fun h => h.header) fun h => h.node (by decide) fun h => ?_
  have hle := h.read_add_le ((headerNameLength_le c.opened.rest).trans (lineLength_le _))
  have hend : d.opened.read + headerNameLength d.opened.rest
      = c.opened.read + headerNameLength c.opened.rest := by
    rw [h.same_line lineLocal_headerNameLength, h.read]
  dsimp only
  rw [hend]
  exact ((h.beside.checkHeaderName hle).leaf (by decide) hle).eatBlank.headerValue

lemma strayHeaderLine (h : Abreast ts c d) :
    Beside ts .ended c.strayHeaderLine d.strayHeaderLine := by
  simp only [Cursor.strayHeaderLine, h.lineEnd_eq]
  refine Beside.eatNewline (Beside.errorUntil (Abreast.beside ?_) h.lineEnd_le)
  refine h.file ?_ ?_ ?_ fun _ => ?_ <;> rfl

lemma headerLine (h : Abreast ts c d) :
    Beside ts .ended c.headerLine d.headerLine := by
  have h := h.look
  simp only [Cursor.headerLine, h.seesIn_eq (show commentKinds.contains .newline = false by decide),
    h.seesIn_eq (show headerNameKinds.contains .newline = false by decide)]
  split_ifs
  · exact h.beside.comment
  · exact h.beside.header
  · exact strayHeaderLine h

/-- **Headers** and the comments between them. -/
lemma headerLines (h : Beside ts .ended c d) : Beside ts .ended c.headerLines d.headerLines := by
  refine h.loopLines (I := fun _ => True) trivial
    (fun h hmore => h.headerLine (read_lt_lineEnd_of_not_blank ?_)) (fun _ _ => trivial)
    (fun {c d} h hne => ?_) (fun h _ _ _ => headerLine h) fun hstop => by simp [hstop]
  · exact Bool.eq_false_iff.mp ((Bool.not_eq_true' _).mp (Bool.and_eq_true_iff.mp hmore).2)
  · obtain ⟨hc, hd⟩ := h.stopped_of_ne hne
    rw [hc, hd, h.atSeparator_eq, h.atBlankLine_eq]

end Beside

end Cursor

end RequestFile
