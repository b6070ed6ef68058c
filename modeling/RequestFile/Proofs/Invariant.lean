import RequestFile.Proofs.Limits.Basic
import RequestFile.Proofs.Limits.Section
import RequestFile.Proofs.Step

/-!
What every step of a parse keeps.

An `Invariant` is a property of cursors together with the ranges that may be reported.

* **Steps.** Its fields are the ways in which productions change a cursor: a fault or a token more,
  a node opened or closed, a level down or up, a report. Ranges are those of the next token, of the
  tokens up to a position, and from an opener to the cursor.
* **Productions.** Every production is made of such steps, so it keeps every invariant, whatever the
  tokens are (`Invariant.Holds.sections`). Three facts about single productions go into this: a value
  is not empty (`interpolated_built`), neither is a line that is rejected among the headers, and
  where tokens are scanned ones, a request has a URL (`hasUrl_eatBlank`, `hasUrl_method`).
-/

namespace RequestFile

namespace Cursor

open Lookahead

/-- A property that every step of a parse keeps, in a source of `finish` tokens. -/
structure Invariant where
  finish : Nat
  Holds : Cursor → Prop
  /-- The ranges that may be reported. -/
  Range : Span → Prop
  /-- The problems that may be reported: all but, perhaps, a missing URL. -/
  Reportable : Problem → Prop
  reportable {p : Problem} : p ≠ .expectedUrl → Reportable p
  /-- A URL may be missing, or the tokens ahead are scanned ones. -/
  url {c : Cursor} : Holds c → Reportable .expectedUrl ∨ Token.Lexed c.rest
  finish_eq {c : Cursor} : Holds c → c.finish = finish
  broken {c : Cursor} (f : Fault) : Holds c → Holds (c.broken f)
  patience {c : Cursor} (n : Nat) : Holds c → Holds { c with patience := n }
  take {c : Cursor} (k : Kind) (n : Nat) : Holds c → Holds (c.take k n)
  opened {c : Cursor} : Holds c → Holds c.opened
  /-- Only nodes of values are known to have something below them. -/
  closed {c c' : Cursor} (k : Kind) : Holds c → Holds c' →
    (k = .value → c.exceeded = none → c'.built ≠ #[]) → Holds (c'.closed k c.built)
  lowered {c : Cursor} : Holds c → c.budget.atDepthLimit = false → Holds c.lowered
  raised {c : Cursor} : Holds c → Holds c.raised
  tooDeep {c : Cursor} : Holds c → c.budget.atDepthLimit = true →
    Holds { c with exceeded := c.exceeded <|> some .depth, patience := fullPatience }
  span {c : Cursor} : Holds c → Range c.span
  spanTo {c : Cursor} {stop : Nat} : Holds c → c.segment stop ≠ [] → Range (c.spanTo stop)
  extendTo {c : Cursor} {s : Span} : Holds c → Range s → Range (s.extendTo c.offset)
  fileAt {c : Cursor} {x : Diagnostic} (o : Nat) : Holds c → Range x.span →
    (∀ r ∈ x.related, Range r.span) → Reportable x.problem → Holds (c.fileAt o x)

variable {c : Cursor} {k : Kind} {stop : Nat} {opener : Span}

/-! ### Loops and text -/

/-- Trimming does not go beyond the end, whatever the position. -/
lemma trimmedEnd_le_finish (c : Cursor) (stop : Nat) : c.trimmedEnd stop ≤ c.finish :=
  Nat.add_le_add_left ((trimmedLength_le _).trans (List.length_take_le' _ _)) _

lemma read_lt_lineEnd_of_not_blank (hb : ¬c.atBlankLine) : c.read < c.lineEnd := by
  obtain ⟨t, us, hr, hk⟩ := exists_of_not_isBlankLine hb
  exact read_lt_lineEnd hr hk

/-- What a turn keeps is kept by a loop. -/
lemma iterate_induction {P : Cursor → Prop} {turn : Cursor → Turn}
    (hstuck : ∀ c, P c → P (c.broken .stuck)) (hturn : ∀ c, P c → P (turn c).cursor) (n : Nat)
    (h : P c) : P (iterate turn n c) := by
  induction n generalizing c with
  | zero => exact hstuck c h
  | succ n ih =>
      rw [iterate_succ]
      split_ifs
      · exact ih (hturn c h)
      · exact hturn c h

/-- A piece of text with references builds something. -/
lemma interpolatedPiece_built (hlt : c.read < stop) (hs : stop ≤ c.finish) :
    (interpolatedPiece stop c).built ≠ #[] := by
  obtain ⟨t, us, hr⟩ := exists_of_lt_finish (hlt.trans_le hs)
  rw [interpolatedPiece]
  by_cases hv : c.sees .varOpen
  · rw [on_pos hv]
    exact Array.push_ne_empty
  · rw [on_neg hv]
    have hbefore : c.look.read < c.look.before varOpenKinds stop :=
      read_lt_before (by rw [look_rest, hr]) (by rwa [look_read]) fun ht => hv (by
        simpa [sees, hr, varOpenKinds, KindSet.contains] using ht)
    rw [textUntil, segment_cons (by rw [look_rest, hr]) hbefore]
    exact Array.push_ne_empty

/-- A piece of text with references leaves what was built before it. -/
lemma interpolatedPiece_keeps (h : c.built ≠ #[]) : (interpolatedPiece stop c).built ≠ #[] := by
  rw [interpolatedPiece]
  by_cases hv : c.sees .varOpen
  · rw [on_pos hv]
    exact Array.push_ne_empty
  · rw [on_neg hv, textUntil]
    split_ifs
    · rwa [look_built]
    · exact Array.push_ne_empty

/-- Text with references that has some room builds something. -/
lemma interpolated_built (hx : c.exceeded = none) (hlt : c.read < stop) (hs : stop ≤ c.finish) :
    (c.interpolated stop).built ≠ #[] := by
  obtain ⟨t, us, hr⟩ := exists_of_lt_finish (hlt.trans_le hs)
  have hmore : (decide (c.read < stop) && !c.stopped) = true := by
    simp [hlt, stopped, atEnd, hr, hx]
  rw [interpolated, loopWhile, loop, iterate, if_pos hmore]
  refine iterate_induction (P := fun c => c.built ≠ #[]) (fun _ h => h) (fun c h => ?_) _
    (interpolatedPiece_built hlt hs)
  split_ifs
  · exact interpolatedPiece_keeps h
  · exact h

/-! ### Requests have a URL -/

/-- What a request begins with, after the indentation of its line, is a URL or stands before one. -/
lemma hasUrl_of_begins (hlex : Token.Lexed c.rest)
    (hb : PreambleLine.request.Begins (skipBlanks c.rest)) : c.eatBlank.HasUrl := by
  obtain ⟨t, us, hr, hk⟩ := hb
  refine hasUrl_of_skipBlanks (rest_eatBlank_of_lexed hlex) ?_
  simp [isBlankLine, hr, hk]

/-- A URL is still ahead after a method. -/
lemma hasUrl_method (hlex : Token.Lexed c.rest) (hurl : c.HasUrl) : c.method.HasUrl := by
  rw [← look_rest c] at hlex
  have hurl' : c.look.HasUrl := by rwa [HasUrl, look_rest]
  have hstep := method_step c
  generalize c.look = d at *
  generalize c.method = m at hstep ⊢
  cases hstep with
  | method hs _ hmore _ => exact hasUrl_after_method hlex hs hmore
  | warned hs => rwa [HasUrl, fileAt_rest]
  | bare => exact hurl'

namespace Invariant.Holds

variable {V : Invariant} {turn : Cursor → Turn} {body yes no : Cursor → Cursor}

/-! ### Steps -/

lemma look (h : V.Holds c) : V.Holds c.look := by
  rw [Cursor.look]
  split_ifs
  · exact V.broken _ h
  · exact V.patience _ h

lemma on (h : V.Holds c) (hyes : V.Holds c.look → V.Holds (yes c.look))
    (hno : V.Holds c.look → V.Holds (no c.look)) : V.Holds (c.on k yes no) := by
  rw [Cursor.on]
  split_ifs
  · exact hyes h.look
  · exact hno h.look

lemma demand (h : V.Holds c) (k : Kind) : V.Holds (c.demand k) :=
  h.on (fun h => h) fun h => V.broken _ h

lemma bump (h : V.Holds c) : V.Holds c.bump := by
  rw [Cursor.bump]
  cases c.rest with
  | nil => exact V.broken _ h
  | cons t ts => exact V.take _ _ h

lemma textUntil (h : V.Holds c) (stop : Nat) : V.Holds (c.textUntil stop) := by
  rw [Cursor.textUntil]
  split_ifs
  · exact h
  · exact V.take _ _ h

lemma eat (h : V.Holds c) (k : Kind) : V.Holds (c.eat k) := by
  rw [Cursor.eat]
  split_ifs
  · exact h
  · exact h.on bump fun h => h

lemma eatBlank (h : V.Holds c) : V.Holds c.eatBlank :=
  h.eat _

lemma eatNewline (h : V.Holds c) : V.Holds c.eatNewline :=
  h.eat _

lemma eatBlankLine (h : V.Holds c) : V.Holds c.eatBlankLine :=
  h.eatBlank.eatNewline

lemma node (h : V.Holds c) (hk : k ≠ .value) (hb : V.Holds c.opened → V.Holds (body c.opened)) :
    V.Holds (c.node k body) :=
  V.closed k h (hb (V.opened h)) fun hv => absurd hv hk

lemma leaf (h : V.Holds c) (hk : k ≠ .value) (stop : Nat) : V.Holds (c.leaf k stop) :=
  h.node hk fun h => h.textUntil stop

lemma operator (h : V.Holds c) : V.Holds c.operator :=
  h.node (by decide) bump

lemma errorUntil (h : V.Holds c) (stop : Nat) : V.Holds (c.errorUntil stop) := by
  rw [Cursor.errorUntil]
  split_ifs
  · exact h
  · exact h.leaf (by decide) stop

/-- A production one level deeper begins at the same tokens. -/
lemma nestedAt (h : V.Holds c) (hb : ∀ d : Cursor, d.rest = c.rest → V.Holds d → V.Holds (body d)) :
    V.Holds (c.nested body) :=
  nested_cases (fun hroom => V.tooDeep h hroom) fun hroom =>
    V.raised (hb c.lowered rfl (V.lowered h hroom))

lemma nested (h : V.Holds c) (hb : ∀ {c}, V.Holds c → V.Holds (body c)) :
    V.Holds (c.nested body) :=
  h.nestedAt fun _ _ h => hb h

/-- What is done only in front of a position. -/
lemma ifBefore {c' : Cursor} (h : V.Holds c) (stop : Nat) (h' : V.Holds c') :
    V.Holds (if c.read < stop then c' else c) := by
  split_ifs
  · exact h'
  · exact h

/-! ### Loops -/

lemma loop (h : V.Holds c) (hturn : ∀ {c}, V.Holds c → V.Holds (turn c).cursor) :
    V.Holds (c.loop turn) :=
  iterate_induction (fun _ h => V.broken _ h) (fun _ h => hturn h) _ h

lemma loopWhile {more : Cursor → Bool} (h : V.Holds c)
    (hbody : ∀ {c}, V.Holds c → more c → V.Holds (body c)) : V.Holds (c.loopWhile more body) := by
  refine h.loop fun {c} h => ?_
  split_ifs with hmore
  · exact hbody h hmore
  · exact h

lemma eatNewlines (h : V.Holds c) : V.Holds c.eatNewlines := by
  refine h.loop fun {c} h => ?_
  dsimp only
  split_ifs
  · exact h
  · exact h.look.bump
  · exact h.look

/-! ### Reports -/

lemma report {span : Span} {p : Problem} (h : V.Holds c) (hp : V.Reportable p)
    (hs : V.Range span) (s : String) : V.Holds (c.report p span s) :=
  V.fileAt _ h hs (by simp [Diagnostic.new, Diagnostic.saying]) hp

lemma reportHere {p : Problem} (h : V.Holds c) (hp : V.Reportable p) (s : String) :
    V.Holds (c.reportHere p s) :=
  h.report hp (V.span h) s

lemma reportUnclosed {p : Problem} (h : V.Holds c) (hp : V.Reportable p) (detail label : String)
    (ho : V.Range opener) : V.Holds (c.reportUnclosed p detail label opener) :=
  V.fileAt _ h (V.extendTo h ho)
    (by simpa [Diagnostic.new, Diagnostic.saying, Diagnostic.relatedTo] using ho) hp

/-- The tokens up to the end of the line, where there are some. -/
lemma range_line (h : V.Holds c) (hlt : c.read < c.lineEnd) : V.Range (c.spanTo c.lineEnd) := by
  obtain ⟨t, us, hr, _⟩ := exists_of_lt_lineEnd hlt
  exact V.spanTo h (by rw [segment_cons hr hlt]; exact List.cons_ne_nil _ _)

lemma rejectLine {p : Problem} (h : V.Holds c) (hp : V.Reportable p) (s : String) :
    V.Holds (c.rejectLine p s) := by
  have hspan : V.Range (if c.read < c.lineEnd then c.spanTo c.lineEnd else c.span) := by
    split_ifs with hlt
    · exact h.range_line hlt
    · exact V.span h
  exact (h.report hp hspan s).errorUntil _

lemma finishLine (h : V.Holds c) (s : String) : V.Holds (c.finishLine s) := by
  rw [Cursor.finishLine]
  split_ifs
  · exact h
  · exact h.on (fun h => h) fun h => h.rejectLine (V.reportable (by decide)) s

/-! ### Values and paths -/

lemma identifierWithin (h : V.Holds c) (bound : Option Nat) :
    V.Holds (c.identifierWithin bound) := by
  rw [Cursor.identifierWithin]
  cases identifierLength? c.rest with
  | none => exact h.reportHere (V.reportable (by decide)) _
  | some n =>
      dsimp only
      split_ifs
      · exact h.leaf (by decide) _
      · exact h.reportHere (V.reportable (by decide)) _

lemma identifier (h : V.Holds c) : V.Holds c.identifier :=
  h.identifierWithin none

lemma variableName (h : V.Holds c) (stop : Nat) : V.Holds (c.variableName stop) := by
  rw [Cursor.variableName]
  split_ifs
  · exact h.identifierWithin _
  · exact h.reportHere (V.reportable (by decide)) _

lemma blankBeforeCloser (h : V.Holds c) (stop : Nat) : V.Holds (c.blankBeforeCloser stop) := by
  rw [Cursor.blankBeforeCloser]
  split_ifs
  · refine h.on (fun h => ?_) fun h => h
    split_ifs
    · exact h.bump
    · exact h
  · exact h

lemma variableCloser (h : V.Holds c) (stop : Nat) (ho : V.Range opener) :
    V.Holds (c.variableCloser stop opener) := by
  simp only [Cursor.variableCloser]
  split_ifs
  · exact h.on bump fun h => h.reportUnclosed (V.reportable (by decide)) _ _ ho
  · exact h.reportUnclosed (V.reportable (by decide)) _ _ ho

lemma variableRef (h : V.Holds c) (stop : Nat) : V.Holds (c.variableRef stop) := by
  have h := h.demand .varOpen
  simp only [Cursor.variableRef]
  exact h.node (by decide) fun h' =>
    (((h'.bump.ifBefore stop h'.bump.eatBlank).variableName stop).blankBeforeCloser
      stop).variableCloser stop (V.span h)

lemma interpolated (h : V.Holds c) (stop : Nat) : V.Holds (c.interpolated stop) :=
  h.loopWhile fun h _ => h.on (fun h => h.variableRef stop) fun h => h.textUntil _

lemma interpolatedNode (h : V.Holds c) (hk : k ≠ .value) (stop : Nat) :
    V.Holds (c.interpolatedNode k stop) :=
  h.node hk fun h => h.interpolated stop

/-- A value is not empty. -/
lemma value (h : V.Holds c) (hs : stop ≤ c.finish) : V.Holds (c.value stop) := by
  rw [Cursor.value]
  split_ifs with hle
  · exact h
  · exact V.closed _ h ((V.opened h).interpolated stop) fun _ hx =>
      interpolated_built (c := c.opened) hx (Nat.lt_of_not_le hle) hs

lemma trimmedValue (h : V.Holds c) : V.Holds (c.value (c.trimmedEnd c.lineEnd)) :=
  h.value (c.trimmedEnd_le_finish _)

/-- A value up to a position that an earlier cursor has found. -/
lemma valueOf {c' : Cursor} (h : V.Holds c) (h' : V.Holds c') (hs : stop ≤ c.finish) :
    V.Holds (c'.value stop) :=
  h'.value (by rwa [V.finish_eq h', ← V.finish_eq h])

lemma path (h : V.Holds c) : V.Holds c.path := by
  rw [Cursor.path]
  split
  · exact h.reportHere (V.reportable (by decide)) _
  · exact h.interpolatedNode (by decide) _

/-! ### Scripts -/

lemma scriptPiece (h : V.Holds c) (ho : V.Range opener) :
    V.Holds (scriptPiece opener c).cursor := by
  simp only [Cursor.scriptPiece]
  split_ifs
  · exact h.reportUnclosed (V.reportable (by decide)) _ _ ho
  · exact h.look.bump
  · exact h.look.look.bump
  · exact h.look.look.textUntil _

lemma inlineScript (h : V.Holds c) : V.Holds c.inlineScript := by
  have h := h.demand .scriptOpen
  simp only [Cursor.inlineScript]
  exact h.node (by decide) fun h' => h'.bump.loop fun h' => h'.scriptPiece (V.span h)

lemma scriptOrPath (h : V.Holds c) : V.Holds c.scriptOrPath :=
  h.on inlineScript path

lemma finishScriptLine (h : V.Holds c) : V.Holds c.finishScriptLine := by
  rw [Cursor.finishScriptLine]
  split_ifs
  · exact h
  · exact (h.eatBlank.finishLine _).eatNewlines

lemma scriptLine (h : V.Holds c) (hk : k ≠ .value)
    (hbody : ∀ {c}, V.Holds c → V.Holds (body c)) : V.Holds (c.scriptLine k body) :=
  h.node hk fun h => (hbody h.bump.eatBlank).finishScriptLine

/-! ### Lines in front of a request -/

lemma separator (h : V.Holds c) : V.Holds c.separator := by
  have h := h.demand .separatorMarker
  simp only [Cursor.separator]
  exact h.node (by decide) fun h => h.bump.eatBlank.trimmedValue.eatBlank.eatNewline

lemma comment (h : V.Holds c) : V.Holds c.comment :=
  h.node (by decide) fun h => (h.bump.textUntil _).eatNewline

lemma metadataValue (h : V.Holds c) : V.Holds c.metadataValue := by
  simp only [Cursor.metadataValue]
  refine h.ifBefore _ (h.valueOf ?_ (c.trimmedEnd_le_finish _))
  split_ifs
  · exact h.eatBlank
  · exact h.eatBlank.on (fun h => h.bump.eatBlank) fun h => h

lemma metadata (h : V.Holds c) : V.Holds c.metadata :=
  h.node (by decide) fun h =>
    ((h.bump.eatBlank).demand .at).bump.identifier.metadataValue.eatBlank.eatNewline

lemma assignedValue (h : V.Holds c) (hs : stop ≤ c.finish) : V.Holds (c.assignedValue stop) := by
  rw [Cursor.assignedValue]
  split_ifs
  · exact h.reportHere (V.reportable (by decide)) _
  · exact h.value hs

lemma assignment (h : V.Holds c) (hs : stop ≤ c.finish) : V.Holds (c.assignment stop) := by
  have h' := ((h.demand .at).bump.identifier).eatBlank
  simp only [Cursor.assignment]
  split_ifs
  · exact (h'.reportHere (V.reportable (by decide)) _).errorUntil _
  · refine h'.on (fun h' => h'.bump.eatBlank.assignedValue ?_) fun h' =>
      (h'.reportHere (V.reportable (by decide)) _).errorUntil _
    rwa [V.finish_eq h'.bump.eatBlank, ← V.finish_eq h]

lemma variableDeclaration (h : V.Holds c) : V.Holds c.variableDeclaration :=
  h.node (by decide) fun h =>
    (h.assignment (trimmedEnd_le_finish _ _)).eatBlank.eatNewline

lemma argument (h : V.Holds c) : V.Holds c.argument :=
  h.node (by decide) fun h => h.assignment (trimmedEnd_le_finish _ _)

lemma argumentTurn (h : V.Holds c) : V.Holds (argumentTurn c).cursor := by
  have h' := h.look.argument.eatBlank
  simp only [Cursor.argumentTurn]
  split_ifs
  · exact h.look
  · exact h'
  · exact h'.look.bump.eatBlank
  · exact h'.look

lemma argumentsCloser (h : V.Holds c) (ho : V.Range opener) :
    V.Holds (c.argumentsCloser opener) := by
  have hmissing : ∀ {c}, V.Holds c → V.Holds
      (c.file (((Diagnostic.new .expectedCloseParen c.span).saying "expected `)`").relatedTo
        "declarations start here" opener)) := fun h =>
    V.fileAt _ h (V.span h)
      (by simpa [Diagnostic.new, Diagnostic.saying, Diagnostic.relatedTo] using ho)
      (V.reportable (p := .expectedCloseParen) (by decide))
  simp only [Cursor.argumentsCloser]
  split_ifs
  · exact hmissing h
  · exact h.on bump hmissing

lemma arguments (h : V.Holds c) : V.Holds c.arguments := by
  have h := h.demand .parenOpen
  exact (h.bump.eatBlank.loop argumentTurn).argumentsCloser (V.span h)

lemma commandValue (h : V.Holds c) (hs : stop ≤ c.finish) : V.Holds (c.commandValue stop) := by
  rw [Cursor.commandValue]
  split_ifs
  · exact h.value hs
  · exact h.reportHere (V.reportable (by decide)) _

lemma command (h : V.Holds c) : V.Holds c.command := by
  refine h.node (by decide) fun h => ?_
  have h := (h.leaf (k := .commandName) (by decide) (c.opened.read + 1)).eatBlank
  have hvalue := fun stop => h.commandValue (trimmedEnd_le_finish _ stop)
  dsimp only
  split_ifs
  · exact ((hvalue _).eatBlank.arguments.eatBlank.finishLine _).eatNewline
  · exact ((hvalue _).eatBlank.finishLine _).eatNewline

/-! ### Request lines -/

lemma part (h : V.Holds c) (hk : k ≠ .value) (stop : Nat) : V.Holds (c.part k stop) :=
  h.ifBefore _ (h.interpolatedNode hk _)

lemma queryValue (h : V.Holds c) (stop : Nat) : V.Holds (c.queryValue stop) :=
  h.ifBefore _ (h.on (fun h => h.operator.part (by decide) _) fun h => h)

lemma queryParam (h : V.Holds c) (stop : Nat) : V.Holds (c.queryParam stop) := by
  have hbuild : ∀ {c}, V.Holds c → ∀ i, V.Holds
      (c.node .queryParam fun c => (c.part .queryParamName i).queryValue stop) := fun h i =>
    h.node (by decide) fun h => (h.part (by decide) i).queryValue stop
  simp only [Cursor.queryParam]
  split_ifs
  · exact h.on (fun h => hbuild h _) fun h => h
  · exact hbuild h _

lemma queryPart (h : V.Holds c) (hk : k ≠ .value) (stop : Nat) : V.Holds (c.queryPart k stop) :=
  h.node hk fun h => h.operator.ifBefore stop (h.operator.queryParam stop)

lemma fragment (h : V.Holds c) (stop : Nat) : V.Holds (c.fragment stop) :=
  h.node (by decide) fun h => h.operator.textUntil _

lemma urlPiece (h : V.Holds c) (stop : Nat) : V.Holds (c.urlPiece stop) := by
  have h := h.look
  simp only [Cursor.urlPiece]
  split_ifs
  · exact h.queryPart (by decide) stop
  · exact h.queryPart (by decide) stop
  · exact h.fragment stop
  · exact h.variableRef stop
  · exact h.textUntil _

lemma urlLine (h : V.Holds c) (stop : Nat) : V.Holds (c.urlLine stop) :=
  h.loopWhile fun h _ => h.urlPiece stop

lemma urlNextLine (h : V.Holds c) : V.Holds c.urlNextLine.1 :=
  h.eatBlank.eatNewline.eatBlank.urlLine _

lemma urlNextLines (h : V.Holds c) (version : Option Nat) (fuel : Nat) :
    V.Holds (c.urlNextLines version fuel).1 := by
  induction fuel generalizing c version with
  | zero => exact V.broken _ h
  | succ fuel ih =>
      rw [Cursor.urlNextLines]
      split_ifs
      · exact ih h.urlNextLine _
      · exact h

lemma reportMethodCase (h : V.Holds c) : V.Holds c.reportMethodCase := by
  simp only [Cursor.reportMethodCase]
  cases methodLike? (headText c.rest) with
  | none => exact h
  | some m =>
      exact V.fileAt _ h (V.span h)
        (by simp [Diagnostic.new, Diagnostic.saying, Diagnostic.fixedBy])
        (V.reportable (p := .unknownMethod) (by decide))

lemma method (h : V.Holds c) : V.Holds c.method := by
  have h := h.look
  simp only [Cursor.method]
  split_ifs
  · exact (h.leaf (by decide) _).eatBlank
  · exact h.reportMethodCase
  · exact h

lemma targetUrl (h : V.Holds c) (hurl : V.Reportable .expectedUrl ∨ c.HasUrl) :
    V.Holds c.targetUrl.1 := by
  simp only [Cursor.targetUrl]
  split_ifs with hnone
  · exact h.reportHere (hurl.resolve_right fun hurl => hurl.pos.ne' hnone) _
  · exact V.closed _ h (((V.opened h).urlLine _).urlNextLines _ _) fun hv => by cases hv

lemma version (h : V.Holds c) (position : Option Nat) : V.Holds (c.version position) := by
  cases position with
  | none => exact h
  | some v =>
      simp only [Cursor.version]
      split_ifs
      · exact h.eatBlank.leaf (by decide) _
      · exact h.eatBlank

lemma requestLine (h : V.Holds c) (hurl : V.Reportable .expectedUrl ∨ c.HasUrl) :
    V.Holds c.requestLine := by
  have hurl' : V.Reportable .expectedUrl ∨ c.method.HasUrl := by
    rcases hurl with hmay | hurl
    · exact .inl hmay
    · exact (V.url h).imp_right fun hlex => hasUrl_method hlex hurl
  exact (((h.method.targetUrl hurl').version _).eatBlank.finishLine _).eatNewline

/-! ### Response lines and headers -/

lemma status (h : V.Holds c) : V.Holds c.status := by
  have h := h.look
  simp only [Cursor.status]
  split_ifs
  · exact ((h.leaf (by decide) _).eatBlank.leaf (by decide) _).eatBlank
  · exact (h.leaf (by decide) _).eatBlank.eatBlank
  · exact h.rejectLine (V.reportable (by decide)) _

lemma responseLine (h : V.Holds c) : V.Holds c.responseLine :=
  (h.leaf (by decide) _).eatBlank.status.eatNewline

/-- The name of a header without tokens is not reported. -/
lemma checkHeaderName (h : V.Holds c) (stop : Nat) : V.Holds (c.checkHeaderName stop) := by
  simp only [Cursor.checkHeaderName]
  split_ifs with hname
  · exact h
  · refine h.report (V.reportable (by decide)) (V.spanTo h fun hnil => hname ?_) _
    rw [hnil]
    rfl

lemma header (h : V.Holds c) : V.Holds c.header := by
  refine h.node (by decide) fun h => ?_
  have hname := fun stop => ((h.checkHeaderName stop).leaf (k := .headerEntity) (by decide)
    stop).eatBlank
  dsimp only
  refine ((hname _).on (fun h => ?_) fun h => h.rejectLine (V.reportable (by decide)) _).eatNewline
  exact (h.bump.eatBlank.value (trimmedEnd_le_finish _ _)).eatBlank

lemma strayHeaderLine (h : V.Holds c) (hlt : c.read < c.lineEnd) : V.Holds c.strayHeaderLine := by
  have hfile := V.fileAt c.offset h (h.range_line hlt) (x := ((Diagnostic.new .unexpectedLine
    (c.spanTo c.lineEnd)).saying "expected a header or a blank line before the body").hinting
    "separate the body from the headers with a blank line")
    (by simp [Diagnostic.new, Diagnostic.saying, Diagnostic.hinting]) (V.reportable (p := .unexpectedLine) (by decide))
  exact (errorUntil hfile _).eatNewline

lemma headerLine (h : V.Holds c) (hlt : c.read < c.lineEnd) : V.Holds c.headerLine := by
  have h := h.look
  simp only [Cursor.headerLine]
  split_ifs
  · exact h.comment
  · exact h.header
  · exact h.strayHeaderLine (by rwa [look_read, look_lineEnd])

/-- The lines among the headers are not blank. -/
lemma headerLines (h : V.Holds c) : V.Holds c.headerLines := by
  refine h.loopWhile fun {c} h hmore => h.headerLine (read_lt_lineEnd_of_not_blank ?_)
  exact Bool.eq_false_iff.mp ((Bool.not_eq_true' _).mp (Bool.and_eq_true_iff.mp hmore).2)

/-! ### Bodies -/

lemma textLines (h : V.Holds c) (stop : Nat) : V.Holds (c.textLines stop) :=
  h.loopWhile fun h _ => (h.textUntil _).ifBefore stop (h.textUntil _).eatNewline

lemma textNode (h : V.Holds c) (hk : k ≠ .value) (stop : Nat) : V.Holds (c.textNode k stop) :=
  h.node hk fun h => h.textLines stop

lemma external (h : V.Holds c) : V.Holds c.external :=
  ((h.bump.eat .at).eatBlank).path

lemma finishPathLine (h : V.Holds c) : V.Holds c.finishPathLine :=
  (h.eatBlank.finishLine _).eatNewline

lemma externalBody (h : V.Holds c) : V.Holds c.externalBody :=
  (h.node (by decide) external).finishPathLine

lemma multipartExternal (h : V.Holds c) : V.Holds c.multipartExternal :=
  h.node (by decide) fun h => h.external.finishPathLine

lemma boundaryLine (h : V.Holds c) (b : Boundary) (textEnd : Nat) :
    V.Holds (c.boundaryLine b textEnd) := by
  refine h.node (by cases b <;> decide) fun h => ?_
  dsimp only
  split_ifs
  · exact ((h.bump.part (by decide) _).bump.eatBlank.finishLine _).eatNewline
  · exact ((h.bump.part (by decide) _).eatBlank.finishLine _).eatNewline

lemma multipartContent (h : V.Holds c) : V.Holds c.multipartContent :=
  h.node (by decide) fun h => (h.textUntil _).eatNewline

lemma multipartTurn (h : V.Holds c) (ho : V.Range opener) :
    V.Holds (multipartTurn opener c).cursor := by
  have h' := h.look
  simp only [Cursor.multipartTurn]
  split_ifs
  · exact h.reportUnclosed (V.reportable (by decide)) _ _ ho
  · exact h.eatBlankLine
  · cases c.look.boundaryHere c.look.boundaryTextEnd <;> exact h'.boundaryLine _ _
  · exact h'.multipartExternal
  · exact h'.header
  · exact h'.multipartContent

lemma multipart (h : V.Holds c) : V.Holds c.multipart := by
  simp only [Cursor.multipart]
  exact h.node (by decide) fun h' =>
    (h'.boundaryLine .first _).loop fun h' => h'.multipartTurn (V.span h)

lemma formParam (h : V.Holds c) : V.Holds c.formParam := by
  simp only [Cursor.formParam]
  split_ifs
  · exact h
  · exact h.node (by decide) fun h =>
      (h.part (by decide) _).eatBlank.operator.eatBlank.part (by decide) _
  · exact h.node (by decide) fun h => (h.part (by decide) _).eatBlank

lemma formTurn (h : V.Holds c) : V.Holds (formTurn c).cursor := by
  have h := h.formParam.look
  simp only [Cursor.formTurn]
  split_ifs
  · refine h.operator.on (fun h => ?_) fun h => h
    split_ifs
    · exact h.bump
    · exact h
  · exact h

lemma formBody (h : V.Holds c) : V.Holds c.formBody :=
  h.node (by decide) fun h => (((h.loop formTurn).eatBlank).finishLine _).eatNewline

lemma skipTo (h : V.Holds c) (stop : Nat) : V.Holds (c.skipTo stop) :=
  h.loopWhile fun h _ => h.eatBlankLine

lemma graphqlVariables (h : V.Holds c) : V.Holds c.graphqlVariables := by
  simp only [Cursor.graphqlVariables]
  split_ifs
  · exact (h.skipTo _).textNode (by decide) _
  · exact h

lemma graphqlFile (h : V.Holds c) : V.Holds c.graphqlFile := by
  simp only [Cursor.graphqlFile]
  split_ifs
  · exact (h.skipTo _).externalBody
  · exact h

lemma graphqlBody (h : V.Holds c) : V.Holds c.graphqlBody :=
  h.node (by decide) fun h => (h.textNode (by decide) _).graphqlVariables.graphqlFile

lemma bodyItem (h : V.Holds c) (line : BodyLine) : V.Holds (c.bodyItem line) := by
  cases line with
  | blank => exact h.eatBlankLine
  | comment => exact h.comment
  | responseHandler => exact h.scriptLine (by decide) scriptOrPath
  | redirect => exact h.scriptLine (by decide) path
  | multipart => exact h.multipart
  | external => exact h.externalBody
  | xml => exact h.textNode (by decide) _
  | json => exact h.textNode (by decide) _
  | graphql => exact h.graphqlBody
  | form => exact h.formBody
  | raw => exact h.textNode (by decide) _

/-! ### Sections -/

lemma bodySection (h : V.Holds c) : V.Holds c.bodySection :=
  h.nested fun h => h.loopWhile fun h _ => h.bodyItem _

lemma message (h : V.Holds c) : V.Holds c.message := by
  have h := h.headerLines
  simp only [Cursor.message]
  split_ifs
  · exact h.bodySection
  · exact h

lemma request (h : V.Holds c) (hurl : V.Reportable .expectedUrl ∨ c.HasUrl) :
    V.Holds c.request := by
  refine h.nestedAt fun d hrest h => h.node (by decide) fun h => (h.requestLine ?_).message
  exact hurl.imp_right fun hurl => by rwa [HasUrl, Cursor.opened, hrest]

lemma response (h : V.Holds c) : V.Holds c.response :=
  h.nested fun h => h.node (by decide) fun h => h.responseLine.message

lemma preambleTurn (h : V.Holds c) : V.Holds (preambleTurn c).cursor := by
  have h' := h.eatBlank
  have hbegins := PreambleLine.begins_ofTokens (skipBlanks c.rest)
  simp only [Cursor.preambleTurn]
  split_ifs
  · exact h
  · cases hline : PreambleLine.ofTokens (skipBlanks c.rest) with
    | blank => exact h'.eatNewline
    | comment => exact h'.comment
    | metadata => exact h'.metadata
    | variableDeclaration => exact h'.variableDeclaration
    | command => exact h'.command
    | preRequestScript => exact h'.scriptLine (by decide) scriptOrPath
    | response => exact h'.response
    | request =>
        rw [hline] at hbegins
        exact h'.request ((V.url h).imp_right fun hlex => hasUrl_of_begins hlex hbegins)

lemma fullSection (h : V.Holds c) : V.Holds c.fullSection := by
  refine h.nested fun h => h.node (by decide) fun h => ?_
  split_ifs
  · exact h.separator.loop preambleTurn
  · exact h.loop preambleTurn

/-- **Whole parses** keep every invariant. -/
lemma sections (h : V.Holds c) : V.Holds c.sections :=
  h.loopWhile fun h _ => h.fullSection

end Invariant.Holds

end Cursor

end RequestFile
