import RequestFile.Parse.Body
import RequestFile.Proofs.Limits.Head

/-!
Bodies under limits.

What begins on a line of a body does not nest (`Metered.bodyItem`); the body section around it is one
level deeper (`Metered.bodySection`).
-/

namespace RequestFile

namespace Cursor

namespace Metered

variable {n : Nat}

/-! ### Text and files -/

lemma textLines (stop : Nat) : Metered n (textLines stop) := by
  have htext : Metered n fun c : Cursor => c.textUntil (min c.lineEnd stop) :=
    seen (a := fun c => min c.lineEnd stop) (fun _ => rfl) fun i => textUntil i
  have hline := htext.andThen (ite (p := fun c => c.read < stop) (fun _ => Iff.rfl) eatNewline .id)
  exact loopWhile (fun _ => rfl) hline

lemma textNode (k : Kind) (stop : Nat) : Metered n (textNode k stop) :=
  (textLines stop).node

lemma textBody (k : Kind) : Metered n (textBody k) :=
  seen (a := fun c => c.read + Lookahead.textLength Lookahead.isBodyStop c.rest) (fun _ => rfl)
    fun stop => textNode k stop

lemma rawBody : Metered n rawBody :=
  seen (a := fun c => c.read + Lookahead.textLength
    (fun l => Lookahead.isBlankLine l || Lookahead.isBodyStop l) c.rest) (fun _ => rfl)
    fun stop => textNode .rawBody stop

lemma finishPathLine : Metered n finishPathLine :=
  (eatBlank.andThen (finishLine _)).andThen eatNewline

lemma external : Metered n external :=
  ((bump.andThen eat).andThen eatBlank).andThen path

lemma externalBody : Metered n externalBody :=
  external.node.andThen finishPathLine

lemma multipartExternal : Metered n multipartExternal :=
  node (external.andThen finishPathLine)

/-! ### Multipart bodies -/

lemma boundaryLine (b : Boundary) (textEnd : Nat) : Metered n (boundaryLine b textEnd) := by
  have htext := bump.andThen
    (part (n := n) .boundaryValue (if b = .last then textEnd - 1 else textEnd))
  have hcloser : Metered n fun c : Cursor => if b = .last then c.bump else c :=
    ite (p := fun _ => b = .last) (fun _ => Iff.rfl) bump .id
  have hend := (eatBlank.andThen
    (finishLine (n := n) "unexpected text after the boundary")).andThen eatNewline
  have hall := (htext.andThen hcloser).andThen hend
  exact hall.node

lemma multipartContent : Metered n multipartContent :=
  node ((seen (a := lineEnd) (fun _ => rfl) fun stop => textUntil stop).andThen eatNewline)

/-- A boundary line other than the first, and whether it is the last. -/
lemma boundaryTurn : MeteredTurn n fun c : Cursor =>
    match c.boundaryHere c.boundaryTextEnd with
    | .last => .done (c.boundaryLine .last c.boundaryTextEnd)
    | b => .again (c.boundaryLine b c.boundaryTextEnd) := by
  have hturn : ∀ (b : Boundary) (textEnd : Nat), MeteredTurn n fun c : Cursor =>
      match b with
      | .last => .done (c.boundaryLine .last textEnd)
      | b => .again (c.boundaryLine b textEnd) := by
    intro b textEnd
    cases b with
    | last => exact .done (boundaryLine .last textEnd)
    | first => exact .again (boundaryLine .first textEnd)
    | inner => exact .again (boundaryLine .inner textEnd)
  exact MeteredTurn.seen (a := fun c => c.boundaryTextEnd) (fun _ => rfl) fun textEnd =>
    MeteredTurn.seen (a := fun c => c.boundaryHere textEnd) (fun _ => rfl) fun b => hturn b textEnd

lemma multipartTurn (opener : Span) : MeteredTurn n (multipartTurn opener) := by
  have hheader := MeteredTurn.ite (p := fun c => Lookahead.isHeader c.rest = true)
    (fun _ => Iff.rfl) (.again (header (n := n))) (.again multipartContent)
  have hexternal := MeteredTurn.ite (p := fun c => Lookahead.isExternal c.rest = true)
    (fun _ => Iff.rfl) (.again (multipartExternal (n := n))) hheader
  have hboundary := MeteredTurn.ite (p := fun c => Lookahead.isBoundary c.rest = true)
    (fun _ => Iff.rfl) boundaryTurn hexternal
  have hblank := MeteredTurn.ite (p := fun c => c.atBlankLine = true) (fun _ => Iff.rfl)
    (.again eatBlankLine) (.after look hboundary)
  exact .ite (p := fun c => (c.stopped || c.atSeparator || Lookahead.isHandler c.rest) = true)
    (fun _ => Iff.rfl) (.done (reportUnclosed _ _ _ opener)) hblank

lemma multipart : Metered n multipart := by
  have hfirst : Metered n fun c : Cursor => c.boundaryLine .first c.boundaryTextEnd :=
    seen (a := fun c => c.boundaryTextEnd) (fun _ => rfl) fun textEnd => boundaryLine .first textEnd
  exact seen (a := span) (fun _ => rfl) fun opener =>
    node (hfirst.andThen (loop (multipartTurn opener)))

/-! ### Forms -/

lemma formValue (lineEnd : Nat) : Metered n (formValue lineEnd) := by
  have hpart : Metered n fun c : Cursor =>
      c.part .formParamValue (c.trimmedEnd (c.outsideVariables paramValueEndKinds lineEnd)) :=
    seen (a := fun c => c.trimmedEnd (c.outsideVariables paramValueEndKinds lineEnd))
      (fun _ => rfl) fun stop => part _ stop
  have hall := (operator.andThen eatBlank).andThen hpart
  exact hall

lemma formParam : Metered n formParam := by
  have hparam : ∀ (lineEnd nameEnd : Nat) (hasValue : Bool), Metered n fun c : Cursor =>
      if nameEnd = c.read && !hasValue then c
      else c.node .formParam fun c =>
        if hasValue then (c.part .formParamName nameEnd).eatBlank.formValue lineEnd
        else (c.part .formParamName nameEnd).eatBlank := by
    intro lineEnd nameEnd hasValue
    have hname := (part (n := n) .formParamName nameEnd).andThen eatBlank
    have hvalue := hname.andThen (ite (p := fun _ => hasValue = true) (fun _ => Iff.rfl)
      (formValue lineEnd) .id)
    exact ite (p := fun c => (nameEnd = c.read && !hasValue) = true) (fun _ => Iff.rfl) .id
      hvalue.node
  exact seen (a := lineEnd) (fun _ => rfl) fun lineEnd =>
    seen (a := fun c => c.outsideVariables formNameEndKinds lineEnd) (fun _ => rfl) fun nameStop =>
      seen (a := fun c => c.trimmedEnd nameStop) (fun _ => rfl) fun nameEnd =>
        seen (a := fun c => Lookahead.startsWith .equals (c.rest.drop (nameStop - c.read)))
          (fun _ => rfl) fun hasValue => hparam lineEnd nameEnd hasValue

lemma formTurn : MeteredTurn n formTurn := by
  have hbreak := ite (p := fun c : Cursor => formContinues (c.rest.drop 1) = true)
    (fun _ => Iff.rfl) (bump (n := n)) .id
  have hnext := operator.andThen (on (k := .newline) hbreak .id)
  have hmore := MeteredTurn.ite (p := fun c => c.sees .ampersand = true) (fun _ => Iff.rfl)
    (.again hnext) (.done .id)
  have hall := MeteredTurn.after (formParam.andThen look) hmore
  exact hall

lemma formBody : Metered n formBody := by
  have hall := (((loop (formTurn (n := n))).andThen eatBlank).andThen
    (finishLine "unexpected text in form body")).andThen eatNewline
  exact hall.node

/-! ### GraphQL -/

lemma skipTo (stop : Nat) : Metered n (skipTo stop) :=
  loopWhile (fun _ => rfl) eatBlankLine

lemma graphqlVariables : Metered n graphqlVariables := by
  have hjson : Metered n fun c : Cursor => c.textNode .jsonBody
      (c.read + Lookahead.lengthBeforeTail Lookahead.isExternal c.rest) :=
    seen (a := fun c => c.read + Lookahead.lengthBeforeTail Lookahead.isExternal c.rest)
      (fun _ => rfl) fun stop => textNode _ stop
  have hskip : ∀ len : Nat, Metered n fun c : Cursor => c.skipTo (c.read + len) := fun len =>
    seen (a := fun c => c.read + len) (fun _ => rfl) fun stop => skipTo stop
  have hall : ∀ len : Nat, Metered n fun c : Cursor => if Lookahead.isJson (c.rest.drop len) then
      (c.skipTo (c.read + len)).textNode .jsonBody ((c.skipTo (c.read + len)).read
        + Lookahead.lengthBeforeTail Lookahead.isExternal (c.skipTo (c.read + len)).rest)
      else c := fun len =>
    ite (p := fun c => Lookahead.isJson (c.rest.drop len) = true) (fun _ => Iff.rfl)
      ((hskip len).andThen hjson) .id
  exact seen (a := fun c => Lookahead.blankLinesLength c.rest) (fun _ => rfl) hall

lemma graphqlFile : Metered n graphqlFile := by
  have hskip : ∀ len : Nat, Metered n fun c : Cursor => c.skipTo (c.read + len) := fun len =>
    seen (a := fun c => c.read + len) (fun _ => rfl) fun stop => skipTo stop
  have hall : ∀ len : Nat, Metered n fun c : Cursor =>
      if Lookahead.isExternal (c.rest.drop len) then (c.skipTo (c.read + len)).externalBody
      else c := fun len =>
    ite (p := fun c => Lookahead.isExternal (c.rest.drop len) = true) (fun _ => Iff.rfl)
      ((hskip len).andThen externalBody) .id
  exact seen (a := fun c => Lookahead.blankLinesLength c.rest) (fun _ => rfl) hall

lemma graphqlBody : Metered n graphqlBody := by
  have hdata : Metered n fun c : Cursor => c.textNode .graphqlData
      (c.read + Lookahead.lengthBeforeTail Lookahead.isGraphqlTail c.rest) :=
    seen (a := fun c => c.read + Lookahead.lengthBeforeTail Lookahead.isGraphqlTail c.rest)
      (fun _ => rfl) fun stop => textNode _ stop
  have hall := (hdata.andThen graphqlVariables).andThen graphqlFile
  exact hall.node

/-! ### Body sections -/

lemma bodyItem (line : BodyLine) : Metered n (bodyItem line) := by
  cases line with
  | blank => exact eatBlankLine
  | comment => exact comment
  | responseHandler => exact responseHandler
  | redirect => exact responseRedirect
  | multipart => exact multipart
  | external => exact externalBody
  | xml => exact textBody .xmlBody
  | json => exact textBody .jsonBody
  | graphql => exact graphqlBody
  | form => exact formBody
  | raw => exact rawBody

/-- The lines of a body section, which do not nest. -/
lemma bodyLines : Metered n (Cursor.loopWhile (fun c => !c.stopped && !c.atSeparator)
    fun c => c.bodyItem (BodyLine.ofTokens c.rest)) :=
  loopWhile (fun _ => rfl)
    (seen (a := fun c => BodyLine.ofTokens c.rest) (fun _ => rfl) fun line => bodyItem line)

/-- **Body sections** are one level deep. -/
lemma bodySection : Metered 1 bodySection :=
  nested bodyLines

end Metered

end Cursor

end RequestFile
