import RequestFile.Parse.Head

/-!
Bodies.

A body section begins at the first blank line after the headers and runs to the next separator. The
first tokens of a line tell what begins there (`BodyLine.ofTokens`).

* **Text.** JSON and XML take whole lines up to the next handler, redirect or separator, without the
  blank lines at their end; a raw body stops at a blank line too.
* **GraphQL.** A query, then JSON variables, then a file with variables. Each later part follows a
  blank line.
* **Forms.** Parameters joined by `&`, which may end a line.
* **Multipart.** Everything from the first boundary line to the closing one.
-/

namespace RequestFile

/-! ### Telling lines apart -/

namespace Lookahead

/-- The tokens that begin a JSON text. -/
def jsonKinds : KindSet :=
  ⟨[.braceOpen, .bracketOpen], by decide⟩

/-- Whether a file is named here: `<` or `<@`, a blank and something after it. -/
def isExternal (ts : List Token) : Bool :=
  let after := if startsWith .at (ts.drop 1) then ts.drop 2 else ts.drop 1
  startsWith .angleOpen ts && startsWith .whitespace after && !isBlankLine after

/-- Whether a line ends a text body. -/
def isBodyStop (ts : List Token) : Bool :=
  startsWith .separatorMarker ts || startsWith .angleClose ts || startsWith .redirectMarker ts

/-- Whether a response handler or a redirect begins here. -/
def isHandler (ts : List Token) : Bool :=
  (startsWith .angleClose ts || startsWith .redirectMarker ts)
    && startsWith .whitespace (ts.drop 1)

/-- The tokens that cannot begin a form parameter. -/
def formFirstForbidden : KindSet :=
  ⟨[.whitespace, .equals, .ampersand, .hash, .separatorMarker, .angleOpen, .angleClose,
    .redirectMarker, .braceOpen, .bracketOpen, .scriptOpen, .dash, .doubleDash, .colon, .comma],
    by decide⟩

/-- The tokens that end the search for the equals sign of a form, that sign being one of them. -/
def formSearchEnd : KindSet :=
  ⟨[.ampersand, .hash, .separatorMarker, .angleOpen, .braceOpen, .braceClose, .scriptOpen, .colon,
    .comma, .newline, .equals], by decide⟩

/-- Whether a form begins here: a name free of structure and an equals sign. -/
def isForm (ts : List Token) : Bool :=
  match ts with
  | [] => false
  | t :: _ =>
    let line := line ts
    !formFirstForbidden.contains t.kind
      && startsWith .equals (ts.drop (lengthOutsideVariables formSearchEnd line))

/-- Whether a header begins here: a name and a colon. -/
def isHeader (ts : List Token) : Bool :=
  let n := headerNameLength ts
  n ≠ 0 && startsWith .colon (skipBlanks (ts.drop n))

/-- Whether a boundary begins here. -/
def isBoundary (ts : List Token) : Bool :=
  startsWith .doubleDash ts && !startsWith .whitespace (ts.drop 1)

/-- The words that begin a GraphQL query. -/
def graphqlWords : List String :=
  ["query", "mutation"]

end Lookahead

/-- What a line of a body section begins. -/
inductive BodyLine where
  | blank
  | comment
  | responseHandler
  | redirect
  | multipart
  | external
  | xml
  | json
  | graphql
  | form
  | raw
deriving DecidableEq, Repr

namespace BodyLine

/-- What a line begins that is not told by its first tokens: a form or plain text. -/
def formOrRaw (ts : List Token) : BodyLine :=
  if Lookahead.isForm ts then .form else .raw

/-- What the line begins, by its tokens. -/
def ofTokens (ts : List Token) : BodyLine :=
  if Lookahead.isBlankLine ts then .blank
  else
    let rest := ts.drop 1
    let spaced := Lookahead.startsWith .whitespace rest
    match ts.head?.map Token.kind with
    | some .hash | some .doubleSlash => .comment
    | some .angleClose => if spaced then .responseHandler else formOrRaw ts
    | some .redirectMarker => if spaced then .redirect else formOrRaw ts
    | some .doubleDash =>
      if !Lookahead.isBlankLine rest && !spaced then .multipart else formOrRaw ts
    | some .angleOpen =>
      if Lookahead.isExternal ts then .external
      else if !spaced && !Lookahead.startsWith .newline rest then .xml
      else formOrRaw ts
    | some .braceOpen | some .bracketOpen => .json
    | some .word =>
      if Lookahead.graphqlWords.contains (Lookahead.headText ts) && spaced then .graphql
      else formOrRaw ts
    | _ => formOrRaw ts

end BodyLine

namespace Lookahead

/-! ### How far text goes -/

/-- The number of tokens of a list of lines without the blank ones at its end. -/
def contentLength (lines : List (List Token)) : Nat :=
  total List.length (lines.reverse.dropWhile isBlankLine)

/-- The number of tokens of a text that begins on the first line and goes on to a line for which
`stop` holds. -/
def textLength (stop : List Token → Bool) (ts : List Token) : Nat :=
  match splitLines ts with
  | [] => 0
  | first :: others => first.length + contentLength (others.takeWhile fun l => !stop l)

/-- The lines up to one that ends a text body, or on which `tail` holds after a blank line. -/
def linesBeforeTail (tail : List Token → Bool) (afterBlank : Bool) :
    List (List Token) → List (List Token)
  | [] => []
  | l :: ls =>
    if isBodyStop l || (afterBlank && !isBlankLine l && tail l) then []
    else l :: linesBeforeTail tail (isBlankLine l) ls

/-- The number of tokens of a text that begins on the first line and goes on to the end of the body
or to a blank line before `tail`. -/
def lengthBeforeTail (tail : List Token → Bool) (ts : List Token) : Nat :=
  match splitLines ts with
  | [] => 0
  | first :: others => first.length + contentLength (linesBeforeTail tail false others)

/-- The number of tokens of the blank lines ahead. -/
def blankLinesLength (ts : List Token) : Nat :=
  total List.length ((splitLines ts).takeWhile isBlankLine)

/-- Whether JSON begins here. -/
def isJson (ts : List Token) : Bool :=
  startsIn jsonKinds ts

/-- Whether the part after a GraphQL query begins here: variables or a file with them. -/
def isGraphqlTail (ts : List Token) : Bool :=
  isJson ts || isExternal ts

end Lookahead

namespace Cursor

/-! ### Text and files -/

/-- The tokens up to `stop`: the text of each line as one leaf, and its terminator. -/
def textLines (stop : Nat) : Cursor → Cursor :=
  loopWhile (fun c => c.read < stop && !c.stopped) fun c =>
    let c := c.textUntil (min c.lineEnd stop)
    if c.read < stop then c.eatNewline else c

/-- A node over the lines up to `stop`. -/
def textNode (k : Kind) (stop : Nat) (c : Cursor) : Cursor :=
  c.node k (textLines stop)

/-- A JSON or XML body. -/
def textBody (k : Kind) (c : Cursor) : Cursor :=
  c.textNode k (c.read + Lookahead.textLength Lookahead.isBodyStop c.rest)

/-- A body that is none of the others: lines up to a blank one. -/
def rawBody (c : Cursor) : Cursor :=
  c.textNode .rawBody
    (c.read + Lookahead.textLength (fun l => Lookahead.isBlankLine l || Lookahead.isBodyStop l) c.rest)

/-- What may follow a path: the end of its line. -/
def finishPathLine (c : Cursor) : Cursor :=
  (c.eatBlank.finishLine "unexpected text after the file path").eatNewline

/-- The name of a file: `<` or `<@`, and a path. -/
def external (c : Cursor) : Cursor :=
  ((c.bump.eat .at).eatBlank).path

/-- A body that stands in a file. -/
def externalBody (c : Cursor) : Cursor :=
  (c.node .externalBody external).finishPathLine

/-- A part of a multipart body that stands in a file, with its line. -/
def multipartExternal (c : Cursor) : Cursor :=
  c.node .multipartExternalBody fun c => c.external.finishPathLine

/-! ### Multipart bodies -/

/-- What ends the text of a boundary. -/
def boundaryEndKinds : KindSet :=
  ⟨[.whitespace, .newline], by decide⟩

/-- How a boundary line stands in its body. -/
inductive Boundary where
  | first
  | inner
  | last
deriving DecidableEq, Repr

/-- The kind of the node of a boundary line. -/
def Boundary.kind : Boundary → Kind
  | .first => .multipartBoundaryFirst
  | .inner => .multipartBoundary
  | .last => .multipartBoundaryLast

/-- The boundary line here, when it is not the first: a closing one ends with `--` after its text. -/
def boundaryHere (c : Cursor) (textEnd : Nat) : Boundary :=
  if c.read + 2 < textEnd && Lookahead.startsWith .doubleDash (c.rest.drop (textEnd - 1 - c.read))
  then .last else .inner

/-- A boundary line whose text, with the closing hyphens of the last one, ends at `textEnd`. -/
def boundaryLine (b : Boundary) (textEnd : Nat) (c : Cursor) : Cursor :=
  c.node b.kind fun c =>
    let c := c.bump.part .boundaryValue (if b = .last then textEnd - 1 else textEnd)
    let c := if b = .last then c.bump else c
    (c.eatBlank.finishLine "unexpected text after the boundary").eatNewline

/-- Where the text of the boundary here ends. -/
def boundaryTextEnd (c : Cursor) : Nat :=
  c.read + 1 + Lookahead.lengthOutsideVariables boundaryEndKinds
    ((c.segment c.lineEnd).drop 1)

/-- A line of a part. -/
def multipartContent (c : Cursor) : Cursor :=
  c.node .multipartContentLine fun c => (c.textUntil c.lineEnd).eatNewline

/-- The next line of a multipart body that was opened at `opener`. -/
def multipartTurn (opener : Span) (c : Cursor) : Turn :=
  if c.stopped || c.atSeparator || Lookahead.isHandler c.rest then
    .done (c.reportUnclosed .unclosedMultipart "expected a closing boundary"
      "multipart body starts here" opener)
  else if c.atBlankLine then .again c.eatBlankLine
  else
    let c := c.look
    if Lookahead.isBoundary c.rest then
      let textEnd := c.boundaryTextEnd
      match c.boundaryHere textEnd with
      | .last => .done (c.boundaryLine .last textEnd)
      | b => .again (c.boundaryLine b textEnd)
    else if Lookahead.isExternal c.rest then .again c.multipartExternal
    else if Lookahead.isHeader c.rest then .again c.header
    else .again c.multipartContent

/-- A multipart body. -/
def multipart (c : Cursor) : Cursor :=
  let opener := c.span
  c.node .multipartFormData fun c =>
    (c.boundaryLine .first c.boundaryTextEnd).loop (multipartTurn opener)

/-! ### Forms -/

/-- What ends the name of a form parameter. -/
def formNameEndKinds : KindSet :=
  ⟨[.equals, .ampersand, .hash, .newline], by decide⟩

/-- The equals sign of a form parameter and its value, up to the end of the line at `lineEnd`. -/
def formValue (lineEnd : Nat) (c : Cursor) : Cursor :=
  let c := c.operator.eatBlank
  c.part .formParamValue (c.trimmedEnd (c.outsideVariables paramValueEndKinds lineEnd))

/-- A form parameter, if one begins here. -/
def formParam (c : Cursor) : Cursor :=
  let lineEnd := c.lineEnd
  let nameStop := c.outsideVariables formNameEndKinds lineEnd
  let nameEnd := c.trimmedEnd nameStop
  let hasValue := Lookahead.startsWith .equals (c.rest.drop (nameStop - c.read))
  if nameEnd = c.read && !hasValue then c
  else
    c.node .formParam fun c =>
      let c := (c.part .formParamName nameEnd).eatBlank
      if hasValue then c.formValue lineEnd else c

/-- Whether a form goes on in the line ahead. -/
def formContinues (ts : List Token) : Bool :=
  !Lookahead.isBlankLine ts && !Lookahead.isBodyStop ts

/-- A parameter and the ampersand after it, with the end of the line if the form goes on below. -/
def formTurn (c : Cursor) : Turn :=
  let c := c.formParam.look
  if c.sees .ampersand then
    .again (c.operator.on .newline
      (fun c => if formContinues (c.rest.drop 1) then c.bump else c) id)
  else .done c

/-- A form body. -/
def formBody (c : Cursor) : Cursor :=
  c.node .formUrlencodedBody fun c =>
    (((c.loop formTurn).eatBlank).finishLine "unexpected text in form body").eatNewline

/-! ### GraphQL -/

/-- Takes the blank lines in front of a position. -/
def skipTo (stop : Nat) : Cursor → Cursor :=
  loopWhile (fun c => c.read < stop && !c.stopped) eatBlankLine

/-- The variables after a query, if there are any. -/
def graphqlVariables (c : Cursor) : Cursor :=
  let n := Lookahead.blankLinesLength c.rest
  if Lookahead.isJson (c.rest.drop n) then
    let c := c.skipTo (c.read + n)
    c.textNode .jsonBody (c.read + Lookahead.lengthBeforeTail Lookahead.isExternal c.rest)
  else c

/-- The file with variables after a query, if there is one. -/
def graphqlFile (c : Cursor) : Cursor :=
  let n := Lookahead.blankLinesLength c.rest
  if Lookahead.isExternal (c.rest.drop n) then (c.skipTo (c.read + n)).externalBody else c

/-- A GraphQL body. -/
def graphqlBody (c : Cursor) : Cursor :=
  c.node .graphqlBody fun c =>
    let stop := c.read + Lookahead.lengthBeforeTail Lookahead.isGraphqlTail c.rest
    ((c.textNode .graphqlData stop).graphqlVariables).graphqlFile

/-! ### Body sections -/

/-- What begins on a line of a body section. -/
def bodyItem (line : BodyLine) : Cursor → Cursor :=
  match line with
  | .blank => eatBlankLine
  | .comment => comment
  | .responseHandler => responseHandler
  | .redirect => responseRedirect
  | .multipart => multipart
  | .external => externalBody
  | .xml => textBody .xmlBody
  | .json => textBody .jsonBody
  | .graphql => graphqlBody
  | .form => formBody
  | .raw => rawBody

/-- Everything from a blank line to the next separator. -/
def bodySection : Cursor → Cursor :=
  nested (loopWhile (fun c => !c.stopped && !c.atSeparator)
    fun c => c.bodyItem (BodyLine.ofTokens c.rest))

end Cursor

end RequestFile
