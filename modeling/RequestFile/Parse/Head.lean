import RequestFile.Parse.Preamble

/-!
Request lines, response lines and headers.

* **Request line.** An optional method, a URL, an optional version. The URL goes on over indented
  lines until one of them ends with a version.
* **URL.** Query parts, fragments and variable references stand apart from the text around them.
* **Headers.** A name, a colon and a value to the end of the line; comments may stand between them.
-/

namespace RequestFile

namespace Lookahead

/-- The number of tokens of URL content on a line, and where a version begins that ends the line
after a blank. -/
def splitVersion (line : List Token) : Nat × Option Nat :=
  let n := trimmedLength line
  if 4 ≤ n && startsWith .whitespace (line.drop (n - 4)) && isVersion (line.drop (n - 3)) then
    (trimmedLength (line.take (n - 3)), some (n - 3))
  else (n, none)

/-- Whether the line after this one is indented and not blank. -/
def nextLineIsIndented (ts : List Token) : Bool :=
  let next := (ts.drop (lineLength ts)).drop 1
  startsWith .whitespace next && !isBlankLine next

/-- The methods of requests. -/
def methods : List String :=
  ["OPTIONS", "GET", "HEAD", "POST", "PUT", "DELETE", "TRACE", "CONNECT", "PATCH", "LIST",
   "GRAPHQL", "GRPC", "WEBSOCKET", "WS", "WSS"]

/-- The method that a word is but for the case of its letters. -/
def methodLike? (word : String) : Option String :=
  methods.find? fun m => m.toList.map Char.toLower == word.toList.map Char.toLower

/-- Whether a text is a status code: three digits, the first from 1 to 5. -/
def isStatusCode (s : String) : Bool :=
  match s.toList with
  | [a, b, c] => '1' ≤ a && a ≤ '5' && b.isDigit && c.isDigit
  | _ => false

/-- The pieces of header names. -/
def headerNameKinds : KindSet :=
  identifierKinds

/-- The number of tokens of a header name. -/
def headerNameLength (ts : List Token) : Nat :=
  (ts.takeWhile fun t => headerNameKinds.contains t.kind).length

/-- Whether a text may name a header: ASCII letters and digits, `_` and `-`. -/
def isHeaderName (s : String) : Bool :=
  s.toList.all fun c => c.isAlphanum || c == '_' || c == '-'

end Lookahead

namespace Cursor

/-! ### URLs -/

/-- The tokens that break off the plain text of a URL. -/
def urlBreakKinds : KindSet :=
  ⟨[.question, .ampersand, .hash, .varOpen], by decide⟩

/-- The tokens that end the name of a query parameter. -/
def queryNameEndKinds : KindSet :=
  ⟨[.equals, .ampersand, .hash, .separatorMarker, .newline], by decide⟩

/-- The tokens that end the value of a query or form parameter. -/
def paramValueEndKinds : KindSet :=
  ⟨[.ampersand, .hash, .separatorMarker, .newline], by decide⟩

/-- Blanks. -/
def blankKinds : KindSet :=
  ⟨[.whitespace], by decide⟩

/-- A node over text with references up to a position, if there is anything before it. -/
def part (k : Kind) (stop : Nat) (c : Cursor) : Cursor :=
  if c.read < stop then c.interpolatedNode k stop else c

/-- The value of a query parameter after its equals sign, if the next token is one. -/
def queryValue (stop : Nat) (c : Cursor) : Cursor :=
  if c.read < stop then
    c.on .equals
      (fun c =>
        let c := c.operator
        c.part .queryParamValue (c.outsideVariables paramValueEndKinds stop))
      id
  else c

/-- A query parameter: a name, an equals sign with a value, or both. -/
def queryParam (stop : Nat) (c : Cursor) : Cursor :=
  let nameEnd := c.outsideVariables queryNameEndKinds stop
  let build := node .queryParam fun c => (c.part .queryParamName nameEnd).queryValue stop
  if nameEnd = c.read then c.on .equals build id else build c

/-- A query part: its operator and a parameter. -/
def queryPart (k : Kind) (stop : Nat) (c : Cursor) : Cursor :=
  c.node k fun c =>
    let c := c.operator
    if c.read < stop then c.queryParam stop else c

/-- A fragment, up to the first blank. -/
def fragment (stop : Nat) (c : Cursor) : Cursor :=
  c.node .fragment fun c =>
    let c := c.operator
    c.textUntil (c.before blankKinds stop)

/-- The text of a URL up to the next token that begins something else. Its first token is text
whatever it is. -/
def urlText (stop : Nat) (c : Cursor) : Cursor :=
  c.textUntil (c.read + 1 + Lookahead.lengthBefore urlBreakKinds ((c.segment stop).drop 1))

/-- The next piece of a URL. -/
def urlPiece (stop : Nat) (c : Cursor) : Cursor :=
  let c := c.look
  if c.sees .question then c.queryPart .queryString stop
  else if c.sees .ampersand then c.queryPart .queryParamContinuation stop
  else if c.sees .hash then c.fragment stop
  else if c.sees .varOpen then c.variableRef stop
  else c.urlText stop

/-- The content of a URL on one line, up to `stop`. -/
def urlLine (stop : Nat) : Cursor → Cursor :=
  loopWhile (fun c => c.read < stop && !c.stopped) (urlPiece stop)

/-- A line that goes on a URL: its content ends where a version begins. -/
def urlNextLine (c : Cursor) : Cursor × Option Nat :=
  let c := c.eatBlank.eatNewline.eatBlank
  let (length, version) := Lookahead.splitVersion (Lookahead.line c.rest)
  (c.urlLine (c.read + length), version.map (c.read + ·))

/-- The lines that go on a URL, as long as no version ends one; with the position of that version.
A further line costs at least its terminator, so there are no more lines than tokens ahead. -/
def urlNextLines (c : Cursor) (version : Option Nat) : Nat → Cursor × Option Nat
  | 0 => (c.broken .stuck, version)
  | fuel + 1 =>
    if version.isNone && Lookahead.nextLineIsIndented c.rest then
      let next := c.urlNextLine
      urlNextLines next.1 next.2 fuel
    else (c, version)

/-! ### Request lines -/

/-- Reports a word that would be a method if it were written in capitals. -/
def reportMethodCase (c : Cursor) : Cursor :=
  let word := Lookahead.headText c.rest
  match Lookahead.methodLike? word with
  | some method =>
    c.file (((Diagnostic.new .unknownMethod c.span).saying
      ("`" ++ word ++ "` is read as part of the URL")).fixedBy "methods are uppercase" method)
  | none => c

/-- A method: one of the known names, with a blank and more text after it. -/
def method (c : Cursor) : Cursor :=
  let c := c.look
  let after := c.rest.drop 1
  if c.sees .word && Lookahead.startsWith .whitespace after && !Lookahead.isBlankLine after then
    if Lookahead.methods.contains (Lookahead.headText c.rest) then
      (c.leaf .method (c.read + 1)).eatBlank
    else c.reportMethodCase
  else c

/-- The URL of a request, with the position of the version after it. -/
def targetUrl (c : Cursor) : Cursor × Option Nat :=
  let (length, version) := Lookahead.splitVersion (Lookahead.line c.rest)
  let version := version.map (c.read + ·)
  if length = 0 then (c.reportHere .expectedUrl "expected a URL", version)
  else
    let inner := c.opened.urlLine (c.read + length)
    let (inner, version) := inner.urlNextLines version (inner.rest.length + 1)
    (inner.closed .targetUrl c.built, version)

/-- The version at a given position, which the cursor reaches unless it was stopped before. -/
def version (position : Option Nat) (c : Cursor) : Cursor :=
  match position with
  | none => c
  | some v =>
    let c := c.eatBlank
    if c.read = v then c.leaf .httpVersion (v + 3) else c

/-- The first line of a request, with the lines that go on its URL. -/
def requestLine (c : Cursor) : Cursor :=
  let (c, v) := c.method.targetUrl
  ((c.version v).eatBlank.finishLine "unexpected text after the URL").eatNewline

/-! ### Response lines -/

/-- The status code and the text after it. -/
def status (c : Cursor) : Cursor :=
  let c := c.look
  if c.sees .word && Lookahead.isStatusCode (Lookahead.headText c.rest) then
    let c := (c.leaf .statusCode (c.read + 1)).eatBlank
    let stop := c.trimmedEnd c.lineEnd
    (if c.read < stop then c.leaf .statusText stop else c).eatBlank
  else c.rejectLine .expectedStatusCode "expected a status code"

/-- The first line of a response. -/
def responseLine (c : Cursor) : Cursor :=
  (c.leaf .httpVersion (c.read + 3)).eatBlank.status.eatNewline

/-! ### Headers -/

/-- Reports a header name with characters it may not have. -/
def checkHeaderName (stop : Nat) (c : Cursor) : Cursor :=
  let name := Token.textOf (c.segment stop)
  if Lookahead.isHeaderName name then c
  else c.report .invalidHeaderName (c.spanTo stop) name

/-- A header: its name, a colon and a value. -/
def header (c : Cursor) : Cursor :=
  c.node .header fun c =>
    let nameEnd := c.read + Lookahead.headerNameLength c.rest
    let c := ((c.checkHeaderName nameEnd).leaf .headerEntity nameEnd).eatBlank
    let lineEnd := c.lineEnd
    (c.on .colon
      (fun c =>
        let c := c.bump.eatBlank
        (c.value (c.trimmedEnd lineEnd)).eatBlank)
      (rejectLine .expectedColon "expected `:` after header name")).eatNewline

/-- A line that is neither a header nor a comment. -/
def strayHeaderLine (c : Cursor) : Cursor :=
  let stop := c.lineEnd
  let d := ((Diagnostic.new .unexpectedLine (c.spanTo stop)).saying
    "expected a header or a blank line before the body").hinting
    "separate the body from the headers with a blank line"
  ((c.file d).errorUntil stop).eatNewline

/-- One line among the headers. -/
def headerLine (c : Cursor) : Cursor :=
  let c := c.look
  if c.seesIn Lookahead.commentKinds then c.comment
  else if c.seesIn Lookahead.headerNameKinds then c.header
  else c.strayHeaderLine

/-- The lines after a request or response line, up to a blank one or a separator. -/
def headerLines : Cursor → Cursor :=
  loopWhile (fun c => !c.stopped && !c.atSeparator && !c.atBlankLine) headerLine

end Cursor

end RequestFile
