import RequestFile.Parse.Body

/-!
Sections and documents.

A document is a sequence of sections. A section is a separator, which only the first one may lack,
the lines in front of its request, and a request or a response with its body. It ends at the next
separator.
-/

namespace RequestFile

namespace Cursor

/-- The headers of a request or a response, and its bodies. -/
def message (c : Cursor) : Cursor :=
  let c := c.headerLines
  if !c.stopped && !c.atSeparator && c.atBlankLine then c.bodySection else c

/-- A request. -/
def request : Cursor → Cursor :=
  nested (node .request fun c => c.requestLine.message)

/-- A response. -/
def response : Cursor → Cursor :=
  nested (node .response fun c => c.responseLine.message)

/-- One line in front of a request, or the request itself, which ends the section. -/
def preambleTurn (c : Cursor) : Turn :=
  if c.stopped || c.atSeparator then .done c
  else
    let line := PreambleLine.ofTokens (Lookahead.skipBlanks c.rest)
    let c := c.eatBlank
    match line with
    | .blank => .again c.eatNewline
    | .comment => .again c.comment
    | .metadata => .again c.metadata
    | .variableDeclaration => .again c.variableDeclaration
    | .command => .again c.command
    | .preRequestScript => .again c.preRequestScript
    | .response => .done c.response
    | .request => .done c.request

/-- A section. -/
def fullSection : Cursor → Cursor :=
  nested (node .section fun c =>
    (if c.atSeparator then c.separator else c).loop preambleTurn)

/-- All sections ahead. -/
def sections : Cursor → Cursor :=
  loopWhile (fun c => !c.stopped) fullSection

end Cursor

end RequestFile
