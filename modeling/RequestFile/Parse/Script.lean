import RequestFile.Parse.Value

/-!
Scripts.

A script is written inline between its delimiters, over any number of lines, or named by a path. An
inline script that is left open goes on to the next separator or to the end of the input.
-/

namespace RequestFile

namespace Cursor

/-- The closer of an inline script. -/
def scriptCloseKinds : KindSet :=
  ⟨[.scriptClose], by decide⟩

/-- One piece of an inline script: its closer, a line terminator, or the text before either. -/
def scriptPiece (opener : Span) (c : Cursor) : Turn :=
  if c.stopped || (c.lineStart && c.atSeparator) then
    .done (c.reportUnclosed .unclosedScript "expected `%\x7d`" "script starts here" opener)
  else
    let c := c.look
    if c.sees .scriptClose then .done c.bump
    else
      let c := c.look
      if c.sees .newline then .again c.bump
      else .again (c.textUntil (c.before scriptCloseKinds c.lineEnd))

/-- An inline script. Its closer may stand on a line of its own or end the last line. -/
def inlineScript (c : Cursor) : Cursor :=
  let c := c.demand .scriptOpen
  let opener := c.span
  c.node .script fun c => c.bump.loop (scriptPiece opener)

/-- An inline script or the path of a script file. -/
def scriptOrPath (c : Cursor) : Cursor :=
  c.on .scriptOpen inlineScript path

/-- What may follow a script or a path: the end of the line and empty lines. A script left open has
already run to a line of its own. -/
def finishScriptLine (c : Cursor) : Cursor :=
  if c.lineStart then c
  else (c.eatBlank.finishLine "unexpected text after the script").eatNewlines

/-- A marker, a blank and what `body` takes, up to the next line that is not empty. -/
def scriptLine (k : Kind) (body : Cursor → Cursor) (c : Cursor) : Cursor :=
  c.node k fun c => (body c.bump.eatBlank).finishScriptLine

/-- A script to run before the request. -/
def preRequestScript (c : Cursor) : Cursor :=
  c.scriptLine .preRequestScript scriptOrPath

/-- A script to run on the response. -/
def responseHandler (c : Cursor) : Cursor :=
  c.scriptLine .resHandlerScript scriptOrPath

/-- A file to write the response to. -/
def responseRedirect (c : Cursor) : Cursor :=
  c.scriptLine .resRedirect path

end Cursor

end RequestFile
