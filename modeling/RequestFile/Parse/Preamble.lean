import RequestFile.Parse.Script

/-!
The lines of a section in front of its request.

* A separator with an optional title opens the section.
* Comments, metadata, variable declarations, commands and scripts may follow in any order, each on
  lines of its own.

A production here begins at the first token of its line that is not a blank.
-/

namespace RequestFile

/-! ### Telling lines apart -/

namespace Lookahead

/-- The tokens that begin a comment. -/
def commentKinds : KindSet :=
  ⟨[.hash, .doubleSlash], by decide⟩

/-- Whether `@` and a name follow, after blanks. -/
def isMetadata (ts : List Token) : Bool :=
  let ts := skipBlanks ts
  startsWith .at ts && (identifierLength? (ts.drop 1)).isSome

/-- The names of commands. -/
def commandNames : List String :=
  ["run", "import"]

/-- Whether a command begins here: its name, a blank and something more on the line. -/
def isCommand (ts : List Token) : Bool :=
  startsWith .word ts && commandNames.contains (headText ts)
    && startsWith .whitespace (ts.drop 1) && !isBlankLine (ts.drop 1)

/-- Whether a text is a version number: digits and dots, first a digit. -/
def isVersionNumber (s : String) : Bool :=
  s.toList.head?.any Char.isDigit && s.toList.all fun c => c.isDigit || c == '.'

/-- Whether an HTTP version begins here. -/
def isVersion (ts : List Token) : Bool :=
  startsWith .word ts && headText ts == "HTTP" && startsWith .slash (ts.drop 1)
    && startsWith .word (ts.drop 2) && isVersionNumber (headText (ts.drop 2))

/-- The number of tokens before the parenthesis that opens the arguments of a command: the first one
followed by `@` or `)`. -/
def argumentsOffset? : List Token → Option Nat
  | [] => none
  | t :: ts =>
    let next := skipBlanks ts
    if t.kind = .parenOpen && (startsWith .at next || startsWith .parenClose next) then some 0
    else (argumentsOffset? ts).map (· + 1)

end Lookahead

/-- What a line in front of a request begins. -/
inductive PreambleLine where
  | blank
  | comment
  | metadata
  | variableDeclaration
  | command
  | preRequestScript
  | response
  | request
deriving DecidableEq, Repr

namespace PreambleLine

/-- What the line begins, by its tokens after the indentation. -/
def ofTokens (ts : List Token) : PreambleLine :=
  match ts with
  | [] => .blank
  | t :: rest =>
    match t.kind with
    | .newline => .blank
    | .hash | .doubleSlash => if Lookahead.isMetadata rest then .metadata else .comment
    | .at => .variableDeclaration
    | .angleOpen => if Lookahead.startsWith .whitespace rest then .preRequestScript else .request
    | .word =>
      if Lookahead.isCommand ts then .command
      else if Lookahead.isVersion ts then .response
      else .request
    | _ => .request

end PreambleLine

namespace Cursor

/-! ### Separators, comments and metadata -/

/-- A separator with the title after it. -/
def separator (c : Cursor) : Cursor :=
  let c := c.demand .separatorMarker
  c.node .requestSeparator fun c =>
    let c := c.bump.eatBlank
    (c.value (c.trimmedEnd c.lineEnd)).eatBlank.eatNewline

/-- A comment to the end of its line. -/
def comment (c : Cursor) : Cursor :=
  c.node .comment fun c =>
    let c := c.bump
    (c.textUntil c.lineEnd).eatNewline

/-- The value of a metadata line, after an equals sign or a blank. -/
def metadataValue (c : Cursor) : Cursor :=
  let stop := c.trimmedEnd c.lineEnd
  if c.read < stop then
    let c := c.eatBlank
    let c := if c.atEnd then c else c.on .equals (fun c => c.bump.eatBlank) id
    c.value stop
  else c

/-- A comment that names a property of the request. -/
def metadata (c : Cursor) : Cursor :=
  c.node .metadata fun c =>
    let c := ((c.bump.eatBlank).demand .at).bump.identifier
    c.metadataValue.eatBlank.eatNewline

/-! ### Declarations and commands -/

/-- The value of a declaration after its equals sign. -/
def assignedValue (stop : Nat) (c : Cursor) : Cursor :=
  if stop ≤ c.read then c.reportHere .expectedValue "expected a value after `=`"
  else c.value stop

/-- A declaration `@name = value` that goes no further than `stop`. -/
def assignment (stop : Nat) (c : Cursor) : Cursor :=
  let c := ((c.demand .at).bump.identifier).eatBlank
  let missing : Cursor → Cursor := fun c =>
    (c.reportHere .expectedEquals "expected `=` after the variable name").errorUntil stop
  if c.atEnd then missing c
  else c.on .equals (fun c => c.bump.eatBlank.assignedValue stop) missing

/-- A variable declared on a line of its own. -/
def variableDeclaration (c : Cursor) : Cursor :=
  c.node .variableDeclaration fun c =>
    (c.assignment (c.trimmedEnd c.lineEnd)).eatBlank.eatNewline

/-- What ends a declaration between parentheses. -/
def argumentEndKinds : KindSet :=
  ⟨[.comma, .parenClose], by decide⟩

/-- One argument of a command. -/
def argument (c : Cursor) : Cursor :=
  c.node .variableDeclarationInline fun c =>
    c.assignment (c.trimmedEnd (c.outsideVariables argumentEndKinds c.lineEnd))

/-- An argument and the comma after it; without a comma the arguments are done. -/
def argumentTurn (c : Cursor) : Turn :=
  let c := c.look
  if !c.sees .at then .done c
  else
    let c := c.argument.eatBlank
    if c.atEnd then .done c
    else
      let c := c.look
      if c.sees .comma then .again c.bump.eatBlank else .done c

/-- The closer of arguments that were opened at `opener`. -/
def argumentsCloser (opener : Span) (c : Cursor) : Cursor :=
  let missing : Cursor → Cursor := fun c =>
    c.file (((Diagnostic.new .expectedCloseParen c.span).saying "expected `)`").relatedTo
      "declarations start here" opener)
  if c.atEnd then missing c else c.on .parenClose bump missing

/-- The arguments of a command: declarations in parentheses. -/
def arguments (c : Cursor) : Cursor :=
  let c := c.demand .parenOpen
  let opener := c.span
  (c.bump.eatBlank.loop argumentTurn).argumentsCloser opener

/-- The name or file that a command is about, up to `stop`. -/
def commandValue (stop : Nat) (c : Cursor) : Cursor :=
  if c.read < stop then c.value stop
  else c.reportHere .expectedValue "expected a request name or file"

/-- A command: its name, what it is about, and arguments. -/
def command (c : Cursor) : Cursor :=
  c.node .command fun c =>
    let c := (c.leaf .commandName (c.read + 1)).eatBlank
    let lineEnd := c.lineEnd
    let opener := (Lookahead.argumentsOffset? (c.segment lineEnd)).map (c.read + ·)
    let c := c.commandValue (c.trimmedEnd (opener.getD lineEnd))
    let c := if opener.isSome then c.eatBlank.arguments else c
    (c.eatBlank.finishLine "unexpected text after the command").eatNewline

end Cursor

end RequestFile
