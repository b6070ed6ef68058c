import RequestFile.Diagnostic
import RequestFile.Parse.Limits
import RequestFile.Parse.Lookahead
import RequestFile.Tree

/-!
The state of a parse, and the steps that productions are made of.

A cursor stands between the tokens already put into trees and those still ahead. A production is a
function from cursors to cursors. It changes them in four ways only.

* **Taking tokens.** `take`, `bump`, `textUntil` and `eat` move tokens into leaves. Every token
  taken is charged to the budget; going beyond a limit is recorded, and `stopped` then holds.
* **Grouping.** `node` runs a production and puts the trees it has built below one node; `nested`
  runs it one level deeper.
* **Reporting.** `file` adds a diagnostic, unless the one before it was reported at the same offset.
* **Looking.** `look` pays for a question about the token ahead. A cursor answers `patience` such
  questions between two tokens; one that is asked more often is stuck, which is a fault.

A fault is a broken promise between productions, never a property of the input: a production was
entered at the wrong token, a token was taken where none is left, or the cursor is stuck.
-/

namespace RequestFile

/-- How productions can break their promises to each other. -/
inductive Fault where
  /-- The cursor was asked too often without moving. -/
  | stuck
  /-- A token was taken at the end of the input. -/
  | pastEnd
  /-- A production that begins with a token of this kind was entered elsewhere. -/
  | misplaced (expected : Kind)
deriving DecidableEq, Repr

/-- The state of a parse. -/
structure Cursor where
  /-- The tokens ahead. -/
  rest : List Token
  /-- The number of tokens taken. -/
  read : Nat
  /-- The number of bytes taken. -/
  offset : Nat
  /-- Whether the last token taken, if any, ended a line. -/
  lineStart : Bool
  /-- The trees built so far below the node under construction. -/
  built : Array Tree
  /-- The diagnostics reported so far. -/
  reports : Array Diagnostic
  /-- The offset of the last report, recorded or not. -/
  lastReport : Option Nat
  budget : Budget
  /-- The first limit that was reached. -/
  exceeded : Option Limit
  /-- How many more questions the cursor answers before it has to move. -/
  patience : Nat
  /-- The first fault. -/
  fault : Option Fault

namespace Cursor

/-- The number of questions a cursor answers between two tokens. -/
def fullPatience : Nat := 256

/-- The cursor in front of a list of tokens. -/
def start (limits : Limits) (tokens : List Token) : Cursor where
  rest := tokens
  read := 0
  offset := 0
  lineStart := true
  built := #[]
  reports := #[]
  lastReport := none
  budget := Budget.start limits
  exceeded := none
  patience := fullPatience
  fault := none

/-! ### Questions -/

/-- Whether no token is left. -/
def atEnd (c : Cursor) : Bool :=
  c.rest.isEmpty

/-- Whether loops end here: no token is left, or a limit was reached. -/
def stopped (c : Cursor) : Bool :=
  c.atEnd || c.exceeded.isSome

/-- Whether the next token has a given kind. -/
def sees (k : Kind) (c : Cursor) : Bool :=
  Lookahead.startsWith k c.rest

/-- Whether the next token is of a kind in a set. -/
def seesIn (set : KindSet) (c : Cursor) : Bool :=
  Lookahead.startsIn set c.rest

/-- Whether the cursor stands in front of a separator. -/
def atSeparator (c : Cursor) : Bool :=
  Lookahead.isSeparatorLine c.rest

/-- Whether only blanks are left on the line. -/
def atBlankLine (c : Cursor) : Bool :=
  Lookahead.isBlankLine c.rest

/-- The tokens up to a position, counted from the start of the source. -/
def segment (c : Cursor) (stop : Nat) : List Token :=
  c.rest.take (stop - c.read)

/-- The position of the end of the line. -/
def lineEnd (c : Cursor) : Nat :=
  c.read + Lookahead.lineLength c.rest

/-- The position after the last token before `stop` that is not a blank. -/
def trimmedEnd (c : Cursor) (stop : Nat) : Nat :=
  c.read + Lookahead.trimmedLength (c.segment stop)

/-- The position of the first token of a kind in a set, or `stop` if there is none before it. -/
def before (c : Cursor) (set : KindSet) (stop : Nat) : Nat :=
  c.read + Lookahead.lengthBefore set (c.segment stop)

/-- The position of the first token of a kind in a set outside of variable references, or `stop` if
there is none before it. -/
def outsideVariables (c : Cursor) (set : KindSet) (stop : Nat) : Nat :=
  c.read + Lookahead.lengthOutsideVariables set (c.segment stop)

/-- The range of the next token, which is empty at the end. -/
def span (c : Cursor) : Span :=
  ⟨c.offset, (c.rest.head?.map Token.size).getD 0⟩

/-- The range of the tokens up to a position. -/
def spanTo (c : Cursor) (stop : Nat) : Span :=
  ⟨c.offset, Token.sizeOf (c.segment stop)⟩

/-! ### Faults and patience -/

/-- Records a fault, unless there is one already. -/
def broken (f : Fault) (c : Cursor) : Cursor :=
  { c with fault := c.fault <|> some f }

/-- Pays for one question about the next token. -/
def look (c : Cursor) : Cursor :=
  if c.patience = 0 then c.broken .stuck else { c with patience := c.patience - 1 }

/-- Asks whether the next token has a given kind and goes on accordingly. -/
def on (k : Kind) (yes no : Cursor → Cursor) (c : Cursor) : Cursor :=
  let c := c.look
  if c.sees k then yes c else no c

/-- Records a fault unless the next token has the kind that a production begins with. -/
def demand (k : Kind) (c : Cursor) : Cursor :=
  c.on k id (broken (.misplaced k))

/-! ### Taking tokens -/

/-- Takes the next `n` tokens as one leaf. -/
def take (k : Kind) (n : Nat) (c : Cursor) : Cursor :=
  let taken := c.rest.take n
  { c with
    rest := c.rest.drop n
    read := c.read + taken.length
    offset := c.offset + Token.sizeOf taken
    lineStart := (taken.getLast?.map fun t => decide (t.kind = .newline)).getD c.lineStart
    built := c.built.push (.leaf k (Token.textOf taken))
    budget := c.budget.charge taken.length
    exceeded := c.exceeded <|> (if c.budget.overcharged taken.length then some .tokens else none)
    patience := fullPatience }

/-- Takes the next token as a leaf of its own. -/
def bump (c : Cursor) : Cursor :=
  match c.rest with
  | [] => c.broken .pastEnd
  | t :: _ => c.take t.kind 1

/-- Takes the tokens up to a position as one leaf of text, if there are any. -/
def textUntil (stop : Nat) (c : Cursor) : Cursor :=
  if (c.segment stop).isEmpty then c else c.take .text (stop - c.read)

/-- Takes the next token if it has a given kind. -/
def eat (k : Kind) (c : Cursor) : Cursor :=
  if c.atEnd then c else c.on k bump id

/-- Takes a blank, if there is one. -/
def eatBlank (c : Cursor) : Cursor :=
  c.eat .whitespace

/-- Takes a line terminator, if there is one. -/
def eatNewline (c : Cursor) : Cursor :=
  c.eat .newline

/-- Takes a line of blanks with its terminator. -/
def eatBlankLine (c : Cursor) : Cursor :=
  c.eatBlank.eatNewline

/-! ### Grouping -/

/-- The cursor with nothing built yet below a new node. -/
def opened (c : Cursor) : Cursor :=
  { c with built := #[] }

/-- Puts what has been built below one node, after the trees in front of it. -/
def closed (k : Kind) (before : Array Tree) (c : Cursor) : Cursor :=
  { c with built := before.push (.node k c.built.toList) }

/-- Runs a production and puts what it has built below one node. -/
def node (k : Kind) (body : Cursor → Cursor) (c : Cursor) : Cursor :=
  (body c.opened).closed k c.built

/-- A node over the tokens up to a position, which form one leaf. -/
def leaf (k : Kind) (stop : Nat) (c : Cursor) : Cursor :=
  c.node k (textUntil stop)

/-- The next token below a node of its own. -/
def operator (c : Cursor) : Cursor :=
  c.node .operator bump

/-- The tokens up to a position as an error, if there are any. -/
def errorUntil (stop : Nat) (c : Cursor) : Cursor :=
  if stop ≤ c.read then c else c.leaf .error stop

/-- Runs a production one level deeper, if the budget allows it. -/
def nested (body : Cursor → Cursor) (c : Cursor) : Cursor :=
  if c.budget.atDepthLimit then
    { c with exceeded := c.exceeded <|> some .depth, patience := fullPatience }
  else
    let inner := body { c with budget := c.budget.descend, patience := fullPatience }
    { inner with budget := inner.budget.ascend, patience := fullPatience }

/-! ### Loops -/

/-- What a loop does after a turn. -/
inductive Turn where
  | again (c : Cursor)
  | done (c : Cursor)

/-- Takes at most `fuel` turns. A loop that wants another is stuck. -/
def iterate (turn : Cursor → Turn) : Nat → Cursor → Cursor
  | 0, c => c.broken .stuck
  | fuel + 1, c =>
    match turn c with
    | .again c => iterate turn fuel c
    | .done c => c

/-- Takes turns until one says that the loop is done. Every turn but the last takes a token, so
there is one more turn than tokens ahead. -/
def loop (turn : Cursor → Turn) (c : Cursor) : Cursor :=
  iterate turn (c.rest.length + 1) c

/-- Runs a production as long as a condition holds. -/
def loopWhile (more : Cursor → Bool) (body : Cursor → Cursor) (c : Cursor) : Cursor :=
  c.loop fun c => if more c then .again (body c) else .done c

/-- Takes all line terminators ahead. -/
def eatNewlines (c : Cursor) : Cursor :=
  c.loop fun c =>
    if c.atEnd then .done c
    else
      let c := c.look
      if c.sees .newline then .again c.bump else .done c

/-! ### Reporting -/

/-- Adds a diagnostic that counts as reported at an offset, unless the report before it was made at
the same offset. -/
def fileAt (offset : Nat) (d : Diagnostic) (c : Cursor) : Cursor :=
  if c.lastReport = some offset then c
  else { c with reports := c.reports.push d, lastReport := some offset }

/-- Adds a diagnostic at the start of its range. -/
def file (d : Diagnostic) (c : Cursor) : Cursor :=
  c.fileAt d.span.start d

/-- Reports a problem at a range. -/
def report (p : Problem) (span : Span) (detail : String) (c : Cursor) : Cursor :=
  c.file ((Diagnostic.new p span).saying detail)

/-- Reports a problem at the next token. -/
def reportHere (p : Problem) (detail : String) (c : Cursor) : Cursor :=
  c.report p c.span detail

/-- Reports the rest of the line as a problem and takes it as an error. The terminator stays. -/
def rejectLine (p : Problem) (detail : String) (c : Cursor) : Cursor :=
  let stop := c.lineEnd
  let span := if c.read < stop then c.spanTo stop else c.span
  (c.report p span detail).errorUntil stop

/-- Rejects what is left on the line, if anything is. -/
def finishLine (detail : String) (c : Cursor) : Cursor :=
  if c.atEnd then c
  else c.on .newline id (rejectLine .unexpectedToken detail)

/-- Reports something that was opened at `opener` and is still open. The range goes from the opener
to the cursor, and the report counts as made at the cursor. -/
def reportUnclosed (p : Problem) (detail label : String) (opener : Span) (c : Cursor) : Cursor :=
  c.fileAt c.offset
    (((Diagnostic.new p (opener.extendTo c.offset)).saying detail).relatedTo label opener)

end Cursor

end RequestFile
