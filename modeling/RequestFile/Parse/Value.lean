import RequestFile.Parse.Cursor

/-!
Values: text with variable references.

* `value stop`: the tokens up to `stop`, text merged and references apart.
* `variableRef stop`: one reference, which never goes beyond `stop` even when it is left open.
* `path`: like a value, up to the first blank that is neither escaped nor inside a reference.

Every production here stops exactly at its bound, whatever the tokens are.
-/

namespace RequestFile

namespace Cursor

/-- The opener of a variable reference. -/
def varOpenKinds : KindSet :=
  ⟨[.varOpen], by decide⟩

/-- A name, if one begins here and ends by `stop`; without a bound when there is none. -/
def identifierWithin (stop : Option Nat) (c : Cursor) : Cursor :=
  match Lookahead.identifierLength? c.rest with
  | some n =>
    if stop.all (c.read + n ≤ ·) then c.leaf .identifier (c.read + n)
    else c.reportHere .expectedIdentifier "expected a name"
  | none => c.reportHere .expectedIdentifier "expected a name"

/-- A name of any length. -/
def identifier (c : Cursor) : Cursor :=
  c.identifierWithin none

/-- The name in a reference, which has to end by `stop`. -/
def variableName (stop : Nat) (c : Cursor) : Cursor :=
  if c.read < stop then c.identifierWithin (some stop)
  else c.reportHere .expectedIdentifier "expected a variable name"

/-- The blank in front of the closer of a reference, if both come before `stop`. -/
def blankBeforeCloser (stop : Nat) (c : Cursor) : Cursor :=
  if c.read + 1 < stop then
    c.on .whitespace
      (fun c => if Lookahead.startsWith .varClose (c.rest.drop 1) then c.bump else c) id
  else c

/-- The closer of a reference that was opened at `opener`. -/
def variableCloser (stop : Nat) (opener : Span) (c : Cursor) : Cursor :=
  let unclosed := reportUnclosed .unclosedVariable "expected `\x7d\x7d`" "variable starts here" opener
  if c.read < stop then c.on .varClose bump unclosed else unclosed c

/-- A variable reference: an opener, a name with at most one blank on either side, a closer. -/
def variableRef (stop : Nat) (c : Cursor) : Cursor :=
  let c := c.demand .varOpen
  let opener := c.span
  c.node .variable fun c =>
    let c := c.bump
    let c := if c.read < stop then c.eatBlank else c
    (((c.variableName stop).blankBeforeCloser stop).variableCloser stop opener)

/-- The tokens up to `stop`: references as they are, everything between them as text. -/
def interpolated (stop : Nat) : Cursor → Cursor :=
  loopWhile (fun c => c.read < stop && !c.stopped)
    (on .varOpen (variableRef stop) fun c => c.textUntil (c.before varOpenKinds stop))

/-- A node over text with references up to `stop`. -/
def interpolatedNode (k : Kind) (stop : Nat) (c : Cursor) : Cursor :=
  c.node k (interpolated stop)

/-- A value up to `stop`, if there is anything before it. -/
def value (stop : Nat) (c : Cursor) : Cursor :=
  if stop ≤ c.read then c else c.interpolatedNode .value stop

/-- A path. -/
def path (c : Cursor) : Cursor :=
  match Lookahead.pathLength c.rest with
  | 0 => c.reportHere .expectedPath "expected a file path"
  | n => c.interpolatedNode .path (c.read + n)

end Cursor

end RequestFile
