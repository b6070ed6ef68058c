import RequestFile.KindSet
import RequestFile.Token

/-!
What lies ahead in a list of tokens.

The productions decide by the tokens to come without taking them. Each function here takes the
tokens ahead and answers with a yes or no, or with a number of tokens from the front.

* **Lines.** `lineLength`, `isBlankLine`, `splitLines`.
* **Segments.** `lengthBefore` and `lengthOutsideVariables` find where a segment stops,
  `trimmedLength` drops blanks at its end.
* **Names and paths.** `identifierLength?`, `pathLength`.
-/

namespace RequestFile

namespace Lookahead

/-- Whether the first token has a given kind. -/
def startsWith (k : Kind) (ts : List Token) : Bool :=
  ts.head?.any (·.kind = k)

/-- Whether the first token is of a kind in a set. -/
def startsIn (set : KindSet) (ts : List Token) : Bool :=
  ts.head?.any fun t => set.contains t.kind

/-- The text of the first token. -/
def headText (ts : List Token) : String :=
  (ts.head?.map Token.text).getD ""

/-! ### Lines -/

/-- The number of tokens before the end of the line. -/
def lineLength (ts : List Token) : Nat :=
  (ts.takeWhile (·.kind ≠ .newline)).length

/-- The tokens before the end of the line. -/
def line (ts : List Token) : List Token :=
  ts.takeWhile (·.kind ≠ .newline)

/-- The tokens from the first that is not a blank on. -/
def skipBlanks (ts : List Token) : List Token :=
  ts.dropWhile (·.kind = .whitespace)

/-- Whether nothing but blanks is left on the line. -/
def isBlankLine (ts : List Token) : Bool :=
  match skipBlanks ts with
  | [] => true
  | t :: _ => t.kind = .newline

/-- Lines with their terminators; every token is in one of them. -/
def splitLines : List Token → List (List Token)
  | [] => []
  | t :: ts =>
    if t.kind = .newline then [t] :: splitLines ts
    else match splitLines ts with
      | [] => [[t]]
      | l :: ls => (t :: l) :: ls

/-- Whether a line opens a section. -/
def isSeparatorLine (ts : List Token) : Bool :=
  startsWith .separatorMarker ts

/-! ### Segments -/

/-- The number of tokens of a segment without the blanks at its end. -/
def trimmedLength (segment : List Token) : Nat :=
  (segment.reverse.dropWhile (·.kind = .whitespace)).length

/-- The number of tokens before the first of a kind in a set. -/
def lengthBefore (set : KindSet) (segment : List Token) : Nat :=
  (segment.takeWhile fun t => !set.contains t.kind).length

/-- The number of tokens up to and including the first closer on the line. -/
def groupLength? (closer : Kind) : List Token → Option Nat
  | [] => none
  | t :: ts =>
    if t.kind = closer then some 1
    else if t.kind = .newline then none
    else (groupLength? closer ts).map (· + 1)

/-- The number of tokens before the first of a kind in a set that stands outside of complete
variable references. The first `skip` tokens are inside of one. -/
def lengthOutsideVariablesFrom (set : KindSet) (skip : Nat) : List Token → Nat
  | [] => 0
  | t :: ts =>
    match skip with
    | n + 1 => lengthOutsideVariablesFrom set n ts + 1
    | 0 =>
      if t.kind = .varOpen then
        lengthOutsideVariablesFrom set ((groupLength? .varClose ts).getD 0) ts + 1
      else if set.contains t.kind then 0
      else lengthOutsideVariablesFrom set 0 ts + 1

/-- The number of tokens of a segment before the first of a kind in a set that stands outside of
complete variable references. -/
def lengthOutsideVariables (set : KindSet) (segment : List Token) : Nat :=
  lengthOutsideVariablesFrom set 0 segment

/-! ### Names and paths -/

/-- The pieces of names outside of brackets. -/
def identifierKinds : KindSet :=
  ⟨[.word, .dash, .doubleDash], by decide⟩

/-- The number of tokens of a name outside of brackets. -/
def identifierRun (ts : List Token) : Nat :=
  (ts.takeWhile fun t => identifierKinds.contains t.kind).length

/-- The number of tokens of the groups that go on a name: an index in brackets, which is not empty,
arguments in parentheses, or a member after a dot. The first `skip` tokens are inside of one. -/
def identifierTailFrom (skip : Nat) : List Token → Nat
  | [] => 0
  | t :: ts =>
    match skip with
    | n + 1 => identifierTailFrom n ts + 1
    | 0 =>
      match t.kind with
      | .bracketOpen =>
        match groupLength? .bracketClose ts with
        | some (n + 2) => identifierTailFrom (n + 2) ts + 1
        | _ => 0
      | .parenOpen =>
        match groupLength? .parenClose ts with
        | some n => identifierTailFrom n ts + 1
        | none => 0
      | .word =>
        if t.text.toList.head? = some '.' then identifierTailFrom (identifierRun ts) ts + 1 else 0
      | _ => 0

/-- The number of tokens of a name, if one begins here: `name`, `$random.uuid`, `items[0].id` or
`$randomInt(1, 10)`. -/
def identifierLength? (ts : List Token) : Option Nat :=
  match identifierRun ts with
  | 0 => none
  | n => some (n + identifierTailFrom 0 (ts.drop n))

/-- The tokens of paths, a backslash and the opener of a variable apart. -/
def pathKinds : KindSet :=
  ⟨[.parenOpen, .parenClose, .bracketOpen, .bracketClose, .braceOpen, .braceClose, .varClose,
    .scriptClose, .separatorMarker, .hash, .doubleSlash, .slash, .at, .equals, .colon, .question,
    .ampersand, .comma, .percent, .angleOpen, .angleClose, .redirectMarker, .doubleDash, .dash,
    .word, .punct, .garbage], by decide⟩

/-- The number of tokens of a path, the first `skip` of which belong to it. A backslash takes the
token after it along, unless the line ends there, and a complete variable reference belongs to the
path whatever it holds. -/
def pathLengthFrom (skip : Nat) : List Token → Nat
  | [] => 0
  | t :: ts =>
    match skip with
    | n + 1 => pathLengthFrom n ts + 1
    | 0 =>
      if t.kind = .backslash then
        pathLengthFrom (if ts.head?.any (·.kind ≠ .newline) then 1 else 0) ts + 1
      else if t.kind = .varOpen then
        pathLengthFrom ((groupLength? .varClose ts).getD 0) ts + 1
      else if pathKinds.contains t.kind then pathLengthFrom 0 ts + 1
      else 0

/-- The number of tokens of the path that begins here: it goes on to the first blank that is neither
escaped nor inside a variable reference. -/
def pathLength (ts : List Token) : Nat :=
  pathLengthFrom 0 ts

end Lookahead

end RequestFile
