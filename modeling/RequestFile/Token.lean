import RequestFile.Kind
import RequestFile.Text.Blank
import RequestFile.Text.Letter
import RequestFile.Text.Number
import RequestFile.Text.Span
import RequestFile.Text.Total

/-!
Tokens.

A token is a kind and its text; where it stands follows from the texts before it (`Token.locate`).
`Token.scan` cuts a text into tokens that, put together again, are the text.

* A run of word characters, of blanks or of stray breaks is one token.
* Three or more `#` in a row are one marker; fewer are single hashes.
* Otherwise two characters that form a token win over one, `>>!` wins over `>>`, and a character
  without a meaning of its own is a token by itself.
* A run of hyphens is cut into pairs. Where it is odd, the single hyphen is the last of the run when
  three hyphens begin a line, the only one of a lone hyphen, and the last but two otherwise: a run
  after text then ends with a pair, as a closing boundary must.
-/

namespace RequestFile

/-- A piece of source text and what it is. -/
structure Token where
  kind : Kind
  text : String
deriving DecidableEq, Repr

namespace Token

/-- The number of bytes of a token. -/
def size (t : Token) : Nat :=
  t.text.utf8ByteSize

/-- Whether a character belongs to words. -/
def isWordChar (c : Char) : Bool :=
  c == '_' || c == '$' || c == '.' || isLetter c || isNumber c

/-- The characters that are tokens by themselves, unless they begin a longer token. -/
def symbols : List (Char × Kind) :=
  [('(', .parenOpen), (')', .parenClose), ('[', .bracketOpen), (']', .bracketClose),
   ('\x7b', .braceOpen), ('\x7d', .braceClose), ('/', .slash), ('\\', .backslash), ('@', .at),
   ('=', .equals), (':', .colon), ('?', .question), ('&', .ampersand), (',', .comma),
   ('%', .percent), ('<', .angleOpen), ('>', .angleClose), ('-', .dash), ('\n', .newline),
   ('\r', .newline)]

/-- The pairs of characters that form one token. -/
def pairs : List ((Char × Char) × Kind) :=
  [(('\x7b', '\x7b'), .varOpen), (('\x7d', '\x7d'), .varClose), (('\x7b', '%'), .scriptOpen),
   (('%', '\x7d'), .scriptClose), (('/', '/'), .doubleSlash), (('>', '>'), .redirectMarker),
   (('-', '-'), .doubleDash), (('\r', '\n'), .newline)]

/-- The kind of the token formed by `c` and the character after it, if they form one. -/
def pairKind? (c : Char) (cs : List Char) : Option Kind :=
  cs.head?.bind fun d => pairs.lookup (c, d)

/-- The number of characters at the front of `cs` that satisfy `p`. -/
def runLength (p : Char → Bool) (cs : List Char) : Nat :=
  (cs.takeWhile p).length

/-- The first token of a text that begins with `c` and goes on with `cs`: its kind, and how many
characters of `cs` it takes. `lineStart` says whether it is the first token of its line. -/
def lead (lineStart : Bool) (c : Char) (cs : List Char) : Kind × Nat :=
  if isWordChar c then (.word, runLength isWordChar cs)
  else if isBlank c then (.whitespace, runLength isBlank cs)
  else if isStrayBreak c then (.garbage, runLength isStrayBreak cs)
  else if c == '#' then
    let n := runLength (· == '#') cs
    if 2 ≤ n then (.separatorMarker, n) else (.hash, 0)
  else if c == '-' && !lineStart && runLength (· == '-') cs == 2 then (.dash, 0)
  else match pairKind? c cs with
    | some .redirectMarker => (.redirectMarker, if cs[1]? == some '!' then 2 else 1)
    | some k => (k, 1)
    | none => ((symbols.lookup c).getD .punct, 0)

/-- The tokens of a text of which the first `skip` characters are already taken. -/
def scanFrom (lineStart : Bool) (skip : Nat) : List Char → List Token
  | [] => []
  | c :: cs =>
    match skip with
    | n + 1 => scanFrom lineStart n cs
    | 0 =>
      let (k, n) := lead lineStart c cs
      ⟨k, String.ofList (c :: cs.take n)⟩ :: scanFrom (k == .newline) n cs

/-- The tokens of a source, in order. -/
def scan (source : String) : List Token :=
  scanFrom true 0 source.toList

/-- The text of a list of tokens. -/
def textOf (ts : List Token) : String :=
  String.join (ts.map Token.text)

/-- The number of bytes of a list of tokens. -/
def sizeOf (ts : List Token) : Nat :=
  total size ts

/-- Each token with the range it covers, when the first one starts at `offset`. -/
def locate (offset : Nat) : List Token → List (Span × Token)
  | [] => []
  | t :: ts => (⟨offset, t.size⟩, t) :: locate (offset + t.size) ts

end Token

end RequestFile
