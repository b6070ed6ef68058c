import RequestFile.Json.Reader
import RequestFile.Text.Total

/-!
Reading words, numbers and strings.

**Strings** hold escaped characters; one above U+FFFF is escaped as two halves, and a half alone is
malformed. A string that is passed over unread may hold such halves, for nobody asks which character
they stand for.

**Numbers** are decimals with an optional fraction and exponent. One that is passed over unread may
be of any size; one that is looked at has to be a double.
-/

namespace RequestFile.Json

/-- A decimal digit. -/
def isDigit (c : Char) : Bool :=
  '0' ≤ c && c ≤ '9'

/-- The value of a hexadecimal digit. -/
def hexValue? (c : Char) : Option Nat :=
  if isDigit c then some (c.toNat - '0'.toNat)
  else if 'a' ≤ c && c ≤ 'f' then some (c.toNat - 'a'.toNat + 10)
  else if 'A' ≤ c && c ≤ 'F' then some (c.toNat - 'A'.toNat + 10)
  else none

/-- The value of hexadecimal digits. -/
def hexValues? (cs : List Char) : Option Nat :=
  cs.foldlM (fun n c => (hexValue? c).map (16 * n + ·)) 0

/-! ### Numbers -/

/-- The size of a decimal: a whole number times a power of ten. -/
structure Decimal where
  digits : List Char
  exponent : Int

namespace Decimal

/-- The whole number in front of the power of ten. -/
def coefficient (d : Decimal) : Nat :=
  d.digits.foldl (fun n c => 10 * n + (c.toNat - '0'.toNat)) 0

/-- The least number that rounds past every double. -/
def bound : Nat :=
  Nat.pow 2 1024 - Nat.pow 2 970

/-- True if the decimal rounds past every double. Its count of digits decides, unless that is the one
of the bound. -/
def isHuge (d : Decimal) : Bool :=
  let digits := d.digits.dropWhile (· == '0')
  let size := (digits.length : Int) + d.exponent
  if digits.isEmpty || size < 309 then false
  else if 309 < size then true
  else bound * Nat.pow 10 (-d.exponent).toNat ≤ d.coefficient * Nat.pow 10 d.exponent.toNat

end Decimal

namespace Reader

/-- Takes a digit; `e` is the fault where the text ends. -/
def digit (e : Fault) : Reader Char := do
  let c ← next e
  if isDigit c then
    return c
  else
    fail .malformed

/-- Takes a digit and those after it. -/
def digits (e : Fault) : Reader (List Char) := do
  let c ← digit e
  return c :: (← takeWhile isDigit)

/-- Takes one of some characters, if it is the next one. -/
def takeOne? (cs : List Char) : Reader (Option Char) := do
  match ← peek? with
  | some c =>
    if cs.contains c then
      drop 1
      return some c
    else
      return none
  | none => return none

/-- Takes the digits before the point after their first one: none after a zero. -/
def wholeDigits (first : Char) : Reader (List Char) := do
  let ds ← takeWhile isDigit
  if first == '0' && !ds.isEmpty then
    fail .malformed
  else
    return first :: ds

/-- Takes an exponent after its letter. -/
def exponent (e : Fault) : Reader Int := do
  let sign ← takeOne? ['+', '-']
  let ds ← digits e
  let n : Int := (Decimal.mk ds 0).coefficient
  return if sign = some '-' then -n else n

/-- Takes a number after its first character `c`; `e` is the fault where the text ends inside it. -/
def number (e : Fault) (c : Char) : Reader Decimal := do
  let first ← if c == '-' then digit e else pure c
  if !isDigit first then
    fail .malformed
  else
    let whole ← wholeDigits first
    let fraction ← match ← takeOne? ['.'] with
      | some _ => digits e
      | none => pure []
    let power ← match ← takeOne? ['e', 'E'] with
      | some _ => exponent e
      | none => pure 0
    return ⟨whole ++ fraction, power - fraction.length⟩

/-! ### Strings -/

/-- The character that a letter after a backslash stands for. -/
def shortEscape? : Char → Option Char
  | '"' => some '"'
  | '\\' => some '\\'
  | '/' => some '/'
  | 'b' => some '\x08'
  | 'f' => some '\x0c'
  | 'n' => some '\n'
  | 'r' => some '\r'
  | 't' => some '\t'
  | _ => none

/-- Takes four hexadecimal digits. A text with fewer than four bytes left is truncated. -/
def codeUnit : Reader Nat := do
  let cs := (← rest).take 4
  if total Char.utf8Size cs < 4 then
    fail .truncated
  else
    match hexValues? cs with
    | some n =>
      drop 4
      return n
    | none => fail .malformed

/-- A number is the first half of a character above U+FFFF. -/
def isFirstHalf (n : Nat) : Bool :=
  0xD800 ≤ n && n ≤ 0xDBFF

/-- A number is the second half of a character above U+FFFF. -/
def isSecondHalf (n : Nat) : Bool :=
  0xDC00 ≤ n && n ≤ 0xDFFF

/-- Takes what follows `\u`: a character, or the first half of one, which needs the escaped second
half. -/
def codePoint : Reader Char := do
  let n ← codeUnit
  if isSecondHalf n then
    fail .malformed
  else if isFirstHalf n then
    word ['\\', 'u']
    let m ← codeUnit
    if isSecondHalf m then
      return Char.ofNat (0x10000 + (n - 0xD800) * 0x400 + (m - 0xDC00))
    else
      fail .malformed
  else
    return Char.ofNat n

/-- Takes what follows a backslash. -/
def escape : Reader Char := do
  let c ← next .truncated
  if c == 'u' then
    codePoint
  else
    match shortEscape? c with
    | some d => return d
    | none => fail .malformed

/-- Passes over what follows a backslash. -/
def skipEscape : Reader Unit := do
  let c ← next .truncated
  if c == 'u' then
    let _ ← codeUnit
  else if (shortEscape? c).isNone then
    fail .malformed

/-- Takes a string after its opening quote. -/
def stringBody : Reader String :=
  loop (fun s c =>
    if c == '"' then done s
    else if c == '\\' then do
      again (s.push (← escape))
    else if c.toNat < 0x20 then fail .malformed
    else again (s.push c)) ""

/-- Passes over a string after its opening quote. -/
def skipString : Reader Unit :=
  loop (fun _ c =>
    if c == '"' then done ()
    else if c == '\\' then do
      skipEscape
      again ()
    else if c.toNat < 0x20 then fail .malformed
    else again ()) ()

end Reader

end RequestFile.Json
