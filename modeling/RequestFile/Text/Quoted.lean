import RequestFile.Text.Printable

/-!
Quoted text, as tree dumps show it.

A text stands in double quotes. A quote, a backslash and every character that would not show are
escaped: `encodeChar` gives the written form of one character, `encode` that of a text.
-/

namespace RequestFile

namespace Quoted

/-- The escape of a character by its code point in lower-case hexadecimal digits. -/
def hexEscape (c : Char) : List Char :=
  ['\\', 'u', '\x7b'] ++ Nat.toDigits 16 c.toNat ++ ['\x7d']

/-- The written form of a character: short escapes, itself if it shows, or its code point. -/
def encodeChar (c : Char) : List Char :=
  match c with
  | '\x00' => ['\\', '0']
  | '\t' => ['\\', 't']
  | '\r' => ['\\', 'r']
  | '\n' => ['\\', 'n']
  | '"' => ['\\', '"']
  | '\\' => ['\\', '\\']
  | c => if isPrintable c then [c] else hexEscape c

/-- A text in quotes. -/
def encode (s : String) : String :=
  String.ofList ('"' :: s.toList.flatMap encodeChar ++ ['"'])

end Quoted

end RequestFile
