import Mathlib.Data.List.Infix
import RequestFile.Parse.Head
import RequestFile.Proofs.Characters
import RequestFile.Summary

/-!
Requests as they are written down.

A `RequestModel` is a request that can be written in the one plain way: a separator, a request line,
a line for every header, and a JSON body after an empty line. `RequestModel.print` writes a list of
them, and `RequestModel.summaries` says what should be read back.

The fields carry what keeps the text of a part on its own line and apart from the syntax around it.
-/

namespace RequestFile

/-! ### Texts -/

/-- A text on one line. -/
def OneLine (s : String) : Prop :=
  ∀ c ∈ s.toList, c ≠ '\n' ∧ c ≠ '\r'

/-- A text without references to variables. -/
def NoReference (s : String) : Prop :=
  ¬['\x7b', '\x7b'] <:+: s.toList

/-- A text on one line without references to variables, and without blanks at its ends. -/
structure Inline (s : String) : Prop where
  oneLine : OneLine s
  noReference : NoReference s
  first : ∀ c ∈ s.toList.head?, isBlank c = false
  last : ∀ c ∈ s.toList.getLast?, isBlank c = false

instance (s : String) : Decidable (OneLine s) :=
  inferInstanceAs (Decidable (∀ c ∈ s.toList, c ≠ '\n' ∧ c ≠ '\r'))

instance (s : String) : Decidable (NoReference s) :=
  inferInstanceAs (Decidable (¬['\x7b', '\x7b'] <:+: s.toList))

instance (s : String) : Decidable (Inline s) :=
  decidable_of_iff (OneLine s ∧ NoReference s ∧ s.toList.head?.all (!isBlank ·) ∧
      s.toList.getLast?.all (!isBlank ·))
    (by
      simp only [Option.all_eq_true, Bool.not_eq_true']
      exact ⟨fun ⟨h, h', hf, hl⟩ => ⟨h, h', hf, hl⟩, fun ⟨h, h', hf, hl⟩ => ⟨h, h', hf, hl⟩⟩)

/-! ### Requests -/

/-- A header. The value may be empty. -/
structure HeaderModel where
  name : String
  value : String
  name_ne : name ≠ ""
  name_chars : ∀ c ∈ name.toList, c.isAlphanum ∨ c = '_' ∨ c = '-'
  value_inline : Inline value

/-- Lines of JSON, as far as the first characters of the lines tell. The text is an object or an
array, none of its other lines ends a body, and the last one is not blank. -/
structure JsonModel where
  first : String
  others : List String
  oneLine : ∀ l ∈ first :: others, OneLine l
  opens : ∃ c cs, first.toList = c :: cs ∧
    (c = '[' ∨ c = '\x7b' ∧ cs.head? ≠ some '\x7b' ∧ cs.head? ≠ some '%')
  goes_on : ∀ l ∈ others, ¬['#', '#', '#'] <+: l.toList ∧ l.toList.head? ≠ some '>'
  last : ∀ l ∈ others.getLast?, ∃ c ∈ l.toList, isBlank c = false

/-- A request. -/
structure RequestModel where
  title : Option String
  method : String
  url : String
  version : Option String
  headers : List HeaderModel
  body : Option JsonModel
  title_ne : ∀ t ∈ title, t ≠ ""
  title_inline : ∀ t ∈ title, Inline t
  method_known : method ∈ Lookahead.methods
  url_ne : url ≠ ""
  url_chars : ∀ c ∈ url.toList, isWhiteSpace c = false
  url_noReference : NoReference url
  version_number : ∀ v ∈ version, Lookahead.isVersionNumber v

/-! ### Printing -/

/-- Lines, each with its terminator. -/
def unlines (ls : List String) : String :=
  String.join (ls.map (· ++ "\n"))

lemma unlines_append (ls ks : List String) : unlines (ls ++ ks) = unlines ls ++ unlines ks := by
  rw [unlines, List.map_append, String.join_append, unlines, unlines]

lemma toList_unlines_cons (l : String) (ls : List String) :
    (unlines (l :: ls)).toList = l.toList ++ '\n' :: (unlines ls).toList := by
  rw [unlines, List.map_cons, String.join_cons, String.toList_append, String.toList_append,
    List.append_assoc]
  rfl

/-- The line of a header. -/
def HeaderModel.line (h : HeaderModel) : String :=
  h.name ++ ":" ++ (if h.value = "" then "" else " " ++ h.value)

/-- The lines of a JSON text. -/
def JsonModel.lines (j : JsonModel) : List String :=
  j.first :: j.others

namespace RequestModel

/-- The separator with the title. -/
def separatorLine (m : RequestModel) : String :=
  "###" ++ m.title.elim "" (" " ++ ·)

/-- The method, the URL and the version. -/
def requestLine (m : RequestModel) : String :=
  m.method ++ " " ++ m.url ++ m.version.elim "" (" HTTP/" ++ ·)

/-- The lines of the body with the empty one in front of it. -/
def bodyLines (m : RequestModel) : List String :=
  m.body.elim [] fun j => "" :: j.lines

/-- The lines of a request. -/
def lines (m : RequestModel) : List String :=
  m.separatorLine :: m.requestLine :: (m.headers.map HeaderModel.line ++ m.bodyLines)

/-- The text of a list of requests. -/
def print (ms : List RequestModel) : String :=
  unlines (ms.flatMap lines)

/-! ### Reading back -/

/-- Headers by name, in the order in which the names first occur. Values of one name are joined by
commas. -/
def mergedHeaders (hs : List HeaderModel) : HeaderMap :=
  (hs.map HeaderModel.name).eraseDups.map fun n =>
    (n, ", ".intercalate ((hs.filter (·.name = n)).map HeaderModel.value))

/-- The summary of a request whose separator stands on a line. -/
def summary (separatorLine : Nat) (m : RequestModel) : Summary where
  name := m.title
  method := m.method
  url := m.url
  version := m.version.map ("HTTP/" ++ ·)
  headers := mergedHeaders m.headers
  body := m.body.map fun _ => "json_body"
  line := separatorLine + 1

/-- The summaries of requests, the first of which begins on a line. -/
def summaries (firstLine : Nat) : List RequestModel → List Summary
  | [] => []
  | m :: ms => m.summary firstLine :: summaries (firstLine + m.lines.length) ms

end RequestModel

end RequestFile
