import RequestFile.Problem
import RequestFile.Text.Span

/-!
Diagnostics: a problem, where it is, and what helps to mend it.

A diagnostic starts from its problem and range (`Diagnostic.new`) and is then filled in by `saying`,
`relatedTo`, `fixedBy` and `hinting`. `Diagnostic.line` is its form on one line.
-/

namespace RequestFile

/-- A proposed edit: the range of the diagnostic becomes `replacement`. -/
structure Fix where
  description : String
  replacement : String
deriving DecidableEq, Repr

/-- A second place that matters, such as the opener of something left open. -/
structure Related where
  message : String
  span : Span
deriving DecidableEq, Repr

/-- A problem found at a range of the source. -/
structure Diagnostic where
  problem : Problem
  span : Span
  message : String
  fix : Option Fix
  related : List Related
  hints : List String
deriving DecidableEq, Repr

namespace Diagnostic

/-- A problem at a range, with the message and the hint that its kind brings along. -/
def new (problem : Problem) (span : Span) : Diagnostic where
  problem := problem
  span := span
  message := problem.summary
  fix := none
  related := []
  hints := problem.hint?.toList

/-- The diagnostic with a message made from a detail. -/
def saying (d : Diagnostic) (detail : String) : Diagnostic :=
  { d with message := d.problem.detailed detail }

/-- The diagnostic with one more related place. -/
def relatedTo (d : Diagnostic) (message : String) (span : Span) : Diagnostic :=
  { d with related := d.related ++ [⟨message, span⟩] }

/-- The diagnostic with a proposed edit. -/
def fixedBy (d : Diagnostic) (description replacement : String) : Diagnostic :=
  { d with fix := some ⟨description, replacement⟩ }

/-- The diagnostic with one more hint. -/
def hinting (d : Diagnostic) (hint : String) : Diagnostic :=
  { d with hints := d.hints ++ [hint] }

/-- The severity of a diagnostic is that of its problem. -/
def severity (d : Diagnostic) : Severity :=
  d.problem.severity

/-- Whether the diagnostic is an error. -/
def isError (d : Diagnostic) : Bool :=
  d.severity = .error

/-- Whether the diagnostic is a warning. -/
def isWarning (d : Diagnostic) : Bool :=
  d.severity = .warning

/-- The diagnostic on one line: severity, range and message, then in parentheses the description of
the fix, the related places and the hints. -/
def line (d : Diagnostic) : String :=
  d.severity.name ++ " at " ++ d.span.toText ++ ": " ++ d.message
    ++ (d.fix.elim "" fun f => " (fix: " ++ f.description ++ ")")
    ++ String.join (d.related.map fun r => " (related: " ++ r.message ++ " at " ++ r.span.toText ++ ")")
    ++ String.join (d.hints.map fun h => " (hint: " ++ h ++ ")")

end Diagnostic

end RequestFile
