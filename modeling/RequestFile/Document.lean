import RequestFile.Content.Section
import RequestFile.Diagnostic.Filter
import RequestFile.Parse

/-!
Documents: a source, its tree and what is wrong with it.

`Document.parse` parses a source and then checks the names of its sections. A name is empty when its
entry has no value, and used twice when an earlier section has the same one; both are warnings.
-/

namespace RequestFile

/-- A parsed request file. -/
structure Document where
  source : String
  tree : Tree
  /-- What the parser reported, and then what the check of names found. -/
  diagnostics : List Diagnostic

namespace Document

/-- The limits of a document: any number of tokens, and productions nested up to 4096 deep. -/
def defaultLimits : Limits :=
  ⟨none, some 4096⟩

/-- The sections of a tree. -/
def sectionsOf (tree : Tree) : List Section :=
  ((Placed.mk 0 tree).childrenOf .section).map Section.ofTree

/-- The warning about an entry that names its section and has no value. -/
def emptyName (e : Entry) : Diagnostic :=
  Diagnostic.new .emptyRequestName (e.name.elim e.span fun n => ⟨e.span.start, n.span.stop - e.span.start⟩)

/-- The warning about a name that was used before. -/
def duplicateName (name : Value) (first : Span) : Diagnostic :=
  ((Diagnostic.new .duplicateRequestName name.span).saying name.text).relatedTo
    "first used here" first

/-- The warnings about the names of sections. `seen` lists the names used so far, each with its
first place. -/
def nameWarnings (seen : List (String × Span)) : List Section → List Diagnostic
  | [] => []
  | s :: rest =>
    match s.nameEntry with
    | none => nameWarnings seen rest
    | some e =>
      match e.value with
      | none => emptyName e :: nameWarnings seen rest
      | some v =>
        match seen.lookup v.text with
        | some first => duplicateName v first :: nameWarnings seen rest
        | none => nameWarnings ((v.text, v.span) :: seen) rest

/-- The document of a source. -/
def parse (limits : Limits) (source : String) : Except ParseError Document :=
  match Parsed.ofSource limits source with
  | .error e => .error e
  | .ok p => .ok ⟨source, p.tree, p.reports ++ nameWarnings [] (sectionsOf p.tree)⟩

/-- The sections of a document. -/
def sections (d : Document) : List Section :=
  sectionsOf d.tree

/-- The requests of a document, at most one a section. -/
def requests (d : Document) : List Request :=
  d.sections.filterMap Section.request

/-- Whether a document has no errors; warnings do not count. -/
def isValid (d : Document) : Bool :=
  Diagnostic.errorCount d.diagnostics == 0

/-- Whether the tree holds exactly the source. -/
def isLossless (d : Document) : Bool :=
  d.tree.text == d.source

end Document

end RequestFile
