import RequestFile.Diagnostic.Render
import RequestFile.Grammar.Standard
import RequestFile.Language
import RequestFile.Outline
import RequestFile.Summary

/-!
What the command line program does.

A job is a command line that has been understood. `Job.run` gives its outcome: what is written to
the two outputs, and the exit code. The content of a source outside of the command line is given to
it, so that a job is a function of what it is told.

* `Job.source?`: the source that a job needs.
* `Document.objections`: the reports of a check, or nothing if the document passes.
-/

namespace RequestFile

/-- Where a request file comes from. -/
inductive Source where
  /-- The command line itself. -/
  | inline (text : String)
  /-- The standard input. -/
  | stdin
  | file (path : String)
deriving DecidableEq, Repr

/-- The name of a source in reports. -/
def Source.label : Source → String
  | .inline _ => "<inline>"
  | .stdin => "<stdin>"
  | .file path => path

/-- Why the bytes of a source could not be had, and the number that the system gives to it. -/
structure ReadFault where
  reason : String
  code : Nat
deriving DecidableEq, Repr

namespace ReadFault

/-- There is no such file. -/
def missing : ReadFault :=
  ⟨"No such file or directory", 2⟩

/-- A part of the path is no directory. -/
def noDirectory : ReadFault :=
  ⟨"Not a directory", 20⟩

/-- The file is a directory. -/
def directory : ReadFault :=
  ⟨"Is a directory", 21⟩

/-- The wording of a fault. -/
def message (f : ReadFault) : String :=
  s!"{f.reason} (os error {f.code})"

end ReadFault

/-- When output is colored. -/
inductive Coloring where
  /-- On a terminal only. -/
  | auto
  | always
  | never
deriving DecidableEq, Repr

/-- Whether output is colored, given whether it goes to a terminal. -/
def Coloring.applies (terminal : Bool) : Coloring → Bool
  | .auto => terminal
  | .always => true
  | .never => false

/-- A command line that has been understood. -/
inductive Job where
  /-- Shows the outline, or the tree itself (`whole`), which may hold layout. -/
  | tree (source : Option Source) (whole layout spans : Bool) (coloring : Coloring)
  /-- Reports what is wrong; `strict` minds warnings too. -/
  | check (source : Option Source) (strict : Bool) (coloring : Coloring)
  /-- Lists the requests as JSON. -/
  | requests (source : Option Source) (compact : Bool)
  /-- Shows the node types of the grammar as JSON. -/
  | nodeTypes (compact : Bool)
  /-- Shows the size of the grammar. -/
  | info
deriving DecidableEq, Repr

/-- What a run leaves behind. -/
structure Outcome where
  code : Nat
  output : String
  errors : String
deriving DecidableEq, Repr

namespace Outcome

/-- A success that shows a text. -/
def shows (text : String) : Outcome :=
  ⟨0, text, ""⟩

/-- A failure that reports a text. -/
def reports (text : String) : Outcome :=
  ⟨1, "", text⟩

/-- A failure for a reason. -/
def fails (reason : String) : Outcome :=
  reports ("error: " ++ reason ++ "\n")

end Outcome

/-- The wording of the reasons why there is no tree. -/
def ParseError.message : ParseError → String
  | .limit l => l.message
  | .fault _ => "internal error of the parser"

/-- Whether a document passes a check: without errors, and if the check is strict without
warnings. -/
def Document.passes (strict : Bool) (d : Document) : Bool :=
  d.isValid && (!strict || Diagnostic.warningCount d.diagnostics == 0)

/-- The reports of a check that a document does not pass. -/
def Document.objections (strict : Bool) (d : Document) : Option (List Diagnostic) :=
  if d.passes strict then none else some (Diagnostic.filtered d.diagnostics)

namespace Source

/-- The reason why a source could not be read. -/
def refusal (reason : String) : Source → String
  | .inline _ => reason
  | .stdin => s!"failed to read stdin: {reason}"
  | .file path => s!"failed to read '{path}': {reason}"

/-- The text of a source, given the bytes of what is outside of the command line. -/
def load (bytes : Except ReadFault ByteArray) : Source → Except String String
  | .inline text => .ok text
  | s =>
    match bytes with
    | .error f => .error (s.refusal f.message)
    | .ok bytes =>
      match String.fromUTF8? bytes with
      | some text => .ok text
      | none => .error (s.refusal "stream did not contain valid UTF-8")

end Source

namespace Job

/-- The source that a job needs. -/
def source? : Job → Option Source
  | tree source .. => source
  | check source .. => source
  | requests source .. => source
  | nodeTypes .. => none
  | info => none

/-- The outcome made from the document of a source. -/
def withDocument (bytes : Except ReadFault ByteArray) (source : Option Source)
    (f : Source → Document → Outcome) : Outcome :=
  match source with
  | none => .fails "source required: use a positional FILE or -s/--source"
  | some s =>
    match s.load bytes with
    | .error reason => .fails reason
    | .ok text =>
      match Document.parse Document.defaultLimits text with
      | .error e => .fails e.message
      | .ok d => f s d

/-- The outcome made from the language of request files. -/
def withLanguage (f : Language → Outcome) : Outcome :=
  match Language.ofGrammar .standard with
  | .error fault => .fails fault.message
  | .ok l => f l

/-- The outcome of a job, given whether output goes to a terminal, and the bytes of a source outside
of the command line. -/
def run (terminal : Bool) (bytes : Except ReadFault ByteArray) : Job → Outcome
  | tree source whole layout spans coloring =>
    withDocument bytes source fun _ d =>
      let style : DumpStyle := ⟨layout, spans, .of (coloring.applies terminal)⟩
      .shows (if whole then d.tree.dump style else d.outline style)
  | check source strict coloring =>
    withDocument bytes source fun s d =>
      match d.objections strict with
      | none => .shows ""
      | some ds =>
        .reports (Diagnostic.render ⟨d.source, some s.label, coloring.applies terminal⟩ ds)
  | requests source compact =>
    withDocument bytes source fun _ d => .shows (d.summariesJson.toText (!compact) ++ "\n")
  | nodeTypes compact =>
    withLanguage fun l => .shows (NodeType.writeList (!compact) l.nodeTypes ++ "\n")
  | info =>
    withLanguage fun l => .shows <|
      s!"name: {l.grammar.name}\nabi version: {l.grammar.version}\n"
        ++ s!"node kinds: {l.grammar.kinds.length}\nfields: {l.grammar.fields.length}\n"

end Job

end RequestFile
