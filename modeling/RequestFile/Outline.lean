import RequestFile.Document
import RequestFile.Dump

/-!
Outlines of a document: what its sections and requests hold, a line each.
-/

namespace RequestFile

namespace Outline

/-- A line at a depth. -/
def line (depth : Nat) (text : String) : String :=
  indent depth ++ text ++ "\n"

/-- The range of a piece, if ranges are shown. -/
def spanOf (style : DumpStyle) (p : Piece) : String :=
  style.spanText p.span.start p.span.size

/-- A text after a space, if there is one. -/
def optional (text : Option String) : String :=
  text.elim "" (" " ++ ·)

/-- The line of a script. -/
def script (depth : Nat) (label : String) (s : Option Script) : String :=
  line depth <| label ++ match s with
    | some (.inline _ _) => " inline"
    | some (.file path) => " " ++ path.text
    | none => ""

/-- The line of a header. -/
def header (style : DumpStyle) (depth : Nat) (h : Entry) : String :=
  line depth ("Header" ++ spanOf style h.toPiece ++ " " ++ h.nameText ++ ": " ++ h.valueText)

/-- The line of a body, with the path of a file or the boundary of a multipart body. -/
def body (style : DumpStyle) (depth : Nat) (b : Body) : String :=
  line depth <| "Body" ++ spanOf style b.toPiece ++ " " ++ b.content.name ++ match b.content with
    | .external file => " " ++ (file.path.map (·.text)).getD ""
    | .multipart boundary _ _ _ => " " ++ boundary.getD ""
    | _ => ""

/-- The line of a redirect. -/
def redirect (depth : Nat) (r : Redirect) : String :=
  line depth ("ResRedirect " ++ (if r.overwrite then ">>!" else ">>") ++ " "
    ++ (r.path.map (·.text)).getD "")

/-- The lines of a request. -/
def request (style : DumpStyle) (depth : Nat) (r : Request) : String :=
  line depth ("Request" ++ spanOf style r.toPiece ++ optional r.method
      ++ optional (r.url.map Url.oneLine) ++ optional r.version)
    ++ String.join (r.headers.map (header style (depth + 1)))
    ++ String.join (r.bodies.map (body style (depth + 1)))
    ++ String.join (r.handlers.map (script (depth + 1) "ResHandlerScript"))
    ++ String.join (r.redirects.map (redirect (depth + 1)))

/-- The lines of a response. -/
def response (style : DumpStyle) (depth : Nat) (r : Response) : String :=
  line depth ("Response" ++ spanOf style r.toPiece ++ optional r.status ++ optional r.statusText)
    ++ String.join (r.headers.map (header style (depth + 1)))
    ++ r.body.elim "" (body style (depth + 1))

/-- The lines of a section. -/
def sectionLines (style : DumpStyle) (depth : Nat) (s : Section) : String :=
  line depth ("Section" ++ spanOf style s.toPiece ++ optional (s.name.map Quoted.encode))
    ++ String.join (s.declarations.map fun v =>
      line (depth + 1) ("Variable " ++ v.nameText ++ " = " ++ v.valueText))
    ++ String.join (s.commands.map fun c =>
      line (depth + 1) ("Command " ++ c.nameText ++ " " ++ c.valueText))
    ++ String.join (s.scripts.map (script (depth + 1) "PreRequestScript"))
    ++ s.request.elim "" (request style (depth + 1))
    ++ s.response.elim "" (response style (depth + 1))

end Outline

/-- The outline of a document. -/
def Document.outline (style : DumpStyle) (d : Document) : String :=
  Outline.line 0 ("Document" ++ style.spanText 0 d.tree.size)
    ++ String.join (d.sections.map (Outline.sectionLines style 1))

end RequestFile
