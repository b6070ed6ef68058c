import RequestFile.Content.Body

/-!
Sections, requests and responses.

`Section.ofTree` reads a section node into data. Its name is what its metadata say under `name`, and
otherwise the title of its separator.
-/

namespace RequestFile

/-- The content of a comment, without its marker and the white space around it. -/
def commentText (t : Tree) : String :=
  trimmed (((t.ownLeaves.find? (·.1 == .text)).map Prod.snd).getD "")

/-- A request. -/
structure Request extends Piece where
  method : Option String
  url : Option Url
  version : Option String
  headers : List Entry
  comments : List String
  bodies : List Body
  handlers : List (Option Script)
  redirects : List Redirect
deriving DecidableEq, Repr

/-- The request at a node. -/
def Request.ofTree (p : Placed) : Request where
  toPiece := Piece.ofTree p
  method := (p.tree.child? .method).map Tree.text
  url := (p.child? .targetUrl).map Url.ofTree
  version := (p.tree.child? .httpVersion).map Tree.text
  headers := (p.childrenOf .header).map (Entry.ofTree .headerEntity)
  comments := (p.tree.childrenOf .comment).map commentText
  bodies := p.children.filterMap Body.ofTree?
  handlers := (p.childrenOf .resHandlerScript).map Script.ofLine
  redirects := (p.childrenOf .resRedirect).map Redirect.ofTree

/-- A response. -/
structure Response extends Piece where
  version : Option String
  status : Option String
  statusText : Option String
  headers : List Entry
  body : Option Body
deriving DecidableEq, Repr

/-- The response at a node. -/
def Response.ofTree (p : Placed) : Response where
  toPiece := Piece.ofTree p
  version := (p.tree.child? .httpVersion).map Tree.text
  status := (p.tree.child? .statusCode).map Tree.text
  statusText := (p.tree.child? .statusText).map Tree.text
  headers := (p.childrenOf .header).map (Entry.ofTree .headerEntity)
  body := p.children.findSome? Body.ofTree?

/-- The status code of a response as a number. -/
def Response.statusCode (r : Response) : Option Nat :=
  r.status.bind decimal?

/-- A command with its arguments. -/
structure Command extends Entry where
  arguments : List Entry
deriving DecidableEq, Repr

/-- The command at a node. -/
def Command.ofTree (p : Placed) : Command where
  toEntry := Entry.ofTree .commandName p
  arguments := (p.childrenOf .variableDeclarationInline).map (Entry.ofTree .identifier)

/-- A section of a request file. -/
structure Section extends Piece where
  /-- The separator, if there is one, with its title, if it has one. -/
  separator : Option (Option Value)
  metadata : List Entry
  declarations : List Entry
  commands : List Command
  comments : List String
  scripts : List (Option Script)
  request : Option Request
  response : Option Response
deriving DecidableEq, Repr

namespace Section

/-- The section at a node. -/
def ofTree (p : Placed) : Section where
  toPiece := Piece.ofTree p
  separator := (p.child? .requestSeparator).map fun s => (s.child? .value).map Value.ofTree
  metadata := (p.childrenOf .metadata).map (Entry.ofTree .identifier)
  declarations := (p.childrenOf .variableDeclaration).map (Entry.ofTree .identifier)
  commands := (p.childrenOf .command).map Command.ofTree
  comments := (p.tree.childrenOf .comment).map commentText
  scripts := (p.childrenOf .preRequestScript).map Script.ofLine
  request := (p.child? .request).map Request.ofTree
  response := (p.child? .response).map Response.ofTree

/-- The title on the separator. -/
def title (s : Section) : Option Value :=
  s.separator.join

/-- The metadata entry that names the section: the first one called `name`. -/
def nameEntry (s : Section) : Option Entry :=
  s.metadata.find? fun e => e.name.any (·.text == "name")

theorem isName_iff (e : Entry) :
    e.name.any (·.text == "name") = true ↔ e.name.map (·.text) = some "name" := by
  cases e.name <;> simp

/-- The entry that names a section is called `name`, and no entry in front of it is. -/
theorem nameEntry_eq_some_iff {s : Section} {e : Entry} :
    s.nameEntry = some e ↔ e.name.map (·.text) = some "name" ∧
      ∃ front back, s.metadata = front ++ e :: back ∧
        ∀ x ∈ front, x.name.map (·.text) ≠ some "name" := by
  simp only [nameEntry, List.find?_eq_some_iff_append, Bool.not_eq_true', ← Bool.not_eq_true,
    isName_iff, ne_eq]

/-- A section without such an entry has none called `name`. -/
theorem nameEntry_eq_none_iff {s : Section} :
    s.nameEntry = none ↔ ∀ x ∈ s.metadata, x.name.map (·.text) ≠ some "name" := by
  simp only [nameEntry, List.find?_eq_none, isName_iff, ne_eq]

/-- The name of the section. An entry for it counts even when it has no value. -/
def name (s : Section) : Option String :=
  match s.nameEntry with
  | some e => e.value.map (·.text)
  | none => s.title.map (·.text)

end Section

end RequestFile
