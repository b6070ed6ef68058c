import Mathlib.Tactic
import Mathlib.Computability.Language
import Mathlib.Order.CompletePartialOrder
import RequestFile.Tree
import RequestFile.Token

/-!
The grammar of syntax trees.

A form is a language over trees: the rows of neighbouring trees that a production may build. Forms
are put together like regular expressions, and `node` turns a form into the single trees whose
children have it, so the forms below are a grammar of the trees that a parse gives.

Every form takes a flag that tells whether the source may be in error. Where a production reports an
error instead of building a tree, its form has the alternative `lapse`, which stands for nothing and
is there only under that flag: a tree of the form `document false` has all its parts.
-/

-- outside the namespace, in which `Language` is what a grammar describes
/-- Formal languages with trees for letters. -/
abbrev TreeLanguage := Language RequestFile.Tree

namespace RequestFile

open scoped Computability

namespace Tree

/-- The text of neighbouring trees. -/
def textOf (ts : List Tree) : String :=
  String.join ((leavesOf ts).map Prod.snd)

@[simp]
lemma textOf_nil : textOf [] = "" := rfl

lemma leavesOf_append (ts us : List Tree) : leavesOf (ts ++ us) = leavesOf ts ++ leavesOf us := by
  induction ts with
  | nil => rfl
  | cons t ts ih => rw [List.cons_append, leavesOf, leavesOf, ih, List.append_assoc]

@[simp]
lemma textOf_append (ts us : List Tree) : textOf (ts ++ us) = textOf ts ++ textOf us := by
  rw [textOf, leavesOf_append, List.map_append, String.join_append, textOf, textOf]

lemma textOf_leaf (k : Kind) (s : String) : textOf [leaf k s] = s := by
  simp [textOf, leavesOf, leaves, String.join_cons]

lemma text_node (k : Kind) (ts : List Tree) : (node k ts).text = textOf ts := rfl

lemma textOf_singleton (t : Tree) : textOf [t] = t.text := by
  simp [textOf, leavesOf, text]

lemma textOf_cons (t : Tree) (ts : List Tree) : textOf (t :: ts) = t.text ++ textOf ts := by
  rw [← List.singleton_append, textOf_append, textOf_singleton]

end Tree

namespace Form

/-! ### Building blocks -/

/-- One token of a kind. -/
def leaf (k : Kind) : TreeLanguage :=
  {w | ∃ t : Token, t.kind = k ∧ w = [.leaf k t.text]}

/-- Some tokens of one line, merged. -/
def text : TreeLanguage :=
  {w | ∃ ts : List Token, ts ≠ [] ∧ (∀ t ∈ ts, t.kind ≠ .newline) ∧
    w = [.leaf .text (Token.textOf ts)]}

/-- A node whose children have a form. -/
def node (k : Kind) (L : TreeLanguage) : TreeLanguage :=
  {w | ∃ ts ∈ L, w = [.node k ts]}

lemma node_mono {k : Kind} {L M : TreeLanguage} (h : L ≤ M) : node k L ≤ node k M := by
  rintro _ ⟨ts, hts, rfl⟩
  exact ⟨ts, h hts, rfl⟩

/-- Something that may be absent. -/
def opt (L : TreeLanguage) : TreeLanguage :=
  1 + L

/-- Nothing where something was required; only in a source with errors. -/
def lapse (e : Bool) : TreeLanguage :=
  if e then 1 else 0

lemma nil_mem_lapse {e : Bool} (h : e = true) : [] ∈ lapse e := by
  rw [lapse, if_pos h]
  exact Language.nil_mem_one

/-! ### Blanks, line ends and errors -/

/-- A blank, if there is one. -/
def blank : TreeLanguage :=
  opt (leaf .whitespace)

/-- A line terminator, which the last line of a source may lack. -/
def lineEnd : TreeLanguage :=
  opt (leaf .newline)

variable (e : Bool)

/-- A stretch of a line that fits nowhere. -/
def rejected : TreeLanguage :=
  lapse e * opt (node .error text)

/-- The rest of a line on which nothing more is expected. -/
def rest : TreeLanguage :=
  opt (rejected e)

/-! ### Values -/

/-- A name. -/
def name : TreeLanguage :=
  node .identifier text

/-- A name where one is required. -/
def identifier : TreeLanguage :=
  name + lapse e

/-- A reference to a variable. -/
def reference : TreeLanguage :=
  node .variable
    (leaf .varOpen * blank * identifier e * blank * (leaf .varClose + lapse e))

/-- Text with references. -/
def content : TreeLanguage :=
  (text + reference e)∗

/-- A value. -/
def value : TreeLanguage :=
  node .value (content e)

/-- A path. -/
def path : TreeLanguage :=
  node .path (content e) + lapse e

/-! ### Scripts -/

/-- An inline script. -/
def script : TreeLanguage :=
  node .script (leaf .scriptOpen * (leaf .newline + text)∗ * (leaf .scriptClose + lapse e))

/-- An inline script or the path of a script file. -/
def scriptOrPath : TreeLanguage :=
  script e + path e

/-- What may follow a script or a path on its line, and empty lines. -/
def scriptEnd : TreeLanguage :=
  opt (blank * rest e * (leaf .newline)∗)

/-- A marker and what it is about. -/
def scriptLine (k marker : Kind) (L : TreeLanguage) : TreeLanguage :=
  node k (leaf marker * blank * L * scriptEnd e)

/-! ### Lines in front of a request -/

/-- A separator with an optional title. -/
def separator : TreeLanguage :=
  node .requestSeparator
    (leaf .separatorMarker * blank * (opt (value e) * blank) * lineEnd)

/-- The token that begins a comment. -/
def commentMarker : TreeLanguage :=
  leaf .hash + leaf .doubleSlash

/-- A comment. -/
def comment : TreeLanguage :=
  node .comment (commentMarker * opt text * lineEnd)

/-- The value of a metadata line. -/
def metadataValue : TreeLanguage :=
  opt (blank * opt (leaf .equals * blank) * opt (value e))

/-- A comment that names a property of the request. -/
def metadata : TreeLanguage :=
  node .metadata
    (commentMarker * blank * leaf .at * name * metadataValue e * blank * lineEnd)

/-- The part of a declaration from its equals sign on. -/
def assigned : TreeLanguage :=
  leaf .equals * blank * (value e + lapse e) + rejected e

/-- A declaration. -/
def assignment : TreeLanguage :=
  leaf .at * identifier e * blank * assigned e

/-- A variable declared on a line of its own. -/
def variableDeclaration : TreeLanguage :=
  node .variableDeclaration (assignment e * blank * lineEnd)

/-- One argument of a command. -/
def argument : TreeLanguage :=
  node .variableDeclarationInline (assignment e)

/-- The arguments of a command. -/
def arguments : TreeLanguage :=
  leaf .parenOpen * blank * ((argument e * blank * leaf .comma * blank)∗ * opt (argument e * blank))
    * (leaf .parenClose + lapse e)

/-- A command. -/
def command : TreeLanguage :=
  node .command
    (node .commandName text * blank * (value e + lapse e) * opt (blank * arguments e)
      * (blank * rest e * lineEnd))

/-- A script to run before the request. -/
def preRequestScript : TreeLanguage :=
  scriptLine e .preRequestScript .angleOpen (scriptOrPath e)

/-- One line in front of a request. -/
def preambleLine : TreeLanguage :=
  blank * (lineEnd + comment + metadata e + variableDeclaration e + command e + preRequestScript e)

/-! ### Request and response lines -/

/-- A token below a node of its own. -/
def operator (k : Kind) : TreeLanguage :=
  node .operator (leaf k)

/-- A node over text with references. -/
def part (k : Kind) : TreeLanguage :=
  node k (content e)

/-- The equals sign of a query parameter and its value. -/
def queryValue : TreeLanguage :=
  operator .equals * opt (part e .queryParamValue)

/-- A query parameter. -/
def queryParam : TreeLanguage :=
  node .queryParam (opt (part e .queryParamName) * opt (queryValue e))

/-- A query part. -/
def queryPart (k mark : Kind) : TreeLanguage :=
  node k (operator mark * opt (queryParam e))

/-- A fragment. -/
def fragment : TreeLanguage :=
  node .fragment (operator .hash * opt text)

/-- A piece of a URL. -/
def urlPiece : TreeLanguage :=
  queryPart e .queryString .question + queryPart e .queryParamContinuation .ampersand + fragment
    + reference e + text

/-- A line that goes on a URL. -/
def urlNextLine : TreeLanguage :=
  blank * leaf .newline * blank * (urlPiece e)∗

/-- The URL of a request. -/
def targetUrl : TreeLanguage :=
  node .targetUrl ((urlPiece e)∗ * (urlNextLine e)∗)

/-- A method. -/
def method : TreeLanguage :=
  opt (node .method text * blank)

/-- A version. -/
def version : TreeLanguage :=
  node .httpVersion text

/-- The first line of a request. -/
def requestLine : TreeLanguage :=
  method * targetUrl e * opt (blank * opt version) * (blank * rest e * lineEnd)

/-- A status code and the text after it. -/
def status : TreeLanguage :=
  node .statusCode text * blank * (opt (node .statusText text) * blank) + rejected e

/-- The first line of a response. -/
def responseLine : TreeLanguage :=
  version * blank * status e * lineEnd

/-! ### Headers -/

/-- What follows the name of a header. -/
def headerValue : TreeLanguage :=
  leaf .colon * blank * (opt (value e) * blank) + rejected e

/-- A header. -/
def header : TreeLanguage :=
  node .header (node .headerEntity text * blank * headerValue e * lineEnd)

/-- One line among the headers. -/
def headerLine : TreeLanguage :=
  comment + header e + rejected e * lineEnd

/-! ### Bodies -/

/-- A blank line. -/
def blankLine : TreeLanguage :=
  blank * lineEnd

/-- Lines of text. -/
def lines : TreeLanguage :=
  (opt text * lineEnd)∗

/-- A body of lines of text. -/
def textBody (k : Kind) : TreeLanguage :=
  node k lines

/-- The end of a line on which a path stands. -/
def pathEnd : TreeLanguage :=
  blank * rest e * lineEnd

/-- The name of a file. -/
def external : TreeLanguage :=
  leaf .angleOpen * opt (leaf .at) * blank * path e

/-- A body that stands in a file. -/
def externalBody : TreeLanguage :=
  node .externalBody (external e) * pathEnd e

/-- A part of a multipart body that stands in a file. -/
def multipartExternal : TreeLanguage :=
  node .multipartExternalBody (external e * pathEnd e)

/-- A boundary line in front of a part, with the form of its text. -/
def openBoundary (k : Kind) (L : TreeLanguage) : TreeLanguage :=
  node k (leaf .doubleDash * L * (blank * rest e * lineEnd))

/-- The first boundary line. -/
def firstBoundary : TreeLanguage :=
  openBoundary e .multipartBoundaryFirst (part e .boundaryValue)

/-- A boundary line between two parts, which may be bare hyphens. -/
def innerBoundary : TreeLanguage :=
  openBoundary e .multipartBoundary (opt (part e .boundaryValue))

/-- The last boundary line. -/
def lastBoundary : TreeLanguage :=
  node .multipartBoundaryLast
    (leaf .doubleDash * part e .boundaryValue * leaf .doubleDash * (blank * rest e * lineEnd))

/-- A line of a part. -/
def multipartContent : TreeLanguage :=
  node .multipartContentLine (opt text * lineEnd)

/-- A line of a multipart body. -/
def multipartLine : TreeLanguage :=
  blankLine + innerBoundary e + multipartExternal e + header e + multipartContent

/-- A multipart body. -/
def multipart : TreeLanguage :=
  node .multipartFormData
    (firstBoundary e * (multipartLine e)∗ * (lastBoundary e + lapse e))

/-- The equals sign of a form parameter and its value. -/
def formValue : TreeLanguage :=
  operator .equals * blank * opt (part e .formParamValue)

/-- A form parameter with a name. -/
def namedParam : TreeLanguage :=
  node .formParam (part e .formParamName * blank * opt (formValue e))

/-- A form parameter with a name and a value. -/
def valuedParam : TreeLanguage :=
  node .formParam (part e .formParamName * blank * formValue e)

lemma valuedParam_le : valuedParam e ≤ namedParam e :=
  node_mono (mul_le_mul_right (fun _ h => Or.inr h) _)

/-- A form parameter without a name, which has an equals sign. -/
def namelessParam : TreeLanguage :=
  node .formParam (blank * formValue e)

/-- A form parameter. -/
def formParam : TreeLanguage :=
  namedParam e + namelessParam e

/-- The parameters of a form from some ampersand on. -/
def formParams : TreeLanguage :=
  (opt (formParam e) * operator .ampersand * lineEnd)∗ * opt (formParam e)

/-- A form body, the first parameter of which has a name. -/
def formBody : TreeLanguage :=
  node .formUrlencodedBody
    (namedParam e * opt (operator .ampersand * lineEnd * formParams e)
      * (blank * rest e * lineEnd))

/-- A form body, the first parameter of which has some form. -/
def formBodyFrom (L : TreeLanguage) : TreeLanguage :=
  node .formUrlencodedBody
    (L * opt (operator .ampersand * lineEnd * formParams e) * (blank * rest e * lineEnd))

/-- A GraphQL body. -/
def graphqlBody : TreeLanguage :=
  node .graphqlBody
    (textBody .graphqlData * opt (blankLine∗ * textBody .jsonBody)
      * opt (blankLine∗ * externalBody e))

/-- A script to run on the response. -/
def responseHandler : TreeLanguage :=
  scriptLine e .resHandlerScript .angleClose (scriptOrPath e)

/-- A file to write the response to. -/
def responseRedirect : TreeLanguage :=
  scriptLine e .resRedirect .redirectMarker (path e)

/-- What begins on a line of a body section. -/
def bodyItem : TreeLanguage :=
  blankLine + comment + responseHandler e + responseRedirect e + multipart e + externalBody e
    + textBody .xmlBody + textBody .jsonBody + graphqlBody e + formBody e + textBody .rawBody

/-! ### Sections -/

/-- The headers of a request or a response, and its bodies. -/
def message : TreeLanguage :=
  (headerLine e)∗ * (bodyItem e)∗

/-- A request. -/
def request : TreeLanguage :=
  node .request (requestLine e * message e)

/-- A response. -/
def response : TreeLanguage :=
  node .response (responseLine e * message e)

/-- A section. -/
def fullSection : TreeLanguage :=
  node .section
    (opt (separator e) * ((preambleLine e)∗ * opt (blank * (request e + response e))))

/-- The sections of a document. -/
def sections : TreeLanguage :=
  (fullSection e)∗

/-- A document. -/
def document : TreeLanguage :=
  node .document (sections e)

end Form

end RequestFile
