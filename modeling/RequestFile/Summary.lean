import RequestFile.Document
import RequestFile.Json.Value

/-!
Summaries of requests.

`Document.summaries` gives one flat record per section with a request: its name, request line,
headers, kind of body and line. Headers of one name are merged, in order of their first occurrence.
-/

namespace RequestFile

/-- The headers of a request by name, in order of first occurrence. -/
abbrev HeaderMap := List (String × String)

namespace HeaderMap

/-- The headers with one more value: added to that of the same name after a comma, or as a new one
at the end. -/
def add (name value : String) : HeaderMap → HeaderMap
  | [] => [(name, value)]
  | (n, v) :: rest =>
    if n = name then (n, v ++ ", " ++ value) :: rest else (n, v) :: add name value rest

/-- The headers of a list of entries; one without a name is left out. -/
def ofEntries (entries : List Entry) : HeaderMap :=
  entries.foldl
    (fun hs e => match e.name with
      | some name => hs.add name.text e.valueText
      | none => hs)
    []

end HeaderMap

/-- What a request file says about one request. -/
structure Summary where
  name : Option String
  method : String
  url : String
  version : Option String
  headers : HeaderMap
  body : Option String
  /-- The line on which the request begins, from 1. -/
  line : Nat
deriving DecidableEq, Repr

namespace Summary

/-- The method of a request that names none. -/
def defaultMethod : String := "GET"

/-- The summary of a request in a section. An empty name counts as none. -/
def ofRequest (source : String) (s : Section) (r : Request) : Summary where
  name := s.name.filter fun n => !n.isEmpty
  method := r.method.getD defaultMethod
  url := (r.url.map Url.oneLine).getD ""
  version := r.version
  headers := HeaderMap.ofEntries r.headers
  body := r.bodies.head?.map (·.content.name)
  line := lineNumber source r.span.start

/-- The members of the JSON form of a summary; what is absent is left out. -/
def members (s : Summary) : List (String × Json) :=
  (s.name.map fun n => ("name", Json.str n)).toList
    ++ [("method", .str s.method), ("url", .str s.url)]
    ++ (s.version.map fun v => ("version", Json.str v)).toList
    ++ (if s.headers.isEmpty then []
        else [("headers", Json.obj (s.headers.map fun h => (h.1, .str h.2)))])
    ++ (s.body.map fun b => ("body", Json.str b)).toList
    ++ [("line", .num s.line)]

/-- The JSON form of a summary. -/
def toJson (s : Summary) : Json :=
  .obj s.members

end Summary

/-- One summary per section that holds a request. -/
def Document.summaries (d : Document) : List Summary :=
  d.sections.filterMap fun s => s.request.map (Summary.ofRequest d.source s)

/-- The JSON form of the summaries of a document. -/
def Document.summariesJson (d : Document) : Json :=
  .arr (d.summaries.map Summary.toJson)

end RequestFile
