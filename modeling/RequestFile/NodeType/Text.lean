import RequestFile.NodeType
import RequestFile.Json.Shape
import RequestFile.Json.Value

/-!
Node types as JSON.

`NodeType.listToJson` writes a list of node types and `NodeType.readList` reads one. What is absent,
false or empty by default is not written.
-/

namespace RequestFile

open Json (Reader)

namespace NodeName

/-- The members of the JSON form of a type name. -/
def members (t : NodeName) : List (String × Json) :=
  [("type", .str t.name), ("named", .bool t.named)]

/-- The fields of a type name as they are read. -/
structure Draft where
  name : Option String := none
  named : Option Bool := none

/-- A type name that is read. -/
def reader : Reader NodeName :=
  Reader.record
    [⟨"type", fun d : Draft => do return { d with name := some (← Reader.string) }⟩,
     ⟨"named", fun d => do return { d with named := some (← Reader.bool) }⟩]
    {}
    fun d => do return ⟨← d.name, ← d.named⟩

end NodeName

namespace Slot

/-- The JSON form of a slot. -/
def toJson (s : Slot NodeName) : Json :=
  .obj [("multiple", .bool s.multiple), ("required", .bool s.required),
    ("types", .arr (s.types.map fun t => .obj t.members))]

/-- The fields of a slot as they are read. -/
structure Draft where
  multiple : Option Bool := none
  required : Option Bool := none
  types : Option (List NodeName) := none

/-- A slot that is read. -/
def reader : Reader (Slot NodeName) :=
  Reader.record
    [⟨"multiple", fun d : Draft => do return { d with multiple := some (← Reader.bool) }⟩,
     ⟨"required", fun d => do return { d with required := some (← Reader.bool) }⟩,
     ⟨"types", fun d => do return { d with types := some (← Reader.array NodeName.reader) }⟩]
    {}
    fun d => do return ⟨⟨← d.multiple, ← d.required⟩, ← d.types⟩

end Slot

namespace NodeType

/-- The JSON form of a node type. -/
def toJson (t : NodeType) : Json :=
  .obj (t.members
    ++ (if t.root then [("root", .bool true)] else [])
    ++ (if t.extra then [("extra", .bool true)] else [])
    ++ (if t.fields.isEmpty then []
        else [("fields", .obj (t.fields.entries.map fun e => (e.1, e.2.toJson)))])
    ++ (t.children.map fun s => ("children", s.toJson)).toList)

/-- The fields of a node type as they are read. -/
structure Draft extends NodeName.Draft where
  root : Bool := false
  extra : Bool := false
  fields : FieldMap (Slot NodeName) := ∅
  children : Option (Slot NodeName) := none

/-- The fields of a node type, of which a later one of a name replaces the slot of an earlier one. -/
def fieldsReader : Reader (FieldMap (Slot NodeName)) :=
  Reader.object
    (fun m key => do return m.insert key (← Reader.memberValue Slot.reader))
    ∅

/-- A node type that is read. -/
def reader : Reader NodeType :=
  Reader.record
    [⟨"type", fun d : Draft => do return { d with name := some (← Reader.string) }⟩,
     ⟨"named", fun d => do return { d with named := some (← Reader.bool) }⟩,
     ⟨"root", fun d => do return { d with root := ← Reader.bool }⟩,
     ⟨"extra", fun d => do return { d with extra := ← Reader.bool }⟩,
     ⟨"fields", fun d => do return { d with fields := ← fieldsReader }⟩,
     ⟨"children", fun d => do return { d with children := ← Reader.optional Slot.reader }⟩]
    {}
    fun d => do return ⟨⟨← d.name, ← d.named⟩, d.root, d.extra, d.fields, d.children⟩

/-- The JSON form of a list of node types. -/
def listToJson (ts : List NodeType) : Json :=
  .arr (ts.map toJson)

/-- The text of a list of node types, over lines or without spaces. -/
def writeList (spread : Bool) (ts : List NodeType) : String :=
  (listToJson ts).toText spread

/-- The list of node types that a text holds. -/
def readList (text : String) : Except Json.Fault (List NodeType) :=
  Json.readText (Reader.array reader) text

end NodeType

end RequestFile
