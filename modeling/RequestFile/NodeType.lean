/-!
Node types.

A node type says what a node of a tree may hold: fields, each with a name and a slot, and children
outside of fields. A slot says how many nodes it takes and of which types.

* `NodeName`: a type by its name; the named and the anonymous type of one name are two types.
* `Slot`: how many nodes, of which types. The types are names in a description and ids in a table.
* `FieldMap`: slots by field name, in order of first insertion; the last slot of a name counts.
-/

namespace RequestFile

/-- The name of a node type. -/
structure NodeName where
  name : String
  named : Bool
deriving DecidableEq, Hashable, Repr

/-- How many nodes a slot takes. -/
structure Cardinality where
  /-- More than one is allowed. -/
  multiple : Bool
  /-- At least one is needed. -/
  required : Bool
deriving DecidableEq, Repr

/-- A place for nodes of some types. -/
structure Slot (α : Type) extends Cardinality where
  types : List α
deriving DecidableEq, Repr

namespace Slot

/-- A slot whose types are renamed; those without a new name are left out. -/
def filterMap (f : α → Option β) (s : Slot α) : Slot β :=
  ⟨s.toCardinality, s.types.filterMap f⟩

/-- Exactly one node. -/
def exactlyOne (types : List α) : Slot α :=
  ⟨⟨false, true⟩, types⟩

/-- At most one node. -/
def atMostOne (types : List α) : Slot α :=
  ⟨⟨false, false⟩, types⟩

/-- Any number of nodes. -/
def anyNumber (types : List α) : Slot α :=
  ⟨⟨true, false⟩, types⟩

/-- At least one node. -/
def atLeastOne (types : List α) : Slot α :=
  ⟨⟨true, true⟩, types⟩

end Slot

/-- Values by name, in order of first insertion. -/
structure FieldMap (α : Type) where
  entries : List (String × α)
  /-- A name has one value. -/
  nodup : (entries.map Prod.fst).Nodup
deriving DecidableEq, Repr

namespace FieldMap

/-- The map without names. -/
def empty : FieldMap α :=
  ⟨[], List.nodup_nil⟩

instance : EmptyCollection (FieldMap α) :=
  ⟨empty⟩

/-- Entries with the value of a name replaced, or with a new entry at the end. -/
def put (name : String) (value : α) : List (String × α) → List (String × α)
  | [] => [(name, value)]
  | e :: es => if e.1 = name then (name, value) :: es else e :: put name value es

theorem map_fst_put (name : String) (value : α) (es : List (String × α)) :
    (put name value es).map Prod.fst
      = if name ∈ es.map Prod.fst then es.map Prod.fst else es.map Prod.fst ++ [name] := by
  induction es with
  | nil => simp [put]
  | cons e es ih =>
    by_cases h : e.1 = name
    · simp [put, h]
    · have h' : name ≠ e.1 := fun h' => h h'.symm
      simp only [put, h, if_false, List.map_cons, ih, List.mem_cons, h', false_or]
      split <;> rfl

/-- The map with a value for a name: in the place of the one it had, or at the end. -/
def insert (m : FieldMap α) (name : String) (value : α) : FieldMap α where
  entries := put name value m.entries
  nodup := by
    rw [map_fst_put]
    split
    · exact m.nodup
    · next h =>
      rw [List.nodup_append]
      refine ⟨m.nodup, List.nodup_cons.2 ⟨List.not_mem_nil, List.nodup_nil⟩, ?_⟩
      intro a ha b hb hab
      rw [List.mem_singleton] at hb
      exact h (hb ▸ hab ▸ ha)

/-- The map of a list of entries, inserted from the left. -/
def ofList (es : List (String × α)) : FieldMap α :=
  es.foldl (fun m e => m.insert e.1 e.2) ∅

/-- True if there is no name. -/
def isEmpty (m : FieldMap α) : Bool :=
  m.entries.isEmpty

end FieldMap

/-- The description of a node type. -/
structure NodeType extends NodeName where
  /-- Whole trees are of this type. -/
  root : Bool
  /-- Nodes of this type may stand anywhere. -/
  extra : Bool
  fields : FieldMap (Slot NodeName)
  /-- The nodes outside of fields. -/
  children : Option (Slot NodeName)
deriving DecidableEq, Repr

end RequestFile
