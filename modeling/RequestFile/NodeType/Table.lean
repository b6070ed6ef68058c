import RequestFile.NodeType

/-!
Tables of node types.

A table holds node types by id, with the names in their slots replaced by ids.

* `IdMap`: values by id, in ascending order of ids.
* `NodeTable.build`: the table of a list of node types. A type without an id is left out, as are
  fields and types without one in the others; the last node type of an id counts.
* `NodeTable.fieldSlot?`, `NodeTable.childrenSlot?`: what a node of a type may hold.
-/

namespace RequestFile

/-- Values by id. -/
structure IdMap (α : Type) where
  entries : List (Nat × α)
  /-- Ids ascend. -/
  ascending : (entries.map Prod.fst).Pairwise (· < ·)

namespace IdMap

/-- The map without ids. -/
def empty : IdMap α :=
  ⟨[], List.Pairwise.nil⟩

instance : EmptyCollection (IdMap α) :=
  ⟨empty⟩

/-- Entries with a value at an id, in front of the greater ids. -/
def put (id : Nat) (value : α) : List (Nat × α) → List (Nat × α)
  | [] => [(id, value)]
  | e :: es =>
    if id < e.1 then (id, value) :: e :: es
    else if e.1 = id then (id, value) :: es
    else e :: put id value es

theorem mem_map_fst_put {id : Nat} {value : α} {es : List (Nat × α)} {i : Nat}
    (h : i ∈ (put id value es).map Prod.fst) : i = id ∨ i ∈ es.map Prod.fst := by
  induction es with
  | nil => simpa [put] using h
  | cons e es ih =>
    simp only [put] at h
    split at h
    · simpa using h
    · split at h
      · simp only [List.map_cons, List.mem_cons] at h ⊢
        exact h.imp_right Or.inr
      · simp only [List.map_cons, List.mem_cons] at h ⊢
        rcases h with h | h
        · exact .inr (.inl h)
        · exact (ih h).imp_right Or.inr

theorem pairwise_map_fst_put (id : Nat) (value : α) {es : List (Nat × α)}
    (h : (es.map Prod.fst).Pairwise (· < ·)) :
    ((put id value es).map Prod.fst).Pairwise (· < ·) := by
  induction es with
  | nil => simp [put]
  | cons e es ih =>
    rw [List.map_cons, List.pairwise_cons] at h
    simp only [put]
    split
    · next hlt =>
      rw [List.map_cons, List.pairwise_cons]
      refine ⟨fun i hi => ?_, by rw [List.map_cons, List.pairwise_cons]; exact h⟩
      rw [List.map_cons, List.mem_cons] at hi
      rcases hi with rfl | hi
      · exact hlt
      · exact Nat.lt_trans hlt (h.1 i hi)
    · split
      · next heq =>
        rw [List.map_cons, List.pairwise_cons]
        exact ⟨heq ▸ h.1, h.2⟩
      · next hlt hne =>
        rw [List.map_cons, List.pairwise_cons]
        refine ⟨fun i hi => ?_, ih h.2⟩
        rcases mem_map_fst_put hi with rfl | hi
        · exact Nat.lt_of_le_of_ne (Nat.not_lt.1 hlt) hne
        · exact h.1 i hi

/-- The map with a value at an id. -/
def insert (m : IdMap α) (id : Nat) (value : α) : IdMap α :=
  ⟨put id value m.entries, pairwise_map_fst_put id value m.ascending⟩

/-- The value at an id. -/
def get? (m : IdMap α) (id : Nat) : Option α :=
  m.entries.lookup id

/-- The ids, in ascending order. -/
def ids (m : IdMap α) : List Nat :=
  m.entries.map Prod.fst

/-- The number of ids. -/
def size (m : IdMap α) : Nat :=
  m.entries.length

/-- True if there is no id. -/
def isEmpty (m : IdMap α) : Bool :=
  m.entries.isEmpty

end IdMap

/-- What a table says about one node type. -/
structure NodeEntry extends NodeName where
  /-- Slots by field id, in the order of the description. -/
  fields : List (Nat × Slot Nat)
  children : Option (Slot Nat)
deriving DecidableEq, Repr

/-- The slot of the first field of an id. -/
def NodeEntry.field? (e : NodeEntry) (field : Nat) : Option (Slot Nat) :=
  e.fields.lookup field

/-- Ids for the names of node types and fields. -/
structure Naming where
  type? : NodeName → Option Nat
  field? : String → Option Nat

namespace Naming

/-- A slot by ids. -/
def slot (n : Naming) : Slot NodeName → Slot Nat :=
  Slot.filterMap n.type?

/-- A node type by ids. -/
def entry (n : Naming) (t : NodeType) : NodeEntry where
  toNodeName := t.toNodeName
  fields := t.fields.entries.filterMap fun f => (n.field? f.1).map (·, n.slot f.2)
  children := t.children.map n.slot

end Naming

/-- Node types by id. -/
structure NodeTable where
  entries : IdMap NodeEntry
  /-- The ids of the types that may stand anywhere. -/
  extras : List Nat
  root : Option Nat

namespace NodeTable

/-- The table without node types. -/
def empty : NodeTable :=
  ⟨∅, [], none⟩

/-- A table with one more node type, if it has an id. -/
def add (n : Naming) (table : NodeTable) (t : NodeType) : NodeTable :=
  match n.type? t.toNodeName with
  | none => table
  | some id =>
    { entries := table.entries.insert id (n.entry t)
      extras := if t.extra then table.extras ++ [id] else table.extras
      root := if t.root then some id else table.root }

/-- The table of a list of node types. -/
def build (n : Naming) (ts : List NodeType) : NodeTable :=
  ts.foldl (add n) empty

/-- The entry of an id. -/
def get? (table : NodeTable) (id : Nat) : Option NodeEntry :=
  table.entries.get? id

/-- The ids with an entry, in ascending order. -/
def ids (table : NodeTable) : List Nat :=
  table.entries.ids

/-- The number of entries. -/
def size (table : NodeTable) : Nat :=
  table.entries.size

/-- True if there is no entry. -/
def isEmpty (table : NodeTable) : Bool :=
  table.entries.isEmpty

/-- Nodes of a type may stand anywhere. -/
def isExtra (table : NodeTable) (id : Nat) : Bool :=
  table.extras.contains id

/-- The slot of a field of a type. -/
def fieldSlot? (table : NodeTable) (id field : Nat) : Option (Slot Nat) :=
  (table.get? id).bind (·.field? field)

/-- The slot of the children of a type. -/
def childrenSlot? (table : NodeTable) (id : Nat) : Option (Slot Nat) :=
  (table.get? id).bind (·.children)

/-- A type has a field. -/
def hasField (table : NodeTable) (id field : Nat) : Bool :=
  (table.fieldSlot? id field).isSome

/-- The types that a slot allows; none without a slot. -/
def typesOf (slot : Option (Slot Nat)) : List Nat :=
  (slot.map Slot.types).getD []

/-- The types of the nodes in a field. -/
def fieldTypes (table : NodeTable) (id field : Nat) : List Nat :=
  typesOf (table.fieldSlot? id field)

/-- The types of the children. -/
def childTypes (table : NodeTable) (id : Nat) : List Nat :=
  typesOf (table.childrenSlot? id)

end NodeTable

end RequestFile
