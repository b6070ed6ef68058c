import Mathlib.Tactic
import RequestFile.NodeType.Table

/-!
What is found in maps and in tables of node types.

* **Maps by name.** Of a list of entries the last one of a name counts (`FieldMap.lookup_ofList`);
  entries with distinct names are kept as they are (`FieldMap.ofList_entries`).
* **Maps by id.** What is put at an id is found there, and nothing else changes
  (`IdMap.get?_insert`). The ids are those with a value (`IdMap.mem_ids`).
* **Tables.** A table is built type by type, so what it holds is found by adding one type at the end
  (`NodeTable.build_concat`): at an id stands the last type that has it (`NodeTable.get?_build`), the
  extras are those of all types (`NodeTable.extras_build`), the root is the last one
  (`NodeTable.root_build`). `NodeTable.build_tabulates` puts this together.
-/

namespace RequestFile

lemma lookup_cons_ite {κ α : Type} [BEq κ] [LawfulBEq κ] [DecidableEq κ] (key : κ) (e : κ × α)
    (es : List (κ × α)) :
    (e :: es).lookup key = if key = e.1 then some e.2 else es.lookup key := by
  rw [List.lookup_cons]
  split_ifs with h
  · rw [beq_iff_eq.mpr h]
  · rw [beq_eq_false_iff_ne.mpr h]

lemma isSome_lookup_iff {κ α : Type} [BEq κ] [LawfulBEq κ] {key : κ} {es : List (κ × α)} :
    (es.lookup key).isSome ↔ key ∈ es.map Prod.fst := by
  simp only [List.mem_map, List.lookup_isSome_iff, beq_iff_eq]
  exact exists_congr fun e => and_congr_right fun _ => eq_comm

/-! ### Maps by name -/

namespace FieldMap

variable {α : Type} {name : String} {value : α} {es : List (String × α)}

lemma lookup_put (key : String) :
    (put name value es).lookup key = if key = name then some value else es.lookup key := by
  induction es with
  | nil => exact lookup_cons_ite key (name, value) []
  | cons e es ih =>
      rw [put]
      split
      · next he =>
          rw [lookup_cons_ite, lookup_cons_ite, he]
          split_ifs <;> rfl
      · next he =>
          rw [lookup_cons_ite, lookup_cons_ite, ih]
          split_ifs with h h'
          · exact absurd (h.symm.trans h') he
          all_goals rfl

/-- A new name goes to the end. -/
lemma put_of_notMem (h : name ∉ es.map Prod.fst) : put name value es = es ++ [(name, value)] := by
  induction es with
  | nil => rfl
  | cons e es ih =>
      rw [List.map_cons, List.mem_cons, not_or] at h
      rw [put, if_neg (Ne.symm h.1), ih h.2, List.cons_append]

lemma entries_insert (m : FieldMap α) (name : String) (value : α) :
    (m.insert name value).entries = put name value m.entries :=
  rfl

lemma ofList_concat (es : List (String × α)) (e : String × α) :
    ofList (es ++ [e]) = (ofList es).insert e.1 e.2 := by
  rw [ofList, List.foldl_append, List.foldl_cons, List.foldl_nil, ← ofList]

/-- The last entry of a name counts. -/
lemma lookup_ofList (es : List (String × α)) (key : String) :
    (ofList es).entries.lookup key = es.reverse.lookup key := by
  induction es using List.reverseRecOn with
  | nil => rfl
  | append_singleton es e ih =>
      rw [ofList_concat, entries_insert, lookup_put, ih, List.reverse_concat, lookup_cons_ite]

lemma mem_map_fst_ofList : name ∈ (ofList es).entries.map Prod.fst ↔ name ∈ es.map Prod.fst := by
  rw [← isSome_lookup_iff, lookup_ofList, isSome_lookup_iff, List.map_reverse, List.mem_reverse]

lemma entries_ofList (h : (es.map Prod.fst).Nodup) : (ofList es).entries = es := by
  induction es using List.reverseRecOn with
  | nil => rfl
  | append_singleton es e ih =>
      rw [List.map_append, List.nodup_append] at h
      obtain ⟨hes, -, hnew⟩ := h
      rw [ofList_concat, entries_insert, ih hes]
      exact put_of_notMem fun he => hnew _ he _ (List.mem_singleton_self _) rfl

/-- Entries with distinct names are kept as they are. -/
lemma ofList_entries (m : FieldMap α) : ofList m.entries = m := by
  have hentries := entries_ofList m.nodup
  generalize ofList m.entries = m' at hentries
  cases m
  cases m'
  congr

end FieldMap

/-! ### Maps by id -/

namespace IdMap

variable {α : Type} {id : Nat} {value : α} {es : List (Nat × α)}

lemma lookup_put (key : Nat) :
    (put id value es).lookup key = if key = id then some value else es.lookup key := by
  induction es with
  | nil => exact lookup_cons_ite key (id, value) []
  | cons e es ih =>
      rw [put]
      split
      · exact lookup_cons_ite key (id, value) (e :: es)
      · split
        · next he =>
            rw [lookup_cons_ite, lookup_cons_ite, he]
            split_ifs <;> rfl
        · next he =>
            rw [lookup_cons_ite, lookup_cons_ite, ih]
            split_ifs with h h'
            · exact absurd (h.symm.trans h') he
            all_goals rfl

/-- What is put at an id is found there, and nothing else changes. -/
lemma get?_insert (m : IdMap α) (id : Nat) (value : α) (key : Nat) :
    (m.insert id value).get? key = if key = id then some value else m.get? key :=
  lookup_put key

lemma mem_ids {m : IdMap α} : id ∈ m.ids ↔ (m.get? id).isSome :=
  isSome_lookup_iff.symm

lemma isEmpty_iff {m : IdMap α} : m.isEmpty ↔ ∀ id, m.get? id = none := by
  have hids : m.isEmpty ↔ m.ids = [] := by
    rw [isEmpty, List.isEmpty_iff, ids, List.map_eq_nil_iff]
  rw [hids, List.eq_nil_iff_forall_not_mem]
  exact forall_congr' fun id => by rw [mem_ids, Option.not_isSome_iff_eq_none]

end IdMap

/-! ### Slots and entries -/

/-- A slot whose types are renamed. -/
def Slot.map {α β : Type} (f : α → β) (s : Slot α) : Slot β :=
  ⟨s.toCardinality, s.types.map f⟩

lemma map_some_filterMap {α β : Type} {f : α → Option β} {ts : List α}
    (h : ∀ t ∈ ts, (f t).isSome) : (ts.filterMap f).map some = ts.map f := by
  induction ts with
  | nil => rfl
  | cons t ts ih =>
      obtain ⟨ht, hts⟩ := List.forall_mem_cons.mp h
      obtain ⟨u, hu⟩ := Option.isSome_iff_exists.mp ht
      rw [List.filterMap_cons_some hu, List.map_cons, List.map_cons, ih hts, hu]

/-- Nothing is lost of a slot whose types all have new names. -/
lemma Slot.map_some_filterMap {α β : Type} {f : α → Option β} {s : Slot α}
    (h : ∀ t ∈ s.types, (f t).isSome) : (s.filterMap f).map some = s.map f := by
  rw [map, filterMap, RequestFile.map_some_filterMap h, map]

/-- The slot at a field id is that of the first field with the id. -/
lemma Naming.field?_entry (n : Naming) (t : NodeType) (field : Nat) :
    (n.entry t).field? field
      = (t.fields.entries.findSome? fun f =>
          if some field == n.field? f.1 then some f.2 else none).map n.slot := by
  rw [NodeEntry.field?, entry]
  induction t.fields.entries with
  | nil => rfl
  | cons f fs ih =>
      rw [List.findSome?_cons]
      cases hid : n.field? f.1 with
      | none => simpa [hid] using ih
      | some i =>
          rw [List.filterMap_cons_some (by rw [hid]; rfl), lookup_cons_ite]
          by_cases h : field = i
          · simp [h]
          · simpa [h] using ih

/-! ### Tables -/

namespace NodeTable

variable (n : Naming)

lemma build_concat (ts : List NodeType) (t : NodeType) :
    build n (ts ++ [t]) = (build n ts).add n t := by
  rw [build, List.foldl_append, List.foldl_cons, List.foldl_nil, ← build]

/-- At an id stands the last type that has it. -/
lemma get?_build (ts : List NodeType) (id : Nat) :
    (build n ts).get? id
      = (ts.filter fun t => n.type? t.toNodeName = some id).getLast?.map n.entry := by
  induction ts using List.reverseRecOn with
  | nil => rfl
  | append_singleton ts t ih =>
      rw [build_concat, add, List.filter_append]
      cases hid : n.type? t.toNodeName with
      | none => simpa [hid] using ih
      | some i =>
          rw [get?, IdMap.get?_insert, ← get?, ih]
          by_cases h : id = i
          · simp [hid, h]
          · simp [hid, h, Ne.symm h]

/-- The extras of a table are the ids of all extra types, in order. -/
lemma extras_build (ts : List NodeType) :
    (build n ts).extras = (ts.filter NodeType.extra).filterMap fun t => n.type? t.toNodeName := by
  induction ts using List.reverseRecOn with
  | nil => rfl
  | append_singleton ts t ih =>
      rw [build_concat, add, List.filter_append, List.filterMap_append, ← ih]
      cases hid : n.type? t.toNodeName <;> cases hextra : t.extra <;> simp [hid, hextra]

/-- The root of a table is the id of the last root type. -/
lemma root_build (ts : List NodeType) :
    (build n ts).root
      = ((ts.filter NodeType.root).filterMap fun t => n.type? t.toNodeName).getLast? := by
  induction ts using List.reverseRecOn with
  | nil => rfl
  | append_singleton ts t ih =>
      rw [build_concat, add, List.filter_append, List.filterMap_append]
      cases hid : n.type? t.toNodeName <;> cases hroot : t.root <;> simp [hid, hroot, ih]

variable {n} {ts : List NodeType} {id : Nat}

lemma isSome_get?_build :
    ((build n ts).get? id).isSome ↔ ∃ t ∈ ts, n.type? t.toNodeName = some id := by
  rw [get?_build, Option.isSome_map, Option.isSome_iff_ne_none, Ne, List.getLast?_eq_none_iff,
    List.filter_eq_nil_iff]
  simp only [decide_eq_true_eq, not_forall, not_not, exists_prop]

/-- The last type of an id, behind which no other has it. -/
lemma get?_build_of_last {front back : List NodeType} {t : NodeType}
    (ht : n.type? t.toNodeName = some id) (hback : ∀ u ∈ back, n.type? u.toNodeName ≠ some id) :
    (build n (front ++ t :: back)).get? id = some (n.entry t) := by
  have hnone : back.filter (fun u => n.type? u.toNodeName = some id) = [] :=
    List.filter_eq_nil_iff.mpr fun u hu => by simpa using hback u hu
  rw [get?_build, List.filter_append, List.filter_cons_of_pos (by simpa using ht), hnone,
    List.getLast?_concat, Option.map_some]

/-- What a table says of a list of node types, some of whose names have ids. -/
structure Tabulates (n : Naming) (ts : List NodeType) (table : NodeTable) : Prop where
  /-- There is an entry at an id if a type has it. -/
  isSome_get? : ∀ id, (table.get? id).isSome ↔ ∃ t ∈ ts, n.type? t.toNodeName = some id
  /-- The entry is that of the last such type. Fields without an id are left out, and so are types
  without one in the slots; all others stay in order. -/
  get?_last : ∀ front t back id, ts = front ++ t :: back → n.type? t.toNodeName = some id →
    (∀ u ∈ back, n.type? u.toNodeName ≠ some id) → table.get? id = some
      { name := t.name
        named := t.named
        fields := t.fields.entries.filterMap fun f =>
          (n.field? f.1).map fun i => (i, ⟨f.2.toCardinality, f.2.types.filterMap n.type?⟩)
        children := t.children.map fun s => ⟨s.toCardinality, s.types.filterMap n.type?⟩ }
  ids_ascend : table.ids.Pairwise (· < ·)
  mem_ids : ∀ id, id ∈ table.ids ↔ (table.get? id).isSome
  size_eq : table.size = table.ids.length
  isEmpty_iff : table.isEmpty ↔ ∀ id, table.get? id = none
  /-- Extra types count as often as they are listed. -/
  extras_eq : table.extras = (ts.filter NodeType.extra).filterMap fun t => n.type? t.toNodeName
  /-- Of several roots the last one with an id counts. -/
  root_eq : table.root
    = ((ts.filter NodeType.root).filterMap fun t => n.type? t.toNodeName).getLast?

/-- **Tables** say what they should, whatever the types are and whichever names have ids. -/
theorem build_tabulates (n : Naming) (ts : List NodeType) : Tabulates n ts (build n ts) where
  isSome_get? _ := isSome_get?_build
  get?_last front t back id hts ht hback := by
    rw [hts]
    exact get?_build_of_last ht hback
  ids_ascend := (build n ts).entries.ascending
  mem_ids _ := IdMap.mem_ids
  size_eq := (List.length_map ..).symm
  isEmpty_iff := IdMap.isEmpty_iff
  extras_eq := extras_build n ts
  root_eq := root_build n ts

end NodeTable

end RequestFile
