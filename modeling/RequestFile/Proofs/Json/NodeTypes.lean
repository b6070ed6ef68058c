import Mathlib.Tactic
import RequestFile.NodeType.Text
import RequestFile.Proofs.Json.Shapes
import RequestFile.Proofs.NodeTable

/-!
Node types that are written and read again.

* **Parts.** The readers of type names, slots and maps of slots find what was written for one
  (`NodeName.decodes_members`, `Slot.decodes_toJson`, `NodeType.decodes_fields`).
* **Node types.** Of a node type four members may be absent. Each of them leaves the draft of its
  reader as it was, which is then what the node type has (`NodeType.decodes_toJson`).
* **Round trip.** Reading gives back the list that was written, in either form
  (`NodeType.readList_writeList`).
-/

namespace RequestFile

open Json (Reader)
open Json.Reader (Fills Handles gap_nil decodes_string decodes_bool decodes_array_map decodes_object
  decodes_record)

/-! ### Type names and slots -/

lemma NodeName.decodes_members (t : NodeName) : NodeName.reader.Decodes (.obj t.members) t := by
  have hkeys : (t.members.map Prod.fst).Nodup := by
    change ["type", "named"].Nodup
    decide
  refine decodes_record (e := ⟨some t.name, some t.named⟩) ?_ hkeys rfl
  refine .cons rfl ((decodes_string t.name).map _) ?_
  exact .cons rfl ((decodes_bool t.named).map _) (.nil _)

lemma Slot.decodes_toJson (s : Slot NodeName) : Slot.reader.Decodes s.toJson s := by
  have htypes := decodes_array_map NodeName.decodes_members s.types
  have hkeys : ["multiple", "required", "types"].Nodup := by decide
  refine decodes_record (e := ⟨some s.multiple, some s.required, some s.types⟩) ?_ hkeys rfl
  refine .cons rfl ((decodes_bool s.multiple).map _) ?_
  refine .cons rfl ((decodes_bool s.required).map _) ?_
  exact .cons rfl (htypes.map _) (.nil _)

/-! ### Node types -/

lemma FieldMap.eq_empty {α : Type} {m : FieldMap α} (h : m.isEmpty) : m = ∅ := by
  obtain ⟨es, hes⟩ := m
  obtain rfl : es = [] := List.isEmpty_iff.mp h
  rfl

namespace NodeType

/-- Entries of a map are inserted one after the other. -/
lemma handles_entries (m : FieldMap (Slot NodeName)) (es : List (String × Slot NodeName)) :
    Handles (fun m key => do return m.insert key (← Reader.memberValue Slot.reader)) m
      (es.map fun e => (e.1, e.2.toJson)) (es.foldl (fun m e => m.insert e.1 e.2) m) := by
  induction es generalizing m with
  | nil => exact .nil m
  | cons e es ih => exact .cons (e.2.decodes_toJson.memberValue.map fun s => m.insert e.1 s) (ih _)

lemma decodes_fields (m : FieldMap (Slot NodeName)) :
    fieldsReader.Decodes (.obj (m.entries.map fun e => (e.1, e.2.toJson))) m := by
  have hentries := decodes_object (handles_entries ∅ m.entries)
  rwa [← FieldMap.ofList, FieldMap.ofList_entries] at hentries

/-- The keys of a node type all differ, whichever of them are absent. -/
lemma nodup_keys (t : NodeType) {ms : List (String × Json)} (h : t.toJson = .obj ms) :
    (ms.map Prod.fst).Nodup := by
  obtain rfl := Json.obj.inj h
  have hall : (["type", "named"] ++ ["root"] ++ ["extra"] ++ ["fields"] ++ ["children"]).Nodup := by
    decide
  refine hall.sublist ?_
  simp only [List.map_append]
  refine ((((List.Sublist.refl _).append ?root).append ?extra).append ?fields).append ?children
  case root => cases t.root <;> simp
  case extra => cases t.extra <;> simp
  case fields => cases t.fields.isEmpty <;> simp
  case children => cases t.children <;> simp

lemma decodes_toJson (t : NodeType) : reader.Decodes t.toJson t := by
  let name : NodeName.Draft := ⟨some t.name, some t.named⟩
  -- The drafts are those behind each part, from the last part to the first.
  refine decodes_record (e := ⟨name, t.root, t.extra, t.fields, t.children⟩)
    (.append (e := ⟨name, t.root, t.extra, t.fields, none⟩)
      (.append (e := ⟨name, t.root, t.extra, ∅, none⟩)
        (.append (e := ⟨name, t.root, false, ∅, none⟩)
          (.append (e := ⟨name, false, false, ∅, none⟩) ?name ?root) ?extra) ?fields) ?children)
    (t.nodup_keys rfl) rfl
  case name =>
    refine .cons rfl ((decodes_string t.name).map _) ?_
    exact .cons rfl ((decodes_bool t.named).map _) (.nil _)
  case root =>
    cases t.root with
    | true => exact .cons rfl ((decodes_bool true).map _) (.nil _)
    | false => exact .nil _
  case extra =>
    cases t.extra with
    | true => exact .cons rfl ((decodes_bool true).map _) (.nil _)
    | false => exact .nil _
  case fields =>
    split
    · next h =>
        rw [FieldMap.eq_empty h]
        exact .nil _
    · exact .cons rfl ((decodes_fields t.fields).map _) (.nil _)
  case children =>
    cases t.children with
    | none => exact .nil _
    | some s => exact .cons rfl (s.decodes_toJson.optional.map _) (.nil _)

/-- **Round trip.** A list of node types is read from the text that is written for it, in either form.
-/
theorem readList_writeList (spread : Bool) (ts : List NodeType) :
    readList (writeList spread ts) = .ok ts := by
  have htypes : (Reader.array reader).Decodes (listToJson ts) ts :=
    decodes_array_map decodes_toJson ts
  have htext : ∃ l, (writeList spread ts).toList = (listToJson ts).textIn l := by
    cases spread with
    | true => exact ⟨.lines 0, rfl⟩
    | false => exact ⟨.line, rfl⟩
  obtain ⟨l, hl⟩ := htext
  have hread := htypes l [] gap_nil []
  rw [List.nil_append, List.append_nil, ← hl] at hread
  rw [readList, Json.readText, hread]
  rfl

end NodeType

end RequestFile
