import Mathlib.Tactic
import RequestFile.Proofs.Grammar
import RequestFile.Proofs.NodeTable

/-!
What a language says of its grammar.

The table of a language is built from node types and skips whatever has no id. In a sound grammar
everything has one, so nothing is skipped.

* **Ids.** An id belongs to one name (`Grammar.idOf?_inj`, `Grammar.fieldId?_inj`), so no rule takes
  the place of another (`Grammar.get?_build_of_mem`).
* **Rules.** `Language.Shows l d r`: what the language says at the id `d` is what the rule `r` says.
* **Nothing is lost.** `Language.ofGrammar_represents`: every rule is shown at its id, nothing is
  said of other ids, and the root is that of the last rule for one.
-/

namespace RequestFile

/-! ### Ids -/

namespace Grammar

variable {g : Grammar}

lemma idOf?_inj {s t : NodeName} {id : Nat} (hs : g.idOf? s = some id) (ht : g.idOf? t = some id) :
    s = t := by
  obtain ⟨_, hs, -⟩ := List.findIdx?_eq_some_iff_getElem.mp hs
  obtain ⟨_, ht, -⟩ := List.findIdx?_eq_some_iff_getElem.mp ht
  exact (beq_iff_eq.mp hs).symm.trans (beq_iff_eq.mp ht)

/-- The id of a field is one more than its place. -/
lemma getElem?_of_fieldId? {field : String} {id : Nat} (h : g.fieldId? field = some id) :
    ∃ i, id = i + 1 ∧ g.fields[i]? = some field := by
  obtain ⟨i, hi, rfl⟩ := Option.map_eq_some_iff.mp h
  obtain ⟨hlt, heq, -⟩ := List.idxOf?_eq_some_iff.mp hi
  exact ⟨i, rfl, by rw [List.getElem?_eq_getElem hlt, heq]⟩

lemma fieldId?_inj {a b : String} {id : Nat} (ha : g.fieldId? a = some id)
    (hb : g.fieldId? b = some id) : a = b := by
  obtain ⟨i, rfl, ha'⟩ := getElem?_of_fieldId? ha
  obtain ⟨j, hij, hb'⟩ := getElem?_of_fieldId? hb
  obtain rfl : i = j := Nat.succ.inj hij
  exact Option.some.inj (ha'.symm.trans hb')

/-- Where no field is declared twice, a field at a place has the id of the place. -/
lemma fieldId?_getElem (h : g.fields.Nodup) {i : Nat} {field : String}
    (hi : g.fields[i]? = some field) : g.fieldId? field = some (i + 1) := by
  obtain ⟨hlt, rfl⟩ := List.getElem?_eq_some_iff.mp hi
  rw [fieldId?, List.idxOf?_eq_some_iff.mpr ⟨hlt, rfl, fun j hj heq => ?_⟩, Option.map_some]
  exact hj.ne ((List.Nodup.getElem_inj_iff h).mp heq)

/-! ### The table of a grammar -/

/-- At the id of a rule stands what the rule says. -/
lemma get?_build_of_mem (hg : g.Sound) {r : NodeRule} (hr : r ∈ g.rules) {d : Nat}
    (hd : g.idOf? r.toNodeName = some d) :
    (NodeTable.build g.naming g.nodeTypes).get? d = some (g.naming.entry r.toNodeType) := by
  have hmem : r.toNodeType ∈ g.nodeTypes.filter fun t => g.naming.type? t.toNodeName = some d :=
    List.mem_filter.mpr ⟨List.mem_map_of_mem hr, decide_eq_true hd⟩
  obtain ⟨t, ht⟩ := Option.isSome_iff_exists.mp
    (List.getLast?_isSome.mpr (List.ne_nil_of_mem hmem))
  obtain ⟨htmem, htd⟩ := List.mem_filter.mp (List.mem_of_getLast? ht)
  obtain ⟨r', hr', rfl⟩ := List.mem_map.mp htmem
  have hname : r'.toNodeName = r.toNodeName := idOf?_inj (of_decide_eq_true htd) hd
  obtain rfl : r' = r := List.inj_on_of_nodup_map hg.ruleNames hr' hr hname
  rw [NodeTable.get?_build, ht, Option.map_some]

/-- At other ids stands nothing. -/
lemma get?_build_eq_none {d : Nat} (h : ∀ r ∈ g.rules, g.idOf? r.toNodeName ≠ some d) :
    (NodeTable.build g.naming g.nodeTypes).get? d = none := by
  have hnil : (g.nodeTypes.filter fun t => g.naming.type? t.toNodeName = some d) = [] := by
    rw [List.filter_eq_nil_iff, nodeTypes, List.forall_mem_map]
    exact fun r hr hd => h r hr (of_decide_eq_true hd)
  rw [NodeTable.get?_build, hnil, List.getLast?_nil, Option.map_none]

/-- The slot at the id of a field is that of the last listing of the field. -/
lemma field?_entry_of_id (r : NodeRule) {name : String} {f : Nat} (h : g.fieldId? name = some f) :
    (g.naming.entry r.toNodeType).field? f = (r.fields.reverse.lookup name).map g.naming.slot := by
  have hsame : ∀ e : String, (some f == g.fieldId? e) = (name == e) := by
    intro e
    rw [Bool.eq_iff_iff, beq_iff_eq, beq_iff_eq]
    constructor
    · exact fun he => fieldId?_inj h he.symm
    · rintro rfl
      exact h.symm
  rw [Naming.field?_entry, ← FieldMap.lookup_ofList, List.lookup_eq_findSome?]
  simp only [naming, hsame]
  rfl

lemma isSome_field?_entry {r : NodeRule} {f : Nat} :
    ((g.naming.entry r.toNodeType).field? f).isSome ↔
      ∃ e ∈ r.fields, g.fieldId? e.1 = some f := by
  constructor
  · intro h
    rw [Naming.field?_entry, Option.isSome_map] at h
    obtain ⟨s, hs⟩ := Option.isSome_iff_exists.mp h
    obtain ⟨e, he, heq⟩ := List.exists_of_findSome?_eq_some hs
    have hid : g.fieldId? e.1 = some f := by
      by_contra hne
      have hnone : (some f == g.naming.field? e.1) = false := beq_eq_false_iff_ne.mpr (Ne.symm hne)
      rw [hnone, if_neg Bool.false_ne_true] at heq
      exact Option.some_ne_none s heq.symm
    obtain ⟨e', he', heq'⟩ := List.mem_map.mp
      (FieldMap.mem_map_fst_ofList.mp (List.mem_map_of_mem he))
    exact ⟨e', he', by rw [heq', hid]⟩
  · rintro ⟨e, he, hid⟩
    rw [field?_entry_of_id r hid, Option.isSome_map, List.lookup_isSome_iff]
    exact ⟨e, List.mem_reverse.mpr he, beq_self_eq_true e.1⟩

/-- Nothing is lost of a slot with declared types. -/
lemma map_some_slot {s : Slot NodeName} (h : ∀ t ∈ s.types, t ∈ g.kindNames) :
    (g.naming.slot s).map some = s.map g.idOf? :=
  Slot.map_some_filterMap fun t ht => isSome_idOf?_iff.mpr (h t ht)

/-- Nothing is lost of a slot that may be absent. -/
lemma map_slot {s? : Option (Slot NodeName)} (h : ∀ s ∈ s?, ∀ t ∈ s.types, t ∈ g.kindNames) :
    (s?.map g.naming.slot).map (Slot.map some) = s?.map (Slot.map g.idOf?) := by
  cases s? with
  | none => rfl
  | some s => exact congrArg some (map_some_slot (h s rfl))

end Grammar

/-! ### What a language shows -/

namespace Language

/-- What a language says at an id is what a rule says. -/
structure Shows (l : Language) (d : Nat) (r : NodeRule) : Prop where
  hasField : ∀ f, (l.nodes.fieldSlot? d f).isSome ↔ ∃ e ∈ r.fields, l.fieldId? e.1 = some f
  /-- The last listing of a field counts; its types stand in their order. -/
  field : ∀ name f, l.fieldId? name = some f →
    (l.nodes.fieldSlot? d f).map (Slot.map some)
      = (r.fields.reverse.lookup name).map (Slot.map l.idOf?)
  children : (l.nodes.childrenSlot? d).map (Slot.map some) = r.children.map (Slot.map l.idOf?)
  extra : l.nodes.isExtra d = r.extra
  fieldNames : ∀ name, name ∈ l.fieldsOf d ↔ ∃ s, (name, s) ∈ r.fields
  ordered : (l.fieldsOf d).Pairwise fun a b =>
    ∃ i j, l.fieldId? a = some i ∧ l.fieldId? b = some j ∧ i < j

/-- A language as it is made of a sound grammar. -/
structure Made (l : Language) : Prop where
  sound : l.grammar.Sound
  nodes : l.nodes = .build l.grammar.naming l.grammar.nodeTypes

variable {l : Language} {r : NodeRule} {d : Nat}

lemma made_of_ofGrammar {g : Grammar} (h : ofGrammar g = .ok l) : l.grammar = g ∧ l.Made := by
  obtain ⟨hsound, rfl⟩ := Grammar.ofGrammar_eq_ok_iff.mp h
  exact ⟨rfl, hsound, rfl⟩

namespace Made

lemma exists_idOf? (hl : l.Made) (hr : r ∈ l.grammar.rules) :
    ∃ d, l.idOf? r.toNodeName = some d :=
  Option.isSome_iff_exists.mp (Grammar.isSome_idOf?_iff.mpr (hl.sound.rules r hr))

lemma get?_nodes (hl : l.Made) (hr : r ∈ l.grammar.rules) (hd : l.idOf? r.toNodeName = some d) :
    l.nodes.get? d = some (l.grammar.naming.entry r.toNodeType) := by
  rw [hl.nodes]
  exact Grammar.get?_build_of_mem hl.sound hr hd

lemma isExtra_iff (hl : l.Made) :
    l.nodes.isExtra d ↔ ∃ r ∈ l.grammar.rules, r.extra ∧ l.idOf? r.toNodeName = some d := by
  rw [NodeTable.isExtra, hl.nodes, NodeTable.extras_build, List.contains_iff_mem,
    List.mem_filterMap, Grammar.nodeTypes]
  constructor
  · rintro ⟨t, ht, hd⟩
    obtain ⟨ht, hextra⟩ := List.mem_filter.mp ht
    obtain ⟨r, hr, rfl⟩ := List.mem_map.mp ht
    exact ⟨r, hr, hextra, hd⟩
  · rintro ⟨r, hr, hextra, hd⟩
    exact ⟨r.toNodeType, List.mem_filter.mpr ⟨List.mem_map_of_mem hr, hextra⟩, hd⟩

/-- The fields of a rule are listed in the order in which the grammar lists its fields. -/
lemma fieldsOf_eq (hl : l.Made) (hr : r ∈ l.grammar.rules)
    (hd : l.idOf? r.toNodeName = some d) :
    l.fieldsOf d = l.grammar.fields.filter fun name => name ∈ r.fields.map Prod.fst := by
  have hsame : ∀ x ∈ l.grammar.fields.zipIdx 1,
      (if ((l.grammar.naming.entry r.toNodeType).field? x.2).isSome then some x.1 else none)
        = if x.1 ∈ r.fields.map Prod.fst then some x.1 else none := by
    intro x hx
    obtain ⟨hle, hx⟩ := List.mem_zipIdx_iff_le_and_getElem?_sub.mp hx
    have hid := Grammar.fieldId?_getElem hl.sound.fieldNames hx
    rw [Nat.sub_add_cancel hle] at hid
    rw [Grammar.field?_entry_of_id r hid, Option.isSome_map]
    simp only [isSome_lookup_iff, List.map_reverse, List.mem_reverse]
  calc l.fieldsOf d
      = (l.grammar.fields.zipIdx 1).filterMap fun x =>
          if ((l.grammar.naming.entry r.toNodeType).field? x.2).isSome then some x.1 else none := by
        rw [fieldsOf, hl.get?_nodes hr hd]
    _ = ((l.grammar.fields.zipIdx 1).map Prod.fst).filterMap fun name =>
          if name ∈ r.fields.map Prod.fst then some name else none := by
        rw [List.filterMap_congr hsame, List.filterMap_map]
        rfl
    _ = l.grammar.fields.filter fun name => name ∈ r.fields.map Prod.fst := by
        rw [List.zipIdx_map_fst, ← List.filterMap_eq_filter]
        simp only [Option.guard, decide_eq_true_eq]

/-- Fields come in the order of their ids. -/
lemma pairwise_fields (hl : l.Made) :
    l.grammar.fields.Pairwise fun a b =>
      ∃ i j, l.fieldId? a = some i ∧ l.fieldId? b = some j ∧ i < j := by
  rw [List.pairwise_iff_getElem]
  intro i j hi hj hij
  have hid := fun k hk => Grammar.fieldId?_getElem hl.sound.fieldNames
    (List.getElem?_eq_getElem (i := k) hk)
  exact ⟨i + 1, j + 1, hid i hi, hid j hj, Nat.succ_lt_succ hij⟩

lemma shows (hl : l.Made) (hr : r ∈ l.grammar.rules) (hd : l.idOf? r.toNodeName = some d) :
    l.Shows d r := by
  have hentry := hl.get?_nodes hr hd
  have hslot : ∀ f, l.nodes.fieldSlot? d f = (l.grammar.naming.entry r.toNodeType).field? f := by
    intro f
    rw [NodeTable.fieldSlot?, hentry, Option.bind_some]
  have hfields := hl.fieldsOf_eq hr hd
  refine ⟨fun f => ?_, fun name f hid => ?_, ?_, ?_, fun name => ?_, ?_⟩
  · rw [hslot]
    exact Grammar.isSome_field?_entry
  · rw [hslot, Grammar.field?_entry_of_id r hid]
    refine Grammar.map_slot fun s hs => hl.sound.fieldTypes r hr (name, s) ?_
    obtain ⟨front, back, heq, -⟩ := List.lookup_eq_some_iff.mp hs
    rw [← List.mem_reverse, heq]
    exact List.mem_append_right front List.mem_cons_self
  · rw [NodeTable.childrenSlot?, hentry, Option.bind_some]
    exact Grammar.map_slot (hl.sound.childTypes r hr)
  · rw [Bool.eq_iff_iff, hl.isExtra_iff]
    constructor
    · rintro ⟨r', hr', hextra, hd'⟩
      obtain rfl : r' = r :=
        List.inj_on_of_nodup_map hl.sound.ruleNames hr' hr (Grammar.idOf?_inj hd' hd)
      exact hextra
    · exact fun hextra => ⟨r, hr, hextra, hd⟩
  · rw [hfields, List.mem_filter, decide_eq_true_iff, List.mem_map]
    constructor
    · rintro ⟨-, e, he, rfl⟩
      exact ⟨e.2, he⟩
    · rintro ⟨s, hs⟩
      exact ⟨hl.sound.ruleFields r hr (name, s) hs, (name, s), hs, rfl⟩
  · rw [hfields]
    exact hl.pairwise_fields.filter _

/-- At an id that no rule has stands nothing. -/
lemma nothing_of_forall_ne (hl : l.Made)
    (h : ∀ r ∈ l.grammar.rules, l.idOf? r.toNodeName ≠ some d) :
    (∀ f, l.nodes.fieldSlot? d f = none) ∧ l.nodes.childrenSlot? d = none ∧ l.fieldsOf d = [] := by
  have hnone : l.nodes.get? d = none := by
    rw [hl.nodes]
    exact Grammar.get?_build_eq_none h
  refine ⟨fun f => ?_, ?_, ?_⟩
  · rw [NodeTable.fieldSlot?, hnone, Option.bind_none]
  · rw [NodeTable.childrenSlot?, hnone, Option.bind_none]
  · rw [fieldsOf, hnone]

/-- Some rule is the last one for a root. -/
lemma exists_last_root (hl : l.Made) :
    ∃ front r back, l.grammar.rules = front ++ r :: back ∧ r.root ∧ ∀ e ∈ back, ¬e.root := by
  obtain ⟨r, hr, hroot⟩ := hl.sound.root
  obtain ⟨last, hlast⟩ := Option.isSome_iff_exists.mp
    (List.find?_isSome.mpr ⟨r, List.mem_reverse.mpr hr, hroot⟩)
  obtain ⟨hroot, back, front, heq, hback⟩ := List.find?_eq_some_iff_append.mp hlast
  refine ⟨front.reverse, last, back.reverse, ?_, hroot, fun e he => ?_⟩
  · rw [← List.reverse_reverse l.grammar.rules, heq, List.reverse_append, List.reverse_cons,
      List.append_assoc, List.singleton_append]
  · simpa using hback e (List.mem_reverse.mp he)

/-- The root is the id of the last rule for one. -/
lemma root_eq (hl : l.Made) {front back : List NodeRule}
    (heq : l.grammar.rules = front ++ r :: back) (hroot : r.root)
    (hback : ∀ e ∈ back, ¬e.root) (hd : l.idOf? r.toNodeName = some d) :
    l.nodes.root = some d := by
  have hnil : (back.map NodeRule.toNodeType).filter NodeType.root = [] := by
    rw [List.filter_eq_nil_iff, List.forall_mem_map]
    exact hback
  have hlast : r.toNodeType.root := hroot
  have hid : l.grammar.naming.type? r.toNodeType.toNodeName = some d := hd
  rw [hl.nodes, NodeTable.root_build, Grammar.nodeTypes, heq, List.map_append, List.map_cons,
    List.filter_append, List.filter_cons_of_pos hlast, hnil, List.filterMap_append]
  simp [hid]

end Made

/-- **Nothing of a grammar is lost.** A language shows every rule of its grammar at the id of the
rule. It says nothing of ids without a rule, holds just the rules for extras as extras, and its root
is the id of the last rule for one. -/
theorem ofGrammar_represents {g : Grammar} (h : ofGrammar g = .ok l) :
    (∀ r ∈ g.rules, ∃ d, l.idOf? r.toNodeName = some d ∧ l.Shows d r) ∧
      (∀ d, (∀ r ∈ g.rules, l.idOf? r.toNodeName ≠ some d) →
        (∀ f, l.nodes.fieldSlot? d f = none) ∧ l.nodes.childrenSlot? d = none ∧
          l.fieldsOf d = []) ∧
      (∀ d, l.nodes.isExtra d ↔ ∃ r ∈ g.rules, r.extra ∧ l.idOf? r.toNodeName = some d) ∧
      ∃ front r back, g.rules = front ++ r :: back ∧ r.root ∧ (∀ e ∈ back, ¬e.root) ∧
        ∃ d, l.idOf? r.toNodeName = some d ∧ l.nodes.root = some d := by
  obtain ⟨rfl, hl⟩ := made_of_ofGrammar h
  refine ⟨fun r hr => ?_, fun d => hl.nothing_of_forall_ne, fun d => hl.isExtra_iff, ?_⟩
  · obtain ⟨d, hd⟩ := hl.exists_idOf? hr
    exact ⟨d, hd, hl.shows hr hd⟩
  · obtain ⟨front, r, back, heq, hroot, hback⟩ := hl.exists_last_root
    obtain ⟨d, hd⟩ := hl.exists_idOf? (r := r) (by simp [heq])
    exact ⟨front, r, back, heq, hroot, hback, d, hd, hl.root_eq heq hroot hback hd⟩

/-- Lists of letters: a kind without a rule, a field that a rule lists twice, and two roots. -/
def letters : Grammar where
  name := "letters"
  version := 14
  kinds := [.hidden "end", .ofKind "list" .document, .anonymous "a", .anonymous ","]
  fields := ["first", "rest"]
  rules :=
    [{ name := "a", named := false, root := true },
     { name := "list", named := true, root := true
       fields := [("rest", .exactlyOne [⟨"a", false⟩]), ("first", .exactlyOne [⟨"a", false⟩]),
         ("rest", .anyNumber [⟨"list", true⟩, ⟨"a", false⟩])]
       children := some (.anyNumber [⟨",", false⟩]) },
     { name := ",", named := false, extra := true }]

lemma sound_letters : letters.Sound where
  version := by decide
  kinds := by decide
  kindCount := by decide
  fieldCount := by decide
  kindNames := by decide
  fieldNames := by decide
  rules := by decide
  ruleNames := by decide
  ruleFields := by decide
  fieldTypes := by decide
  childTypes := by decide
  root := by decide

/-- The language of lists shows them, and its root is the second kind. -/
theorem ofGrammar_represents_letters :
    ∃ l, ofGrammar letters = .ok l ∧
      (∀ r ∈ letters.rules, ∃ d, l.idOf? r.toNodeName = some d ∧ l.Shows d r) ∧
      l.nodes.root = some 1 ∧ l.nodes.isExtra 3 ∧ l.nodes.fieldSlot? 0 1 = none := by
  have hok := Grammar.ofGrammar_eq_ok_iff.mpr ⟨sound_letters, rfl⟩
  obtain ⟨hshows, hnothing, hextra, -⟩ := ofGrammar_represents hok
  refine ⟨_, hok, hshows, by decide, (hextra 3).mpr (by decide), (hnothing 0 (by decide)).1 1⟩

end Language

end RequestFile
