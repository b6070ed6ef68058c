import RequestFile.Proofs.Language

/-!
Names and ids of a language.

* **Numbering.** `Numbers first count id? name?` says that names and the numbers from `first` on
  belong to each other one to one, and that these are numbers of 16 bits. The node kinds of a
  language are numbered from 0, its fields from 1.
* **Syntax.** Several node kinds may be of one kind of syntax. Then the last id counts
  (`Language.idOfKind?_eq_some_iff`).
* `Language.ofGrammar_numbers` puts these together.
-/

namespace RequestFile

/-- Names are numbered one to one by the `count` numbers from `first` on. -/
structure Numbers {α : Type} (first count : Nat) (id? : α → Option Nat) (name? : Nat → Option α) :
    Prop where
  id_name : ∀ id, first ≤ id → id < first + count → ∃ a, name? id = some a ∧ id? a = some id
  name_id : ∀ a id, id? a = some id → name? id = some a
  outside : ∀ id, id < first ∨ first + count ≤ id → name? id = none
  /-- The numbers have 16 bits, and the greatest such number is none of them. -/
  small : first + count ≤ UInt16.size - 1

/-- An id belongs to the name that belongs to it. -/
lemma Numbers.id_iff {α : Type} {first count : Nat} {id? : α → Option Nat}
    {name? : Nat → Option α} (h : Numbers first count id? name?) {a : α} {id : Nat} :
    id? a = some id ↔ name? id = some a := by
  refine ⟨h.name_id a id, fun ha => ?_⟩
  have hin : ¬(id < first ∨ first + count ≤ id) := fun hout =>
    Option.some_ne_none a (ha.symm.trans (h.outside id hout))
  obtain ⟨b, hb, hid⟩ := h.id_name id (by omega) (by omega)
  obtain rfl : a = b := Option.some.inj (ha.symm.trans hb)
  exact hid

/-! ### The last place in a list -/

section LastPlace

variable {α : Type} {p : α → Bool} {i : Nat}

lemma findRev?_zipIdx_concat (ys : List α) (y : α) :
    ((ys ++ [y]).zipIdx.findRev? fun x => p x.1)
      = if p y then some (y, ys.length) else ys.zipIdx.findRev? fun x => p x.1 := by
  rw [List.findRev?_eq_find?_reverse, List.zipIdx_append, List.reverse_append,
    List.zipIdx_singleton, List.reverse_singleton, List.singleton_append, List.find?_cons,
    Nat.zero_add, List.findRev?_eq_find?_reverse]
  cases p y <;> rfl

/-- A last item without the property might as well not be there. -/
lemma any_getElem?_concat {y : α} (hy : p y = false) (ys : List α) (j : Nat) :
    (ys ++ [y])[j]?.any p = ys[j]?.any p := by
  rcases Nat.lt_trichotomy j ys.length with hlt | rfl | hgt
  · rw [List.getElem?_append_left hlt]
  · rw [List.getElem?_concat_length, List.getElem?_eq_none le_rfl, Option.any_some, hy]
    rfl
  · rw [List.getElem?_eq_none hgt.le, List.getElem?_eq_none (by simpa using hgt)]

/-- The last place of an item with a property: the item there has it, and none behind it has. -/
lemma findRev?_zipIdx_eq_some_iff (xs : List α) :
    (xs.zipIdx.findRev? fun x => p x.1).map Prod.snd = some i ↔
      xs[i]?.any p ∧ ∀ j, i < j → xs[j]?.any p = false := by
  -- the search is from the end, and so is the induction
  induction xs using List.reverseRecOn with
  | nil => simp
  | append_singleton ys y ih =>
      rw [findRev?_zipIdx_concat]
      split_ifs with hy
      · have hbehind : ∀ j : Nat, ys.length < j → (ys ++ [y])[j]? = none := by
          intro j hj
          exact List.getElem?_eq_none (by simpa using hj)
        rw [Option.map_some, Option.some_inj]
        constructor
        · rintro rfl
          refine ⟨?_, fun j hj => ?_⟩
          · rw [List.getElem?_concat_length]
            exact hy
          · rw [hbehind j hj]
            rfl
        · rintro ⟨hi, hnone⟩
          rcases Nat.lt_trichotomy ys.length i with hlt | heq | hgt
          · rw [hbehind i hlt] at hi
            cases hi
          · exact heq
          · have hlast := hnone _ hgt
            rw [List.getElem?_concat_length, Option.any_some, hy] at hlast
            cases hlast
      · rw [ih]
        simp only [any_getElem?_concat (eq_false_of_ne_true hy)]

end LastPlace

/-! ### Node kinds and fields -/

namespace Grammar

variable {g : Grammar}

/-- Where no name is declared twice, a kind at a place has the id of the place. -/
lemma idOf?_getElem (h : g.kindNames.Nodup) {i : Nat} {k : NodeKind} (hi : g.kinds[i]? = some k) :
    g.idOf? k.toNodeName = some i := by
  obtain ⟨hlt, rfl⟩ := List.getElem?_eq_some_iff.mp hi
  refine List.findIdx?_eq_some_iff_getElem.mpr ⟨hlt, beq_self_eq_true _, fun j hj heq => ?_⟩
  have hnames : g.kindNames[j]? = g.kindNames[i]? := by
    rw [kindNames, List.getElem?_map, List.getElem?_map, List.getElem?_eq_getElem (hj.trans hlt),
      List.getElem?_eq_getElem hlt, Option.map_some, Option.map_some, beq_iff_eq.mp heq]
  have hlength : j < g.kindNames.length := by
    rw [kindNames, List.length_map]
    exact hj.trans hlt
  exact hj.ne ((List.getElem?_inj hlength h).mp hnames)

lemma numbers_kinds (h : g.kindNames.Nodup) (hcount : g.kinds.length ≤ maxIds) :
    Numbers 0 g.kinds.length g.idOf? fun id => g.kinds[id]?.map NodeKind.toNodeName where
  id_name := by
    intro id _ hlt
    rw [Nat.zero_add] at hlt
    have hkind := List.getElem?_eq_getElem hlt
    exact ⟨_, by rw [hkind, Option.map_some], idOf?_getElem h hkind⟩
  name_id := by
    intro t id hid
    obtain ⟨hlt, heq, -⟩ := List.findIdx?_eq_some_iff_getElem.mp hid
    rw [List.getElem?_eq_getElem hlt, Option.map_some, beq_iff_eq.mp heq]
  outside := by
    intro id hid
    rw [List.getElem?_eq_none (by omega), Option.map_none]
  small := by
    rw [Nat.zero_add]
    exact hcount.trans (by decide)

end Grammar

namespace Language

variable {l : Language}

lemma numbers_fields (h : l.grammar.fields.Nodup)
    (hcount : l.grammar.fields.length ≤ Grammar.maxIds) :
    Numbers 1 l.grammar.fields.length l.fieldId? l.fieldName? where
  id_name := by
    intro id hpos hlt
    obtain ⟨i, rfl⟩ := Nat.exists_eq_add_of_le' hpos
    have hfield := List.getElem?_eq_getElem (show i < l.grammar.fields.length by omega)
    exact ⟨_, hfield, Grammar.fieldId?_getElem h hfield⟩
  name_id := by
    intro name id hid
    obtain ⟨i, rfl, hfield⟩ := Grammar.getElem?_of_fieldId? hid
    exact hfield
  outside := by
    intro id hid
    cases id with
    | zero => rfl
    | succ i => exact List.getElem?_eq_none (by omega)
  small := by
    rw [Nat.add_comm]
    exact Nat.succ_le_succ hcount

/-! ### Syntax -/

/-- The id of a kind of syntax is the last one whose nodes it becomes. -/
lemma idOfKind?_eq_some_iff {k : Kind} {id : Nat} :
    l.idOfKind? k = some id ↔
      (l.kind? id).bind NodeKind.kind = some k ∧
        ∀ j, id < j → (l.kind? j).bind NodeKind.kind ≠ some k := by
  have hany : ∀ j, (l.kind? j).any (fun n => n.kind == some k) = true ↔
      (l.kind? j).bind NodeKind.kind = some k := by
    intro j
    cases l.kind? j <;> simp
  have hlast := findRev?_zipIdx_eq_some_iff (p := fun n => n.kind == some k) (i := id)
    l.grammar.kinds
  refine hlast.trans (and_congr (hany id) (forall₂_congr fun j _ => ?_))
  rw [Ne, ← hany j, Bool.not_eq_true]
  rfl

/-- **Names and ids** of a language belong to each other one to one: of its node kinds, with their
being named, and of its fields. The id of a kind of syntax leads back to it, and no greater id
does. -/
theorem ofGrammar_numbers {g : Grammar} (h : ofGrammar g = .ok l) :
    Numbers 0 g.kinds.length l.idOf? (fun id => (l.kind? id).map NodeKind.toNodeName) ∧
      Numbers 1 g.fields.length l.fieldId? l.fieldName? ∧
      ∀ k id, l.idOfKind? k = some id ↔
        (l.kind? id).bind NodeKind.kind = some k ∧
          ∀ j, id < j → (l.kind? j).bind NodeKind.kind ≠ some k := by
  obtain ⟨rfl, hl⟩ := made_of_ofGrammar h
  exact ⟨Grammar.numbers_kinds hl.sound.kindNames hl.sound.kindCount,
    numbers_fields hl.sound.fieldNames hl.sound.fieldCount, fun _ _ => idOfKind?_eq_some_iff⟩

/-- Lists of items: a name that is both that of a named kind and the text of a token, and two kinds
of nodes from one kind of syntax. -/
def items : Grammar where
  name := "items"
  version := 15
  kinds := [.hidden "end", .ofKind "list" .document, .anonymous "list", .ofKind "item" .document]
  fields := ["item", "list"]
  rules := [{ name := "list", named := true, root := true }]

lemma sound_items : items.Sound where
  version := by decide
  kinds := by decide
  kindCount := by decide
  fieldCount := by decide
  kindNames := by decide
  fieldNames := by decide
  rules := by decide
  ruleNames := by decide
  ruleFields := by decide
  fieldTypes := by decide
  childTypes := by decide
  root := by decide

/-- In the language of items the token is the third kind, and nodes of documents are items. -/
theorem ofGrammar_numbers_items :
    ∃ l, ofGrammar items = .ok l ∧ l.idOf? ⟨"list", true⟩ = some 1 ∧
      l.idOf? ⟨"list", false⟩ = some 2 ∧ l.fieldId? "list" = some 2 ∧ l.fieldName? 3 = none ∧
      l.idOfKind? .document = some 3 := by
  have hok := Grammar.ofGrammar_eq_ok_iff.mpr ⟨sound_items, rfl⟩
  obtain ⟨hkinds, hfields, hkind⟩ := ofGrammar_numbers hok
  refine ⟨_, hok, hkinds.id_iff.mpr rfl, hkinds.id_iff.mpr rfl, hfields.id_iff.mpr rfl,
    hfields.outside 3 (by decide), (hkind .document 3).mpr ⟨rfl, fun j hj => ?_⟩⟩
  have hnone : (items.kinds[j]?).map NodeKind.toNodeName = none := hkinds.outside j (.inr hj)
  rw [kind?, Option.map_eq_none_iff.mp hnone, Option.bind_none]
  exact (Option.some_ne_none _).symm

end Language

end RequestFile
