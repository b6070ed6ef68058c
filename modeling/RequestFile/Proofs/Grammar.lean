import Mathlib.Tactic
import RequestFile.Language

/-!
Which grammars are accepted.

A grammar is sound if its version and sizes are within their bounds, no name is declared twice, all
that its rules name is declared, and one of the rules is for a root.

* **Conditions.** `Grammar.conditions` lists what is asked of a grammar in the order of asking, each
  condition with the fault of a grammar that breaks it. All of them hold just for a sound grammar
  (`Grammar.forall_conditions_iff`).
* **Checks.** `Checks cs o` goes through a list of conditions and stops at the first that is broken.
  It follows the list: what is checked part by part is checked as a whole (`Checks.append`), so the
  parts of `Grammar.fault?` are looked at one by one (`Grammar.checks_fault?`).
* **Ids.** A grammar of no more than `Grammar.maxIds` kinds and fields has ids of 16 bits for them.
-/

namespace RequestFile

/-! ### Checks -/

/-- What is asked, and the fault of what breaks it. -/
abbrev Condition := Prop × GrammarFault

/-- The outcome of going through conditions in order, up to the first that is broken. -/
inductive Checks : List Condition → Option GrammarFault → Prop where
  | done : Checks [] none
  | holds {c : Condition} {cs : List Condition} {o : Option GrammarFault} (h : c.1) :
      Checks cs o → Checks (c :: cs) o
  | broken {c : Condition} {cs : List Condition} (h : ¬c.1) : Checks (c :: cs) (some c.2)

namespace Checks

variable {cs ds : List Condition} {o p : Option GrammarFault} {fault : GrammarFault}

lemma append (h : Checks cs o) (h' : Checks ds p) : Checks (cs ++ ds) (o <|> p) := by
  induction h with
  | done => exact h'
  | holds hc _ ih => exact .holds hc ih
  | broken hc => exact .broken hc

/-- Where all conditions hold, no fault is found. -/
lemma of_forall (h : ∀ c ∈ cs, c.1) : Checks cs none := by
  induction cs with
  | nil => exact .done
  | cons c cs ih =>
      obtain ⟨hc, hcs⟩ := List.forall_mem_cons.mp h
      exact .holds hc (ih hcs)

/-- Looking for the first item of a list that breaks what is asked of each. -/
lemma find {α : Type} (c : α → Prop) (f : α → GrammarFault) {q : α → Bool}
    (hq : ∀ x, q x = true ↔ ¬c x) (xs : List α) :
    Checks (xs.map fun x => (c x, f x)) ((xs.find? q).map f) := by
  induction xs with
  | nil => exact .done
  | cons x xs ih =>
      rw [List.map_cons, List.find?_cons]
      split
      · next h => exact .broken ((hq x).mp h)
      · next h => exact .holds (not_not.mp fun hx => by simp [(hq x).mpr hx] at h) ih

/-- No fault is found just if all conditions hold. -/
lemma eq_none_iff (h : Checks cs o) : o = none ↔ ∀ c ∈ cs, c.1 := by
  induction h with
  | done => simp
  | holds hc _ ih => rw [ih, List.forall_mem_cons, and_iff_right hc]
  | broken hc => simpa using fun hc' => absurd hc' hc

/-- The fault that is found is that of a broken condition behind conditions that hold. -/
lemma eq_some_iff (h : Checks cs o) :
    o = some fault ↔
      ∃ front c back, cs = front ++ (c, fault) :: back ∧ (∀ d ∈ front, d.1) ∧ ¬c := by
  induction h with
  | done => simp
  | @holds c cs o hc _ ih =>
      rw [ih]
      constructor
      · rintro ⟨front, d, back, rfl, hfront, hd⟩
        exact ⟨c :: front, d, back, rfl, List.forall_mem_cons.mpr ⟨hc, hfront⟩, hd⟩
      · rintro ⟨front, d, back, heq, hfront, hd⟩
        cases front with
        | nil =>
            obtain ⟨rfl, -⟩ := List.cons.inj heq
            exact absurd hc hd
        | cons e front =>
            obtain ⟨rfl, rfl⟩ := List.cons.inj heq
            exact ⟨front, d, back, rfl, (List.forall_mem_cons.mp hfront).2, hd⟩
  | @broken c cs hc =>
      constructor
      · intro heq
        obtain rfl := Option.some.inj heq
        exact ⟨[], c.1, cs, rfl, List.forall_mem_nil _, hc⟩
      · rintro ⟨front, d, back, heq, hfront, hd⟩
        cases front with
        | nil =>
            obtain ⟨rfl, -⟩ := List.cons.inj heq
            rfl
        | cons e front =>
            obtain ⟨rfl, -⟩ := List.cons.inj heq
            exact absurd (List.forall_mem_cons.mp hfront).1 hc

end Checks

/-! ### Conditions on the items of a list -/

section EachAfter

variable {α β : Type}

/-- What is asked of each item of a list, given the items before it. -/
def eachAfter (f : List α → α → List β) (earlier : List α) : List α → List β
  | [] => []
  | x :: xs => f earlier x ++ eachAfter f (earlier ++ [x]) xs

/-- No item has stood before. -/
def freshConditions (fault : α → GrammarFault) (xs : List α) : List Condition :=
  eachAfter (fun earlier x => [(x ∉ earlier, fault x)]) [] xs

lemma forall_eachAfter_fresh {fault : α → GrammarFault} {earlier xs : List α} :
    (∀ c ∈ eachAfter (fun earlier x => [(x ∉ earlier, fault x)]) earlier xs, c.1)
      ↔ xs.Nodup ∧ ∀ x ∈ xs, x ∉ earlier := by
  induction xs generalizing earlier with
  | nil => simp [eachAfter]
  | cons x xs ih =>
      rw [eachAfter, List.forall_mem_append, List.forall_mem_singleton, ih, List.nodup_cons,
        List.forall_mem_cons]
      simp only [List.mem_append, List.mem_singleton, not_or]
      grind

lemma eachAfter_append (f : List α → α → List β) (earlier xs ys : List α) :
    eachAfter f earlier (xs ++ ys) = eachAfter f earlier xs ++ eachAfter f (earlier ++ xs) ys := by
  induction xs generalizing earlier with
  | nil => simp [eachAfter]
  | cons x xs ih => simp [eachAfter, ih]

/-- Distinct items are all fresh. -/
lemma checks_of_nodup (fault : α → GrammarFault) {xs : List α} (h : xs.Nodup) :
    Checks (freshConditions fault xs) none :=
  .of_forall (forall_eachAfter_fresh.mpr ⟨h, fun _ _ => List.not_mem_nil⟩)

/-- The search for a repeated item checks that no item has stood before. -/
lemma checks_firstRepeat? [BEq α] [LawfulBEq α] [Hashable α] (fault : α → GrammarFault)
    (xs : List α) : Checks (freshConditions fault xs) ((firstRepeat? xs).map fault) := by
  cases h : firstRepeat? xs with
  | none => exact checks_of_nodup fault ((firstRepeat?_eq_none_iff xs).mp h)
  | some x =>
      obtain ⟨front, back, rfl, hfront, hx⟩ := (firstRepeat?_eq_some_iff xs x).mp h
      have hbroken : Checks (eachAfter (fun earlier y => [(y ∉ earlier, fault y)]) front (x :: back))
          (some (fault x)) := .broken (not_not.mpr hx)
      rw [freshConditions, eachAfter_append]
      exact (checks_of_nodup fault hfront).append hbroken

end EachAfter

namespace Grammar

variable {g : Grammar}

/-! ### Declared names -/

/-- The names of the node kinds. -/
def kindNames (g : Grammar) : List NodeName :=
  g.kinds.map NodeKind.toNodeName

lemma isSome_idOf?_iff {t : NodeName} : (g.idOf? t).isSome ↔ t ∈ g.kindNames := by
  rw [idOf?, List.findIdx?_isSome, List.any_eq_true, kindNames, List.mem_map]
  simp only [beq_iff_eq]

lemma isNone_idOf?_iff {t : NodeName} : (g.idOf? t).isNone ↔ t ∉ g.kindNames := by
  rw [← isSome_idOf?_iff, Option.not_isSome_iff_eq_none, Option.isNone_iff_eq_none]

lemma isSome_fieldId?_iff {field : String} : (g.fieldId? field).isSome ↔ field ∈ g.fields := by
  rw [fieldId?, Option.isSome_map, List.isSome_idxOf?]

lemma isNone_fieldId?_iff {field : String} : (g.fieldId? field).isNone ↔ field ∉ g.fields := by
  rw [← isSome_fieldId?_iff, Option.not_isSome_iff_eq_none, Option.isNone_iff_eq_none]

/-! ### Sound grammars -/

/-- A grammar from which a language can be made. -/
structure Sound (g : Grammar) : Prop where
  version : 13 ≤ g.version ∧ g.version ≤ 15
  kinds : g.kinds ≠ []
  kindCount : g.kinds.length ≤ 65534
  fieldCount : g.fields.length ≤ 65534
  kindNames : g.kindNames.Nodup
  fieldNames : g.fields.Nodup
  rules : ∀ r ∈ g.rules, r.toNodeName ∈ g.kindNames
  ruleNames : (g.rules.map NodeRule.toNodeName).Nodup
  ruleFields : ∀ r ∈ g.rules, ∀ f ∈ r.fields, f.1 ∈ g.fields
  fieldTypes : ∀ r ∈ g.rules, ∀ f ∈ r.fields, ∀ t ∈ f.2.types, t ∈ g.kindNames
  childTypes : ∀ r ∈ g.rules, ∀ s ∈ r.children, ∀ t ∈ s.types, t ∈ g.kindNames
  root : ∃ r ∈ g.rules, r.root

/-- What is asked of a rule, given the rules before it. -/
def ruleConditions (g : Grammar) (earlier : List NodeRule) (r : NodeRule) : List Condition :=
  [(r.toNodeName ∈ g.kindNames, .unknownKind r.name g.name),
   (r.toNodeName ∉ earlier.map NodeRule.toNodeName, .repeatedKind r.name)]
    ++ r.fields.map (fun f => (f.1 ∈ g.fields, .unknownField f.1 r.name))
    ++ r.nodeNames.map (fun t => (t ∈ g.kindNames, .unknownKind t.name r.name))

/-- What is asked of a grammar, in the order of asking. -/
def conditions (g : Grammar) : List Condition :=
  [(13 ≤ g.version ∧ g.version ≤ 15, .version g.version),
   (g.kinds ≠ [], .noKinds),
   (g.kinds.length ≤ 65534, .tooManyKinds g.kinds.length),
   (g.fields.length ≤ 65534, .tooManyFields g.fields.length)]
    ++ freshConditions (fun t => .repeatedKind t.name) g.kindNames
    ++ freshConditions .repeatedField g.fields
    ++ eachAfter g.ruleConditions [] g.rules
    ++ [(∃ r ∈ g.rules, r.root, .noRoot)]

lemma mem_nodeNames {r : NodeRule} {t : NodeName} :
    t ∈ r.nodeNames ↔ (∃ f ∈ r.fields, t ∈ f.2.types) ∨ ∃ s ∈ r.children, t ∈ s.types := by
  cases h : r.children <;> simp [NodeRule.nodeNames, h]

lemma forall_ruleConditions {earlier : List NodeRule} {r : NodeRule} :
    (∀ c ∈ g.ruleConditions earlier r, c.1) ↔
      r.toNodeName ∈ g.kindNames ∧ r.toNodeName ∉ earlier.map NodeRule.toNodeName ∧
        (∀ f ∈ r.fields, f.1 ∈ g.fields) ∧ ∀ t ∈ r.nodeNames, t ∈ g.kindNames := by
  simp only [ruleConditions, List.forall_mem_append, List.forall_mem_cons, List.forall_mem_map,
    List.not_mem_nil, IsEmpty.forall_iff, implies_true, and_true, and_assoc]

/-- The conditions on rules: each is in order by itself, and no two have one name. -/
lemma forall_eachAfter_rules {earlier rs : List NodeRule} :
    (∀ c ∈ eachAfter g.ruleConditions earlier rs, c.1) ↔
      (∀ r ∈ rs, r.toNodeName ∈ g.kindNames ∧ (∀ f ∈ r.fields, f.1 ∈ g.fields) ∧
        ∀ t ∈ r.nodeNames, t ∈ g.kindNames) ∧
      (rs.map NodeRule.toNodeName).Nodup ∧
      ∀ r ∈ rs, r.toNodeName ∉ earlier.map NodeRule.toNodeName := by
  induction rs generalizing earlier with
  | nil => simp [eachAfter]
  | cons r rs ih =>
      rw [eachAfter, List.forall_mem_append, forall_ruleConditions, ih, List.map_cons,
        List.nodup_cons, List.forall_mem_cons, List.forall_mem_cons]
      simp only [List.map_append, List.map_cons, List.map_nil, List.mem_append,
        List.mem_singleton, not_or]
      grind

/-- All conditions hold just for a sound grammar. -/
lemma forall_conditions_iff : (∀ c ∈ g.conditions, c.1) ↔ g.Sound := by
  simp only [conditions, freshConditions, List.forall_mem_append, List.forall_mem_cons,
    List.not_mem_nil, IsEmpty.forall_iff, implies_true, and_true, forall_eachAfter_fresh,
    forall_eachAfter_rules, List.map_nil, not_false_eq_true]
  constructor
  · rintro ⟨⟨⟨⟨⟨hversion, hkinds, hkindCount, hfieldCount⟩, hkindNames⟩, hfieldNames⟩, hrules,
      hruleNames⟩, hroot⟩
    exact
      { version := hversion, kinds := hkinds, kindCount := hkindCount, fieldCount := hfieldCount,
        kindNames := hkindNames, fieldNames := hfieldNames, ruleNames := hruleNames, root := hroot
        rules := fun r hr => (hrules r hr).1
        ruleFields := fun r hr => (hrules r hr).2.1
        fieldTypes := fun r hr f hf t ht =>
          (hrules r hr).2.2 t (mem_nodeNames.mpr (.inl ⟨f, hf, ht⟩))
        childTypes := fun r hr s hs t ht =>
          (hrules r hr).2.2 t (mem_nodeNames.mpr (.inr ⟨s, hs, ht⟩)) }
  · intro h
    refine ⟨⟨⟨⟨⟨h.version, h.kinds, h.kindCount, h.fieldCount⟩, h.kindNames⟩, h.fieldNames⟩,
      fun r hr => ⟨h.rules r hr, h.ruleFields r hr, fun t ht => ?_⟩, h.ruleNames⟩, h.root⟩
    rcases mem_nodeNames.mp ht with ⟨f, hf, ht⟩ | ⟨s, hs, ht⟩
    · exact h.fieldTypes r hr f hf t ht
    · exact h.childTypes r hr s hs t ht

/-! ### The checks of a grammar -/

lemma checks_ruleFault? (g : Grammar) (earlier : List NodeRule) (r : NodeRule) :
    Checks (g.ruleConditions earlier r) (g.ruleFault? earlier r) := by
  rw [ruleConditions, ruleFault?, List.append_assoc, List.cons_append, List.cons_append,
    List.nil_append]
  split
  · next h => exact .broken (isNone_idOf?_iff.mp h)
  · next h =>
      refine .holds (not_not.mp fun hr => h (isNone_idOf?_iff.mpr hr)) ?_
      split
      · next h => exact .broken (by simpa using h)
      · next h =>
          refine .holds (by simpa using h) (.append ?_ ?_)
          · exact Checks.find _ _ (fun f => isNone_fieldId?_iff) r.fields
          · exact Checks.find _ _ (fun t => isNone_idOf?_iff) r.nodeNames

lemma checks_rulesFault? (g : Grammar) (earlier rs : List NodeRule) :
    Checks (eachAfter g.ruleConditions earlier rs) (g.rulesFault? earlier rs) := by
  induction rs generalizing earlier with
  | nil => exact .done
  | cons r rs ih => exact (checks_ruleFault? g earlier r).append (ih _)

lemma checks_sizeFault? (g : Grammar) :
    Checks [(g.kinds ≠ [], .noKinds),
        (g.kinds.length ≤ 65534, .tooManyKinds g.kinds.length),
        (g.fields.length ≤ 65534, .tooManyFields g.fields.length)] g.sizeFault? := by
  rw [sizeFault?]
  split
  · next h => exact .broken (not_not.mpr (List.isEmpty_iff.mp h))
  · next hkinds =>
      refine .holds (fun h => hkinds (List.isEmpty_iff.mpr h)) ?_
      split
      · next h => exact .broken (Nat.not_le.mpr h)
      · next hcount =>
          refine .holds (Nat.not_lt.mp hcount) ?_
          split
          · next h => exact .broken (Nat.not_le.mpr h)
          · next hcount => exact .holds (Nat.not_lt.mp hcount) .done

lemma checks_nameFault? (g : Grammar) :
    Checks (freshConditions (fun t => .repeatedKind t.name) g.kindNames
      ++ freshConditions .repeatedField g.fields) g.nameFault? :=
  (checks_firstRepeat? _ g.kindNames).append (checks_firstRepeat? _ g.fields)

/-- The checks of a grammar go through its conditions. -/
lemma checks_fault? (g : Grammar) : Checks g.conditions g.fault? := by
  have hroot : Checks [(∃ r ∈ g.rules, r.root, .noRoot)]
      (if g.rules.any NodeRule.root then none else some .noRoot) := by
    split
    · next h => exact .holds (List.any_eq_true.mp h) .done
    · next h => exact .broken fun hroot => h (List.any_eq_true.mpr hroot)
  have hrest := (checks_sizeFault? g).append
    ((checks_nameFault? g).append ((checks_rulesFault? g [] g.rules).append hroot))
  rw [fault?]
  split
  · next h =>
      refine .broken fun hversion => ?_
      rw [Bool.or_eq_true, decide_eq_true_iff, decide_eq_true_iff] at h
      exact h.elim (Nat.not_lt.mpr hversion.1) (Nat.not_lt.mpr hversion.2)
  · next h =>
      rw [Bool.or_eq_true, decide_eq_true_iff, decide_eq_true_iff, not_or, Nat.not_lt,
        Nat.not_lt] at h
      simpa only [conditions, List.append_assoc, List.cons_append, List.nil_append]
        using Checks.holds h hrest

/-! ### The result -/

lemma ofGrammar_eq_error_iff {fault : GrammarFault} :
    Language.ofGrammar g = .error fault ↔ g.fault? = some fault := by
  rw [Language.ofGrammar]
  cases g.fault? <;> simp

/-- The language of a sound grammar is made of it and the table of its node types. -/
lemma ofGrammar_eq_ok_iff {l : Language} :
    Language.ofGrammar g = .ok l ↔ g.Sound ∧ l = ⟨g, .build g.naming g.nodeTypes⟩ := by
  rw [← forall_conditions_iff, ← (checks_fault? g).eq_none_iff, Language.ofGrammar]
  cases g.fault? <;> simp [eq_comm]

/-- A place in a list of no more than `maxIds` items is a number of 16 bits, also if it is counted
from 1. -/
lemma exists_id {α : Type} {xs : List α} {start : Nat} {x : α × Nat} (hlen : xs.length ≤ maxIds)
    (hstart : start ≤ 1) (h : x ∈ xs.zipIdx start) : ∃ id : UInt16, id.toNat = x.2 ∧ start ≤ x.2 := by
  obtain ⟨hle, hlt, -⟩ := List.mem_zipIdx h
  have hfits : x.2 < UInt16.size := by
    simp only [maxIds, UInt16.size] at hlen ⊢
    omega
  exact ⟨.ofNatLT x.2 hfits, UInt16.toNat_ofNatLT .., hle⟩

/-- **Acceptance of grammars.** A language is made just of a sound grammar. If it is refused, the
fault is that of the first of its conditions that is broken. The counts that are checked before ids
are given out let every kind have an id of 16 bits, and every field one that is not zero. -/
theorem ofGrammar_accepts (g : Grammar) :
    ((∃ l, Language.ofGrammar g = .ok l) ↔ g.Sound) ∧
      (∀ fault, Language.ofGrammar g = .error fault ↔
        ∃ front c back, g.conditions = front ++ (c, fault) :: back ∧ (∀ d ∈ front, d.1) ∧ ¬c) ∧
      (g.kinds.length ≤ maxIds → ∀ k ∈ g.kinds.zipIdx, ∃ id : UInt16, id.toNat = k.2) ∧
      (g.fields.length ≤ maxIds →
        ∀ f ∈ g.fields.zipIdx 1, ∃ id : UInt16, id ≠ 0 ∧ id.toNat = f.2) := by
  refine ⟨⟨fun ⟨l, hl⟩ => (ofGrammar_eq_ok_iff.mp hl).1, fun hsound => ?_⟩, fun fault => ?_, ?_, ?_⟩
  · exact ⟨_, ofGrammar_eq_ok_iff.mpr ⟨hsound, rfl⟩⟩
  · rw [ofGrammar_eq_error_iff]
    exact (checks_fault? g).eq_some_iff
  · intro hlen k hk
    obtain ⟨id, hid, -⟩ := exists_id hlen (Nat.zero_le 1) hk
    exact ⟨id, hid⟩
  · intro hlen f hf
    obtain ⟨id, hid, hpos⟩ := exists_id hlen le_rfl hf
    refine ⟨id, ?_, hid⟩
    rintro rfl
    rw [← hid] at hpos
    exact absurd hpos (by decide)

end Grammar

end RequestFile
