import RequestFile.Grammar.Standard
import RequestFile.Proofs.Tally
import RequestFile.Proofs.Validity

/-!
Trees follow the rules of the grammar.

The grammar describes the nodes of each kind once more, by rules with slots. Here the forms that
trees have are compared with the rules, one kind after the other, by the tallies of the forms.

* **Kinds.** A child node is an error or of a type that the rule of its parent lists
  (`Document.childNodes_listed`). A kind whose rule has no slots has no other child nodes.
* **Numbers.** In a document without errors the number of child nodes fits each slot, but for two
  kinds of nodes that may lack what their rule requires: form parameters in front of whose equals
  sign nothing stands, and boundaries between two parts that are nothing but hyphens
  (`Document.childNodes_fit_of_isValid`).
-/

namespace RequestFile

open scoped Computability

/-! ### Slots by kind and by name -/

/-- The slots of a shape: those of its fields, then that of its other children. -/
def Shape.slots (s : Shape) : List (Slot Kind) :=
  s.fields.map Prod.snd ++ s.children.toList

/-- The slots of a rule: those of its fields, then that of its other children. -/
def NodeRule.slots (r : NodeRule) : List (Slot NodeName) :=
  r.fields.map Prod.snd ++ r.children.toList

/-- The number of nodes in a row that a slot takes. -/
def Slot.count (s : Slot NodeName) (ts : List Tree) : Nat :=
  ts.countP fun t => t.isNode && s.types.contains t.kind.toNodeName

/-- The rules of a grammar for the nodes of a kind. -/
def Grammar.rulesOf (g : Grammar) (k : Kind) : List NodeRule :=
  g.rules.filter (·.toNodeName == k.toNodeName)

namespace Kind

lemma mem_all (k : Kind) : k ∈ all := by
  cases k <;> decide

/-- Kinds have different names in the grammar. -/
lemma toNodeName_injective : Function.Injective toNodeName := by
  have hnodup : (all.map toNodeName).Nodup := by decide +kernel
  exact fun k k' h => List.inj_on_of_nodup_map hnodup (mem_all k) (mem_all k') h

end Kind

/-- Each kind of nodes has one rule: the others have other names or are for tokens. -/
lemma Grammar.rulesOf_standard {k : Kind} (h : k ∈ Kind.nodes) :
    standard.rulesOf k = [.ofKind k] := by
  have hnodes : Kind.nodes.filter (fun K => K.toNodeName == k.toNodeName) = [k] := by
    have hone : Kind.nodes.filter (· == k) = [k] := by
      revert k
      decide
    simpa only [beq_eq_decide, Kind.toNodeName_injective.eq_iff] using hone
  have htokens : (tokenTexts.map fun t => ({ name := t, named := false } : NodeRule)).filter
      (·.toNodeName == k.toNodeName) = [] := by
    simp [Kind.toNodeName]
  rw [rulesOf, standard, List.filter_append, htokens, List.append_nil, List.filter_map]
  exact congrArg (List.map NodeRule.ofKind) hnodes

lemma NodeRule.slots_ofKind (k : Kind) :
    (ofKind k).slots = (Shape.ofKind k).slots.map Slot.byName := by
  rw [slots, ofKind, Shape.slots, List.map_append, List.map_map, List.map_map]
  cases (Shape.ofKind k).children <;> rfl

lemma Slot.mem_types_byName {s : Slot Kind} {k : Kind} :
    k.toNodeName ∈ s.byName.types ↔ k ∈ s.types := by
  simp only [byName, filterMap, List.filterMap_eq_map', List.mem_map]
  constructor
  · rintro ⟨k', hk', heq⟩
    rwa [← Kind.toNodeName_injective heq]
  · exact fun h => ⟨k, h, rfl⟩

lemma Slot.count_byName (s : Slot Kind) (ts : List Tree) :
    s.byName.count ts = Form.countNodes s.types.contains ts := by
  rw [count, Form.countNodes]
  congr 1
  funext t
  simp only [List.contains_eq_mem, mem_types_byName]

namespace Form

variable {k K : Kind} {L : TreeLanguage} {t : Tree} {e m : Bool}

/-- Nodes that are not errors are of the kinds of nodes. -/
lemma mem_nodes_of_production (h : [t] ∈ production e m k) (hk : k ≠ .error) :
    k ∈ Kind.nodes := by
  cases k <;> first | decide | exact absurd rfl hk | exact absurd h (Language.notMem_zero _)

/-! ### Kinds of child nodes -/

/-- Whether a kind is neither an error nor in a slot for the nodes of a kind. -/
def unlisted (k K : Kind) : Bool :=
  K != .error && (Shape.ofKind k).slots.all fun s => !s.types.contains K

/-- A form without room for nodes of other kinds. -/
lemma listed_of_node [hL : Tallied (unlisted k) L] (h : [t] ∈ node K L)
    (hx : hL.tally.all (·.most = some 0)) : countNodes (unlisted k) t.children = 0 := by
  obtain ⟨a, ha, hn⟩ := covers_of_node (p := unlisted k) h
  rw [Option.mem_def.mp ha] at hx
  exact Nat.le_zero.mp (hn.2 0 (by simpa using hx))

/-- **No form has room for a child node that the rule does not list.** -/
lemma listed_of_production (h : [t] ∈ production true true k) (hk : k ≠ .error) :
    countNodes (unlisted k) t.children = 0 := by
  cases k with
  | error => exact absurd rfl hk
  | operator => rcases h with ((h | h) | h) | h <;> exact listed_of_node h (by decide +kernel)
  | formParam => rcases h with h | h <;> exact listed_of_node h (by decide +kernel)
  | _ => first
    | exact absurd h (Language.notMem_zero _)
    | exact listed_of_node h (by decide +kernel)

/-- A child node is an error or of a type in one of the slots. -/
lemma slot_of_mem_children {u : Tree} (h : [t] ∈ production true true k) (hk : k ≠ .error)
    (hu : u ∈ t.children) (hnode : u.isNode) :
    u.kind = .error ∨ ∃ s ∈ (Shape.ofKind k).slots, u.kind ∈ s.types := by
  have hcount := listed_of_production h hk
  rw [countNodes, List.countP_eq_zero] at hcount
  have hlisted := hcount u hu
  simp only [hnode, unlisted, Bool.true_and, Bool.and_eq_true, bne_iff_ne, List.all_eq_true,
    Bool.not_eq_true', List.contains_eq_mem, decide_eq_false_iff_not, not_and_or, not_not,
    not_forall] at hlisted
  exact hlisted.imp_right fun ⟨s, hs, hmem⟩ => ⟨s, hs, hmem⟩

/-! ### Numbers of child nodes -/

/-- A form with at most one node for each slot that takes no more. -/
lemma le_one_of_node [hL : ∀ p, Tallied p L] (h : [t] ∈ node K L)
    (hx : ∀ s ∈ (Shape.ofKind k).slots, s.multiple = false →
      (hL s.types.contains).tally.all (·.most.any (· ≤ 1))) :
    ∀ s ∈ (Shape.ofKind k).slots, s.multiple = false →
      countNodes s.types.contains t.children ≤ 1 := by
  intro s hs hm
  obtain ⟨a, ha, hn⟩ := covers_of_node (p := s.types.contains) h
  have hx := hx s hs hm
  rw [Option.mem_def.mp ha, Option.all_some, Option.any_eq_true] at hx
  obtain ⟨n, hmost, hle⟩ := hx
  exact (hn.2 n hmost).trans (by simpa using hle)

/-- A form with a node for each slot that requires one. -/
lemma one_le_of_node [hL : ∀ p, Tallied p L] (h : [t] ∈ node K L)
    (hx : ∀ s ∈ (Shape.ofKind k).slots, s.required →
      (hL s.types.contains).tally.all (1 ≤ ·.least)) :
    ∀ s ∈ (Shape.ofKind k).slots, s.required → 1 ≤ countNodes s.types.contains t.children := by
  intro s hs hr
  obtain ⟨a, ha, hn⟩ := covers_of_node (p := s.types.contains) h
  have hx := hx s hs hr
  rw [Option.mem_def.mp ha, Option.all_some] at hx
  exact le_trans (by simpa using hx) hn.1

/-- **No slot holds more nodes than it takes.** -/
lemma le_one_of_production (h : [t] ∈ production false true k) :
    ∀ s ∈ (Shape.ofKind k).slots, s.multiple = false →
      countNodes s.types.contains t.children ≤ 1 := by
  cases k with
  | error => exact absurd h not_mem_rejected
  | operator => rcases h with ((h | h) | h) | h <;> exact le_one_of_node h (by decide +kernel)
  | formParam => rcases h with h | h <;> exact le_one_of_node h (by decide +kernel)
  | _ => first
    | exact absurd h (Language.notMem_zero _)
    | exact le_one_of_node h (by decide +kernel)

end Form

/-! ### What may be missing -/

namespace Tree

/-- Whether the tree is a form parameter with nothing in front of its equals sign. -/
def IsNameless (t : Tree) : Prop :=
  t.kind = .formParam ∧ ((t.leaves.map Prod.fst).filter (· ≠ .whitespace)).head? = some .equals

/-- Whether the tree is a boundary between two parts that is nothing but hyphens. -/
def IsBareBoundary (t : Tree) : Prop :=
  t.kind = .multipartBoundary ∧
    ∀ l ∈ t.leaves, l.1 = .doubleDash ∨ l.1 = .whitespace ∨ l.1 = .newline

end Tree

namespace Form

variable {k K : Kind} {L M : TreeLanguage} {t : Tree} {w : List Tree}

lemma node_add (k : Kind) (L M : TreeLanguage) : node k (L + M) = node k L + node k M := by
  ext w
  constructor
  · rintro ⟨ts, hts | hts, rfl⟩
    · exact Or.inl ⟨ts, hts, rfl⟩
    · exact Or.inr ⟨ts, hts, rfl⟩
  · rintro (⟨ts, hts, rfl⟩ | ⟨ts, hts, rfl⟩)
    · exact ⟨ts, Or.inl hts, rfl⟩
    · exact ⟨ts, Or.inr hts, rfl⟩

/-- A blank has no leaves of other kinds. -/
lemma leavesOf_blank (h : w ∈ blank) : ∀ l ∈ Tree.leavesOf w, l.1 = .whitespace := by
  rcases h with h | ⟨u, _, rfl⟩
  · obtain rfl := (Language.mem_one w).mp h
    simp [Tree.leavesOf]
  · simp [Tree.leavesOf, Tree.leaves]

/-- A parameter without a name begins with its equals sign. -/
lemma isNameless_of_namelessParam (h : [t] ∈ namelessParam false) : t.IsNameless := by
  obtain ⟨ts, hts, rfl⟩ := exists_of_node h
  obtain ⟨a, ha, b, hb, rfl⟩ := Language.mem_mul.mp hts
  obtain ⟨c, hc, d, _, rfl⟩ := Language.mem_mul.mp hb
  obtain ⟨o, ⟨us, ⟨u, _, rfl⟩, rfl⟩, f, _, rfl⟩ := Language.mem_mul.mp hc
  have hblank : (((Tree.leavesOf a).map Prod.fst).filter (· ≠ .whitespace)) = [] := by
    simpa using leavesOf_blank ha
  refine ⟨rfl, ?_⟩
  rw [Tree.leaves, Tree.leavesOf_append, List.map_append, List.filter_append, hblank]
  simp [Tree.leavesOf, Tree.leaves]

/-- A boundary without a text is bare. -/
lemma isBareBoundary_of_openBoundary (h : [t] ∈ openBoundary false .multipartBoundary 1) :
    t.IsBareBoundary := by
  obtain ⟨ts, hts, rfl⟩ := exists_of_node h
  rw [mul_one] at hts
  obtain ⟨a, ⟨u, _, rfl⟩, b, hb, rfl⟩ := Language.mem_mul.mp hts
  obtain ⟨c, hc, d, hd, rfl⟩ := Language.mem_mul.mp hb
  obtain ⟨f, hf, g, hg, rfl⟩ := Language.mem_mul.mp hc
  obtain rfl : g = [] := hg.elim (Language.mem_one g).mp fun hg => absurd hg not_mem_rejected
  have hend : ∀ l ∈ Tree.leavesOf d, l.1 = .newline := by
    rcases hd with hd | ⟨v, _, rfl⟩
    · obtain rfl := (Language.mem_one d).mp hd
      simp [Tree.leavesOf]
    · simp [Tree.leavesOf, Tree.leaves]
  refine ⟨rfl, fun l hl => ?_⟩
  simp only [Tree.leaves, Tree.leavesOf_append, Tree.leavesOf, List.append_nil, List.mem_append,
    List.mem_singleton] at hl
  rcases hl with rfl | hl | hl
  · exact Or.inl rfl
  · exact Or.inr (Or.inl (leavesOf_blank hf l hl))
  · exact Or.inr (Or.inr (hend l hl))

/-- **A required slot holds a node**, but for the two kinds of nodes that may lack one. -/
lemma one_le_of_production (h : [t] ∈ production false true k) :
    ∀ s ∈ (Shape.ofKind k).slots, s.required →
      1 ≤ countNodes s.types.contains t.children ∨ t.IsNameless ∨ t.IsBareBoundary := by
  cases k with
  | error => exact absurd h not_mem_rejected
  | operator =>
      have hnone : (Shape.ofKind .operator).slots = [] := rfl
      simp [hnone]
  | formParam =>
      rcases h with h | h
      · exact fun s hs hr => Or.inl (one_le_of_node h (by decide +kernel) s hs hr)
      · exact fun _ _ _ => Or.inr (Or.inl (isNameless_of_namelessParam h))
  | multipartBoundary =>
      have hsplit : innerBoundary false = openBoundary false .multipartBoundary 1
          + openBoundary false .multipartBoundary (part false .boundaryValue) := by
        rw [innerBoundary, opt, openBoundary, mul_add, add_mul, node_add, openBoundary, openBoundary]
      rw [production, hsplit] at h
      rcases h with h | h
      · exact fun _ _ _ => Or.inr (Or.inr (isBareBoundary_of_openBoundary h))
      · exact fun s hs hr => Or.inl (one_le_of_node h (by decide +kernel) s hs hr)
  | _ => first
    | exact absurd h (Language.notMem_zero _)
    | exact fun s hs hr => Or.inl (one_le_of_node h (by decide +kernel) s hs hr)

end Form

namespace Document

variable {limits : Limits} {source : String} {d : Document} {k : Kind} {t : Tree}

/-- **Child nodes are listed**: whatever the source, each kind of nodes has one rule in the grammar,
and a child node of such a node is an error or of a type in one of the slots of the rule. -/
theorem childNodes_listed (h : parse limits source = .ok d) (hk : k ≠ .error)
    (ht : t ∈ d.tree.nodesOf k) : ∃ r, Grammar.standard.rulesOf k = [r] ∧
      ∀ u ∈ t.children, u.isNode → u.kind = .error ∨ ∃ s ∈ r.slots, u.kind.toNodeName ∈ s.types := by
  have hform := Form.production_of_mem_nodesOf (form_of_parse h) ht
  refine ⟨.ofKind k, Grammar.rulesOf_standard (Form.mem_nodes_of_production hform hk), ?_⟩
  intro u hu hnode
  rcases Form.slot_of_mem_children hform hk hu hnode with herror | ⟨s, hs, hmem⟩
  · exact Or.inl herror
  · refine Or.inr ⟨s.byName, ?_, Slot.mem_types_byName.mpr hmem⟩
    rw [NodeRule.slots_ofKind]
    exact List.mem_map_of_mem hs

/-- A request with a header and a stray line. -/
theorem childNodes_listed_request : ∃ d t, parse defaultLimits "GET /u\na: b\n@\n" = .ok d ∧
    Kind.request ≠ .error ∧ t ∈ d.tree.nodesOf .request ∧
    (∃ u ∈ t.children, u.isNode ∧ u.kind = .error) ∧
    ∃ r, Grammar.standard.rulesOf .request = [r] ∧ ∀ u ∈ t.children, u.isNode →
      u.kind = .error ∨ ∃ s ∈ r.slots, u.kind.toNodeName ∈ s.types := by
  have hok : (parse defaultLimits "GET /u\na: b\n@\n").toOption.any fun d =>
      (d.tree.nodesOf .request).any fun t => t.children.any fun u => u.isNode && u.kind == .error := by
    decide +kernel
  obtain ⟨d, hd, hany⟩ := exists_ok_of_any hok
  obtain ⟨t, ht, hany⟩ := List.any_eq_true.mp hany
  obtain ⟨u, hu, herror⟩ := List.any_eq_true.mp hany
  have hk : Kind.request ≠ .error := by decide
  exact ⟨d, t, hd, hk, ht, ⟨u, hu, by simpa using herror⟩, childNodes_listed hd hk ht⟩

/-- **Child nodes fit their slots**: in a valid document each kind of nodes has one rule in the
grammar, no slot of the rule has more child nodes than it takes, and every slot that requires one
has one, unless the node is a form parameter without a name or a bare boundary between two parts. -/
theorem childNodes_fit_of_isValid (h : parse limits source = .ok d) (hv : d.isValid)
    (ht : t ∈ d.tree.nodesOf k) : ∃ r, Grammar.standard.rulesOf k = [r] ∧ ∀ s ∈ r.slots,
      (s.multiple = false → s.count t.children ≤ 1) ∧
        (s.required → 1 ≤ s.count t.children ∨ t.IsNameless ∨ t.IsBareBoundary) := by
  have hform := Form.production_of_mem_nodesOf (form_of_isValid h hv) ht
  have hk : k ≠ .error := by
    rintro rfl
    exact Form.not_mem_rejected hform
  refine ⟨.ofKind k, Grammar.rulesOf_standard (Form.mem_nodes_of_production hform hk), ?_⟩
  rw [NodeRule.slots_ofKind, List.forall_mem_map]
  intro s hs
  rw [Slot.count_byName]
  exact ⟨Form.le_one_of_production hform s hs, Form.one_le_of_production hform s hs⟩

/-- A valid document with a form of two parameters. -/
theorem childNodes_fit_of_isValid_form : ∃ d t, parse defaultLimits "POST /u\n\na=b&c\n" = .ok d ∧
    d.isValid ∧ t ∈ d.tree.nodesOf .formUrlencodedBody ∧
    ∃ r, Grammar.standard.rulesOf .formUrlencodedBody = [r] ∧ ∀ s ∈ r.slots,
      (s.multiple = false → s.count t.children ≤ 1) ∧
        (s.required → 1 ≤ s.count t.children ∨ t.IsNameless ∨ t.IsBareBoundary) := by
  have hok : (parse defaultLimits "POST /u\n\na=b&c\n").toOption.any fun d =>
      d.isValid && (d.tree.nodesOf .formUrlencodedBody).any fun _ => true := by
    decide +kernel
  obtain ⟨d, hd, hany⟩ := exists_ok_of_any hok
  obtain ⟨hv, hany⟩ := Bool.and_eq_true_iff.mp hany
  obtain ⟨t, ht, _⟩ := List.any_eq_true.mp hany
  exact ⟨d, t, hd, hv, ht, childNodes_fit_of_isValid hd hv ht⟩

/-- Valid documents in which a required slot is empty: a parameter without a name, and a bare
boundary between two parts. -/
theorem not_childNodes_fit :
    (∃ d t r s, parse defaultLimits "POST /u\n\na=b&=c\n" = .ok d ∧ d.isValid ∧
      t ∈ d.tree.nodesOf .formParam ∧ Grammar.standard.rulesOf .formParam = [r] ∧
      s ∈ r.slots ∧ s.required ∧ s.count t.children = 0) ∧
    ∃ d t r s, parse defaultLimits "POST /u\n\n--b\nx\n--\n--b--\n" = .ok d ∧ d.isValid ∧
      t ∈ d.tree.nodesOf .multipartBoundary ∧ Grammar.standard.rulesOf .multipartBoundary = [r] ∧
      s ∈ r.slots ∧ s.required ∧ s.count t.children = 0 := by
  have hempty : ∀ {source : String} {k : Kind}, k ∈ Kind.nodes →
      ((parse defaultLimits source).toOption.any fun d => d.isValid &&
        (d.tree.nodesOf k).any fun t => (NodeRule.ofKind k).slots.any fun s =>
          s.required && s.count t.children == 0) →
      ∃ d t r s, parse defaultLimits source = .ok d ∧ d.isValid ∧ t ∈ d.tree.nodesOf k ∧
        Grammar.standard.rulesOf k = [r] ∧ s ∈ r.slots ∧ s.required ∧ s.count t.children = 0 := by
    intro source k hk hany
    obtain ⟨d, hd, hany⟩ := exists_ok_of_any hany
    obtain ⟨hv, hany⟩ := Bool.and_eq_true_iff.mp hany
    obtain ⟨t, ht, hany⟩ := List.any_eq_true.mp hany
    obtain ⟨s, hs, hzero⟩ := List.any_eq_true.mp hany
    obtain ⟨hr, hzero⟩ := Bool.and_eq_true_iff.mp hzero
    exact ⟨d, t, _, s, hd, hv, ht, Grammar.rulesOf_standard hk, hs, hr, eq_of_beq hzero⟩
  exact ⟨hempty (by decide) (by decide +kernel), hempty (by decide) (by decide +kernel)⟩

end Document

end RequestFile
