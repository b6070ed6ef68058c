import RequestFile.Document
import RequestFile.Proofs.Limits.Section
import RequestFile.Proofs.Nodes

/-!
Documents without errors.

In a document without errors every node has the form of its kind in which nothing may lapse
(`Form.production false`). The parts that such a form asks for are there in each of its rows of trees:
a child node of a kind (`Tree.isSome_child?`), an own leaf of a kind (`Tree.mem_ownLeaves`), the last
leaf of a node (`Tree.lastLeafKind?_node`).

`Document.noneMissing_of_isValid` collects what a valid document does not lack.
-/

namespace RequestFile

open scoped Computability

namespace Tree

variable {k K : Kind} {t : Tree} {ts : List Tree}

lemma isSome_child? (h : ∃ u ∈ ts, u.IsNodeOf k) : ((node K ts).child? k).isSome := by
  obtain ⟨u, hu, hnode, hkind⟩ := h
  rw [child?, List.find?_isSome]
  exact ⟨u, hu, by simp [hnode, hkind]⟩

lemma mem_ownLeaves : k ∈ (node K ts).ownLeaves.map Prod.fst ↔ ∃ u ∈ ts, u.IsLeafOf k := by
  simp only [ownLeaves, children, List.mem_map, List.mem_filterMap]
  constructor
  · rintro ⟨_, ⟨u, hu, hsome⟩, rfl⟩
    refine ⟨u, hu, ?_⟩
    cases u with
    | leaf k s =>
        obtain rfl := Option.some.inj hsome
        exact ⟨rfl, rfl⟩
    | node _ _ => cases hsome
  · rintro ⟨u, hu, hnode, rfl⟩
    cases u with
    | leaf k s => exact ⟨(k, s), ⟨_, hu, rfl⟩, rfl⟩
    | node _ _ => cases hnode

/-- A node that ends with a leaf has it as its last leaf. -/
lemma lastLeafKind?_node (s : String) : (node K (ts ++ [leaf k s])).lastLeafKind? = some k := by
  rw [lastLeafKind?, leaves, leavesOf_append, List.getLast?_append]
  rfl

end Tree

namespace Form

variable {k K : Kind} {L : TreeLanguage} {w : List Tree} {t : Tree}

/-- Nothing is rejected without an error. -/
lemma not_mem_rejected : w ∉ rejected false := by
  intro hw
  obtain ⟨a, ha, _⟩ := Language.mem_mul.mp hw
  exact absurd ha (Language.notMem_zero a)

/-- A row that ends with a closer, which may not lapse. -/
lemma exists_of_closer (h : w ∈ L * (leaf k + lapse false)) :
    ∃ ts s, w = ts ++ [.leaf k s] := by
  obtain ⟨a, _, b, hb, rfl⟩ := Language.mem_mul.mp h
  rcases hb with ⟨t, rfl, rfl⟩ | hb
  · exact ⟨a, t.text, rfl⟩
  · exact absurd hb (Language.notMem_zero b)

/-- What stands below a node of a form. -/
lemma exists_of_node (h : [t] ∈ node k L) : ∃ ts ∈ L, t = .node k ts := by
  obtain ⟨ts, hts, heq⟩ := h
  exact ⟨ts, hts, List.singleton_inj.mp heq⟩

/-! ### Parts of the nodes of each kind -/

/-- A child of a kind that the form of a node asks for. -/
lemma Asks.isSome_child? (hL : Asks (Tree.IsNodeOf K) L) (h : [t] ∈ node k L) :
    (t.child? K).isSome := by
  obtain ⟨ts, hts, rfl⟩ := exists_of_node h
  exact Tree.isSome_child? (hL ts hts)

/-- A leaf of a kind that the form of a node asks for. -/
lemma Asks.mem_ownLeaves (hL : Asks (Tree.IsLeafOf K) L) (h : [t] ∈ node k L) :
    K ∈ t.ownLeaves.map Prod.fst := by
  obtain ⟨ts, hts, rfl⟩ := exists_of_node h
  exact Tree.mem_ownLeaves.mpr (hL ts hts)

lemma asks_identifier : Asks (Tree.IsNodeOf .identifier) (identifier false) :=
  (asks_node .identifier text).add_lapse

lemma asks_path : Asks (Tree.IsNodeOf .path) (path false) :=
  (asks_node .path (content false)).add_lapse

/-- References are closed and have a name. -/
lemma reference_parts (h : [t] ∈ reference false) :
    (Variable.ofTree t).closed ∧ (Variable.ofTree t).name.isSome := by
  have hname := (((asks_identifier.mul_left (leaf .varOpen * blank)).mul_right blank).mul_right
    (leaf .varClose + lapse false)).isSome_child? h
  obtain ⟨ts, hts, rfl⟩ := exists_of_node h
  obtain ⟨us, s, rfl⟩ := exists_of_closer hts
  refine ⟨?_, by rwa [Variable.ofTree, Option.isSome_map]⟩
  rw [Variable.ofTree, Tree.lastLeafKind?_node]
  rfl

/-- Inline scripts are closed. -/
lemma script_closed (h : [t] ∈ script false) : t.lastLeafKind? = some .scriptClose := by
  obtain ⟨ts, hts, rfl⟩ := exists_of_node h
  obtain ⟨us, s, rfl⟩ := exists_of_closer hts
  exact Tree.lastLeafKind?_node s

/-- Multipart bodies have a last boundary. -/
lemma multipart_closed (h : [t] ∈ multipart false) :
    (t.child? .multipartBoundaryLast).isSome :=
  ((asks_node .multipartBoundaryLast _).add_lapse.mul_left _).isSome_child? h

/-- Headers have a colon. -/
lemma header_colon (h : [t] ∈ header false) : Kind.colon ∈ t.ownLeaves.map Prod.fst := by
  have hvalue : Asks (Tree.IsLeafOf .colon) (headerValue false) :=
    (((asks_leaf .colon).mul_right blank).mul_right _).add fun _ hw => absurd hw not_mem_rejected
  exact ((hvalue.mul_left _).mul_right lineEnd).mem_ownLeaves h

lemma asks_assignment_identifier : Asks (Tree.IsNodeOf .identifier) (assignment false) :=
  ((asks_identifier.mul_left (leaf .at)).mul_right blank).mul_right (assigned false)

lemma asks_assignment_equals : Asks (Tree.IsLeafOf .equals) (assignment false) := by
  have hassigned : Asks (Tree.IsLeafOf .equals) (assigned false) :=
    (((asks_leaf .equals).mul_right blank).mul_right _).add fun _ hw => absurd hw not_mem_rejected
  exact hassigned.mul_left _

lemma asks_assignment_value : Asks (Tree.IsNodeOf .value) (assignment false) := by
  have hassigned : Asks (Tree.IsNodeOf .value) (assigned false) :=
    ((asks_node .value (content false)).add_lapse.mul_left _).add
      fun _ hw => absurd hw not_mem_rejected
  exact hassigned.mul_left _

/-- Declarations have a name, an equals sign and a value. -/
lemma declaration_parts (h : [t] ∈ node k (assignment false * blank * lineEnd) ∨
    [t] ∈ node k (assignment false)) :
    (t.child? .identifier).isSome ∧ Kind.equals ∈ t.ownLeaves.map Prod.fst ∧
      (t.child? .value).isSome := by
  rcases h with h | h
  · exact ⟨((asks_assignment_identifier.mul_right blank).mul_right lineEnd).isSome_child? h,
      ((asks_assignment_equals.mul_right blank).mul_right lineEnd).mem_ownLeaves h,
      ((asks_assignment_value.mul_right blank).mul_right lineEnd).isSome_child? h⟩
  · exact ⟨asks_assignment_identifier.isSome_child? h, asks_assignment_equals.mem_ownLeaves h,
      asks_assignment_value.isSome_child? h⟩

/-- Lines that run a script have a script or the path of one. -/
lemma scriptLine_parts {marker : Kind} (h : [t] ∈ scriptLine false k marker (scriptOrPath false)) :
    (t.child? .script).isSome ∨ (t.child? .path).isSome := by
  obtain ⟨ts, hts, rfl⟩ := exists_of_node h
  obtain ⟨a, ha, b, _, rfl⟩ := Language.mem_mul.mp hts
  obtain ⟨c, _, d, hd, rfl⟩ := Language.mem_mul.mp ha
  have hmem : ∀ {K : Kind}, (∃ u ∈ d, u.IsNodeOf K) →
      ((Tree.node k (c ++ d ++ b)).child? K).isSome := by
    rintro K ⟨u, hu, hK⟩
    exact Tree.isSome_child? ⟨u, by simp [hu], hK⟩
  rcases hd with hd | hd
  · exact Or.inl (hmem (asks_node .script _ d hd))
  · exact Or.inr (hmem (asks_path d hd))

lemma asks_external : Asks (Tree.IsNodeOf .path) (external false) :=
  asks_path.mul_left _

/-- Responses have a status code. -/
lemma response_statusCode (h : [t] ∈ response false) : (t.child? .statusCode).isSome := by
  have hstatus : Asks (Tree.IsNodeOf .statusCode) (status false) :=
    (((asks_node .statusCode text).mul_right blank).mul_right _).add
      fun _ hw => absurd hw not_mem_rejected
  exact (((hstatus.mul_left _).mul_right lineEnd).mul_right (message false)).isSome_child? h

/-- The parenthesis in front of the arguments of a command is closed. -/
lemma command_closed (h : [t] ∈ command false)
    (ho : Kind.parenOpen ∈ t.ownLeaves.map Prod.fst) :
    Kind.parenClose ∈ t.ownLeaves.map Prod.fst := by
  obtain ⟨ts, hts, rfl⟩ := exists_of_node h
  obtain ⟨a, ha, tail, htail, rfl⟩ := Language.mem_mul.mp hts
  obtain ⟨front, hfront, args, hargs, rfl⟩ := Language.mem_mul.mp ha
  have hblank : Bars (Tree.IsLeafOf .parenOpen) blank := (bars_leaf (by decide)).opt
  have hbars : Bars (Tree.IsLeafOf .parenOpen)
      (node .commandName text * blank * (value false + lapse false)) :=
    (bars_node.mul hblank).mul (bars_node.add fun _ hw => absurd hw (Language.notMem_zero _))
  have hend : Bars (Tree.IsLeafOf .parenOpen) (blank * rest false * lineEnd) :=
    (hblank.mul (Bars.opt fun _ hw => absurd hw not_mem_rejected)).mul
      (bars_leaf (by decide)).opt
  rw [Tree.mem_ownLeaves] at ho ⊢
  obtain ⟨u, hu, hopen⟩ := ho
  simp only [List.mem_append] at hu
  rcases hu with (hu | hu) | hu
  · exact absurd hopen (hbars front hfront u hu)
  · rcases hargs with hargs | hargs
    · obtain rfl := (Language.mem_one args).mp hargs
      exact absurd hu List.not_mem_nil
    · have hasks : Asks (Tree.IsLeafOf .parenClose) (blank * arguments false) :=
        ((asks_leaf .parenClose).add_lapse.mul_left _).mul_left blank
      obtain ⟨v, hv, hclose⟩ := hasks args hargs
      exact ⟨v, by simp [hv], hclose⟩
  · exact absurd hopen (hend tail htail u hu)

end Form

/-! ### Valid documents -/

/-- No part that the grammar requires is missing from a tree, and none is left open. -/
structure Tree.NoneMissing (t : Tree) : Prop where
  errors : t.nodesOf .error = []
  references : ∀ u ∈ t.nodesOf .variable,
    (Variable.ofTree u).closed ∧ (Variable.ofTree u).name.isSome
  scripts : ∀ u ∈ t.nodesOf .script, u.lastLeafKind? = some .scriptClose
  multipart : ∀ u ∈ t.nodesOf .multipartFormData, (u.child? .multipartBoundaryLast).isSome
  headers : ∀ u ∈ t.nodesOf .header, Kind.colon ∈ u.ownLeaves.map Prod.fst
  declarations : ∀ u ∈ t.nodesOf .variableDeclaration ++ t.nodesOf .variableDeclarationInline,
    (u.child? .identifier).isSome ∧ Kind.equals ∈ u.ownLeaves.map Prod.fst ∧
      (u.child? .value).isSome
  scriptLines : ∀ u ∈ t.nodesOf .preRequestScript ++ t.nodesOf .resHandlerScript,
    (u.child? .script).isSome ∨ (u.child? .path).isSome
  files : ∀ u ∈ t.nodesOf .resRedirect ++ t.nodesOf .externalBody
    ++ t.nodesOf .multipartExternalBody, (u.child? .path).isSome
  responses : ∀ u ∈ t.nodesOf .response, (u.child? .statusCode).isSome
  commands : ∀ u ∈ t.nodesOf .command, Kind.parenOpen ∈ u.ownLeaves.map Prod.fst →
    Kind.parenClose ∈ u.ownLeaves.map Prod.fst

namespace Form

/-- A document in which nothing lapses lacks nothing. -/
lemma noneMissing_of_document {t : Tree} (h : [t] ∈ document false) : t.NoneMissing where
  errors := List.eq_nil_iff_forall_not_mem.mpr fun u hu =>
    not_mem_rejected (production_of_mem_nodesOf h hu)
  references := fun u hu => reference_parts (production_of_mem_nodesOf h hu)
  scripts := fun u hu => script_closed (production_of_mem_nodesOf h hu)
  multipart := fun u hu => multipart_closed (production_of_mem_nodesOf h hu)
  headers := fun u hu => header_colon (production_of_mem_nodesOf h hu)
  declarations := fun u hu => by
    rcases List.mem_append.mp hu with hu | hu
    · exact declaration_parts (Or.inl (production_of_mem_nodesOf h hu))
    · exact declaration_parts (Or.inr (production_of_mem_nodesOf h hu))
  scriptLines := fun u hu => by
    rcases List.mem_append.mp hu with hu | hu
    · exact scriptLine_parts (production_of_mem_nodesOf h hu)
    · exact scriptLine_parts (production_of_mem_nodesOf h hu)
  files := fun u hu => by
    simp only [List.mem_append] at hu
    rcases hu with (hu | hu) | hu
    · exact ((asks_path.mul_left _).mul_right _).isSome_child? (production_of_mem_nodesOf h hu)
    · exact asks_external.isSome_child? (production_of_mem_nodesOf h hu)
    · exact (asks_external.mul_right _).isSome_child? (production_of_mem_nodesOf h hu)
  responses := fun u hu => response_statusCode (production_of_mem_nodesOf h hu)
  commands := fun u hu => command_closed (production_of_mem_nodesOf h hu)

end Form

namespace Document

variable {limits : Limits} {source : String} {d : Document}

/-- A computation that is seen to succeed. -/
lemma exists_ok_of_any {α β : Type} {x : Except α β} {q : β → Bool} (h : x.toOption.any q) :
    ∃ y, x = .ok y ∧ q y := by
  cases x with
  | error a => cases h
  | ok y => exact ⟨y, rfl, h⟩

/-- The parse behind a document. -/
lemma exists_of_parse (h : parse limits source = .ok d) :
    ∃ p, Parsed.ofSource limits source = .ok p ∧ d.tree = p.tree ∧
      d.diagnostics = p.reports ++ nameWarnings [] (sectionsOf p.tree) := by
  rw [parse] at h
  cases hp : Parsed.ofSource limits source with
  | error x =>
      rw [hp] at h
      cases h
  | ok p =>
      rw [hp] at h
      cases h
      exact ⟨p, rfl, rfl, rfl⟩

/-- The tree of a document has the form of documents. -/
lemma form_of_parse (h : parse limits source = .ok d) : [d.tree] ∈ Form.document true := by
  obtain ⟨p, hp, htree, _⟩ := exists_of_parse h
  rw [htree]
  exact (Parsed.complete_of_ok hp).form true fun _ => rfl

/-- The names of sections are warned about and make no errors. -/
lemma not_isError_of_mem_nameWarnings {ss : List Section} {seen : List (String × Span)}
    {x : Diagnostic} (hx : x ∈ nameWarnings seen ss) : x.isError = false := by
  induction ss generalizing seen with
  | nil => cases hx
  | cons s ss ih =>
      rw [nameWarnings] at hx
      cases hentry : s.nameEntry with
      | none =>
          rw [hentry] at hx
          exact ih hx
      | some e =>
          cases hvalue : e.value with
          | none =>
              simp only [hentry, hvalue, List.mem_cons] at hx
              rcases hx with rfl | hx
              · rfl
              · exact ih hx
          | some v =>
              simp only [hentry, hvalue] at hx
              cases hfirst : seen.lookup v.text with
              | none =>
                  rw [hfirst] at hx
                  exact ih hx
              | some first =>
                  simp only [hfirst, List.mem_cons] at hx
                  rcases hx with rfl | hx
                  · rfl
                  · exact ih hx

/-- **A document is valid** if its parse has reported no error. -/
lemma isValid_eq (h : parse limits source = .ok d) {p : Parsed}
    (hp : Parsed.ofSource limits source = .ok p) :
    d.isValid = !p.reports.any Diagnostic.isError := by
  obtain ⟨q, hq, _, hdiag⟩ := exists_of_parse h
  obtain rfl : q = p := Except.ok.inj (hq.symm.trans hp)
  rw [isValid, Bool.eq_iff_iff, beq_iff_eq, Diagnostic.errorCount, List.countP_eq_zero, hdiag,
    Bool.not_eq_true', List.any_eq_false, List.forall_mem_append, and_iff_left_iff_imp]
  exact fun _ x hx => by rw [not_isError_of_mem_nameWarnings hx]; exact Bool.false_ne_true

/-- Nothing lapses in the tree of a valid document. -/
lemma form_of_isValid (h : parse limits source = .ok d) (hv : d.isValid) :
    [d.tree] ∈ Form.document false := by
  obtain ⟨p, hp, htree, _⟩ := exists_of_parse h
  have hnone : p.reports.any Diagnostic.isError = false := by
    rwa [isValid_eq h hp, Bool.not_eq_true'] at hv
  rw [htree]
  exact (Parsed.complete_of_ok hp).form false (by simp [hnone])

/-- **Valid documents are complete**: where no error is reported, the tree has no error node, and
every node in it has the parts that its kind requires and is closed where it was opened. -/
theorem noneMissing_of_isValid (h : parse limits source = .ok d) (hv : d.isValid) :
    d.tree.NoneMissing :=
  Form.noneMissing_of_document (form_of_isValid h hv)

/-- A valid document with references, scripts, a command with arguments and a multipart body. -/
theorem noneMissing_of_isValid_multipart : ∃ d, parse defaultLimits
      "run a (@x=1)\n< \x7b% b %\x7d\nPOST /\x7b\x7bc\x7d\x7d\nd: \x7b\x7be\x7d\x7d\n\n--f\n< g\n--f--\n> \x7b% h %\x7d\n"
        = .ok d ∧ d.isValid ∧ d.tree.NoneMissing := by
  obtain ⟨d, hd, hv⟩ : ∃ d, parse defaultLimits
      "run a (@x=1)\n< \x7b% b %\x7d\nPOST /\x7b\x7bc\x7d\x7d\nd: \x7b\x7be\x7d\x7d\n\n--f\n< g\n--f--\n> \x7b% h %\x7d\n"
        = .ok d ∧ d.isValid := exists_ok_of_any (by decide +kernel)
  exact ⟨d, hd, hv, noneMissing_of_isValid hd hv⟩

end Document

end RequestFile
