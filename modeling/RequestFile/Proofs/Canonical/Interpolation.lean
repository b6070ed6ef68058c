import RequestFile.Content.Value
import RequestFile.Proofs.Canonical.Reference
import RequestFile.Proofs.Sites

/-!
Text with any number of references, read exactly.

An `Interpolation` is a row of tokens in which every opener begins a reference to a name: what stands
in front of the first reference, and each reference with what stands behind it.

* **Runs.** The text in front of a reference is one piece (`Cursor.exact_textPiece`), the reference is
  the next (`Cursor.exact_referencePiece`), and the whole is read by induction on the references
  (`Cursor.exact_interpolation`).
* **Contents.** The references at a node over such tokens are those of the row, each closed and with
  its name (`Interpolation.references_eq`).
-/

namespace RequestFile

open Lookahead (IsName)

/-! ### Rows of tokens -/

/-- Tokens on one line, none of which opens a reference. -/
def Token.Unopened (ts : List Token) : Prop :=
  ∀ t ∈ ts, t.kind ≠ .newline ∧ t.kind ≠ .varOpen

instance Token.decidableUnopened (ts : List Token) : Decidable (Token.Unopened ts) :=
  inferInstanceAs (Decidable (∀ t ∈ ts, _))

/-- A reference with the tokens behind it. -/
structure ReferencePart where
  name : List Token
  after : List Token
  isName : IsName name
  unopened : Token.Unopened after

/-- Tokens in which every opener begins a reference to a name. -/
structure Interpolation where
  front : List Token
  parts : List ReferencePart
  unopened : Token.Unopened front

/-- The trees of tokens without a reference: one text, if there are any. -/
def Tree.ofUnopened (ts : List Token) : List Tree :=
  if ts = [] then [] else [.leaf .text (Token.textOf ts)]

namespace ReferencePart

variable (p : ReferencePart)

/-- The tokens of the reference. -/
def reference : List Token :=
  Token.varOpen :: (p.name ++ [Token.varClose])

/-- The tokens of the reference and those behind it. -/
def tokens : List Token :=
  p.reference ++ p.after

/-- The trees of the reference and of what stands behind it. -/
def trees : List Tree :=
  Cursor.referenceTree (Token.textOf p.name) :: Tree.ofUnopened p.after

/-- The reference that is read: it is closed, and the name is all of what stands between its braces. -/
def content : Variable :=
  ⟨"\x7b\x7b" ++ Token.textOf p.name ++ "\x7d\x7d", some (Token.textOf p.name), true⟩

end ReferencePart

namespace Interpolation

variable (i : Interpolation)

/-- The tokens of the row. -/
def tokens : List Token :=
  i.front ++ i.parts.flatMap ReferencePart.tokens

/-- The trees of the row. -/
def trees : List Tree :=
  Tree.ofUnopened i.front ++ i.parts.flatMap ReferencePart.trees

/-- The references in the row. -/
def references : List Variable :=
  i.parts.map ReferencePart.content

end Interpolation

namespace ReferencePart

variable (p : ReferencePart)

lemma newline_of_reference : ∀ t ∈ p.reference, t.kind ≠ .newline := by
  rw [reference, List.forall_mem_cons, List.forall_mem_append, List.forall_mem_singleton]
  exact ⟨by decide, p.isName.newline, by decide⟩

lemma newline_of_tokens : ∀ t ∈ p.tokens, t.kind ≠ .newline :=
  List.forall_mem_append.mpr ⟨p.newline_of_reference, fun t ht => (p.unopened t ht).1⟩

/-- References with what stands behind them stand on one line. -/
lemma newline_of_parts (ps : List ReferencePart) :
    ∀ t ∈ ps.flatMap ReferencePart.tokens, t.kind ≠ .newline := by
  intro t ht
  obtain ⟨p, _, hp⟩ := List.mem_flatMap.mp ht
  exact p.newline_of_tokens t hp

/-- References begin with an opener. -/
lemma startsWith_parts (ps : List ReferencePart) : ps.flatMap ReferencePart.tokens = [] ∨
    Lookahead.startsWith .varOpen (ps.flatMap ReferencePart.tokens) := by
  cases ps with
  | nil => exact .inl rfl
  | cons p ps => exact .inr rfl

end ReferencePart

/-- The row stands on one line. -/
lemma Interpolation.newline_of_tokens (i : Interpolation) : ∀ t ∈ i.tokens, t.kind ≠ .newline :=
  List.forall_mem_append.mpr
    ⟨fun t ht => (i.unopened t ht).1, ReferencePart.newline_of_parts i.parts⟩

/-! ### Runs -/

namespace Cursor

variable {stop : Nat} {ts us vs : List Token} {new news : List Tree} {c : Cursor}

/-- A piece of text with references, and what follows it. -/
lemma exact_interpolated_cons (hc : c.Live) (hlt : c.read < stop) (hl : stop ≤ c.lineEnd)
    (h : Exact ts new c (interpolatedPiece stop c))
    (h' : Exact us news (interpolatedPiece stop c) ((interpolatedPiece stop c).interpolated stop)) :
    Exact (ts ++ us) (new ++ news) c (c.interpolated stop) := by
  have hend : c.atEnd = false := by
    obtain ⟨t, us, hr, _⟩ := exists_of_lt_lineEnd (hlt.trans_le hl)
    simp [atEnd, hr]
  have hmore : (decide (c.read < stop) && !c.stopped) = true := by
    simp [hc.stopped_eq, hend, hlt]
  have hloop : c.interpolated stop = (interpolatedPiece stop c).interpolated stop :=
    loopWhile_eq (e := true) run_interpolated_turn hc ⟨hlt.le, hl⟩ hmore
  rw [hloop]
  exact h.trans h'

/-- **Text** in front of a reference, or at the end. -/
lemma exact_textPiece (hc : c.Live) (hr : c.rest = ts ++ us) (hne : ts ≠ [])
    (hts : Token.Unopened ts) (hle : c.read + ts.length ≤ stop)
    (hend : stop = c.read + ts.length ∨ ∀ t ∈ us.head?, t.kind = .varOpen) :
    Exact ts [.leaf .text (Token.textOf ts)] c (interpolatedPiece stop c) := by
  have hlook := exact_look hc
  have hr' := (look_rest c).trans hr
  have hbefore : c.look.before varOpenKinds stop = c.look.read + ts.length := by
    rw [← look_read c] at hle hend
    refine before_eq hr' (fun t ht => ?_) hle (hend.imp_right fun hus t ht => ?_)
    · simpa [varOpenKinds, KindSet.contains] using (hts t ht).2
    · simpa [varOpenKinds, KindSet.contains] using hus t ht
  rw [interpolatedPiece, on_neg (not_sees_of_kinds hr hne fun t ht => (hts t ht).2), hbefore]
  exact hlook.trans (exact_textUntil hlook.live hr' hne rfl)

/-- **References** in a text. -/
lemma exact_referencePiece (p : ReferencePart) (hc : c.Live) (hr : c.rest = p.reference ++ us)
    (hle : c.read + p.reference.length ≤ stop) :
    Exact p.reference [referenceTree (Token.textOf p.name)] c (interpolatedPiece stop c) := by
  have hlook := exact_look hc
  have hlength : p.reference.length = p.name.length + 2 := by simp [ReferencePart.reference]
  rw [interpolatedPiece, on_pos (by simp [sees, hr, ReferencePart.reference, Token.varOpen])]
  exact hlook.trans (exact_variableRef hlook.live ((look_rest c).trans hr) p.isName
    (by rw [look_read]; omega))

/-- Tokens without a reference in front of a text that is read exactly. -/
lemma exact_unopened (hc : c.Live) (hr : c.rest = ts ++ (us ++ vs)) (hts : Token.Unopened ts)
    (hs : stop = c.read + (ts.length + us.length)) (hl : ∀ t ∈ us, t.kind ≠ .newline)
    (hus : us = [] ∨ Lookahead.startsWith .varOpen us)
    (h : ∀ d : Cursor, d.Live → d.rest = us ++ vs → stop = d.read + us.length →
      Exact us news d (d.interpolated stop)) :
    Exact (ts ++ us) (Tree.ofUnopened ts ++ news) c (c.interpolated stop) := by
  by_cases hnil : ts = []
  · subst hnil
    exact h c hc hr (by simpa using hs)
  have hpos := List.length_pos_of_ne_nil hnil
  have hline : stop ≤ c.lineEnd := by
    rw [← List.append_assoc] at hr
    have hle := le_lineEnd hr (List.forall_mem_append.mpr ⟨fun t ht => (hts t ht).1, hl⟩)
    rw [List.length_append] at hle
    omega
  have hend : stop = c.read + ts.length ∨ ∀ t ∈ (us ++ vs).head?, t.kind = .varOpen := by
    rcases hus with rfl | hopen
    · exact .inl (by simpa using hs)
    · obtain ⟨t, us, rfl, hk⟩ := Lookahead.exists_of_startsWith hopen
      exact .inr fun u hu => Option.some.inj hu ▸ hk
  have htext := exact_textPiece hc hr hnil hts (by omega) hend
  rw [Tree.ofUnopened, if_neg hnil]
  exact exact_interpolated_cons hc (by omega) hline htext
    (h _ htext.live (htext.rest_eq hr) (by rw [htext.read]; omega))

/-- References with what stands behind them, by induction on their number. -/
lemma exact_referenceParts (ps : List ReferencePart) (hc : c.Live)
    (hr : c.rest = ps.flatMap ReferencePart.tokens ++ us)
    (hs : stop = c.read + (ps.flatMap ReferencePart.tokens).length) :
    Exact (ps.flatMap ReferencePart.tokens) (ps.flatMap ReferencePart.trees) c
      (c.interpolated stop) := by
  induction ps generalizing c with
  | nil =>
      rw [interpolated, loopWhile_of_not (by simp [hs])]
      exact .refl hc
  | cons p ps ih =>
      have hline : stop ≤ c.lineEnd := hs ▸ le_lineEnd hr (ReferencePart.newline_of_parts _)
      rw [List.flatMap_cons, ReferencePart.tokens, List.append_assoc] at hr hs ⊢
      rw [List.flatMap_cons, ReferencePart.trees, List.cons_append]
      rw [List.append_assoc] at hr
      rw [List.length_append, List.length_append] at hs
      have hpos : 0 < p.reference.length := Nat.succ_pos _
      have hle : c.read + p.reference.length ≤ stop := by omega
      have href := exact_referencePiece p hc hr hle
      have hrest := exact_unopened href.live (href.rest_eq hr) p.unopened
        (by rw [href.read]; omega) (ReferencePart.newline_of_parts ps)
        (ReferencePart.startsWith_parts ps) fun d hd hr hs => ih hd hr hs
      have hboth := exact_interpolated_cons hc (by omega) hline href hrest
      rwa [List.singleton_append] at hboth

/-- **Text with references** is read as its trees, whatever follows it. -/
lemma exact_interpolation (i : Interpolation) (hc : c.Live) (hr : c.rest = i.tokens ++ us)
    (hs : stop = c.read + i.tokens.length) : Exact i.tokens i.trees c (c.interpolated stop) := by
  rw [Interpolation.tokens, List.append_assoc] at hr
  rw [Interpolation.tokens, List.length_append] at hs
  exact exact_unopened hc hr i.unopened hs (ReferencePart.newline_of_parts _)
    (ReferencePart.startsWith_parts _) fun d hd hr hs => exact_referenceParts i.parts hd hr hs

end Cursor

/-! ### Contents -/

namespace Interpolation

variable (i : Interpolation)

/-- The reference at the node over it. -/
lemma ofTree_reference (s : String) :
    Variable.ofTree (Cursor.referenceTree s) = ⟨"\x7b\x7b" ++ s ++ "\x7d\x7d", some s, true⟩ := by
  have hleaf : ∀ (k : Kind) (s : String), (Tree.leaf k s).text = s := fun k s =>
    (Tree.textOf_singleton _).symm.trans (Tree.textOf_leaf k s)
  have hlast : (Cursor.referenceTree s).lastLeafKind? = some .varClose := rfl
  rw [Variable.ofTree, hlast]
  simp [Cursor.referenceTree, Tree.text_node, Tree.textOf_cons, hleaf, Tree.child?, Tree.children,
    Tree.isNode, Tree.kind, String.append_assoc]

lemma textOf_trees : Tree.textOf i.trees = Token.textOf i.tokens := by
  have htext : ∀ ts, Tree.textOf (Tree.ofUnopened ts) = Token.textOf ts := by
    intro ts
    rw [Tree.ofUnopened]
    split_ifs with hnil
    · rw [hnil, Tree.textOf_nil, Token.textOf_nil]
    · exact Tree.textOf_leaf _ _
  have href : ∀ s, (Cursor.referenceTree s).text = "\x7b\x7b" ++ s ++ "\x7d\x7d" := fun s =>
    congrArg Variable.text (ofTree_reference s)
  have hpart : ∀ p : ReferencePart, Tree.textOf p.trees = Token.textOf p.tokens := by
    intro p
    rw [ReferencePart.trees, ReferencePart.tokens, ReferencePart.reference, Tree.textOf_cons, href,
      htext]
    simp [Token.varOpen, Token.varClose, String.append_assoc]
  have hparts : ∀ ps : List ReferencePart, Tree.textOf (ps.flatMap ReferencePart.trees)
      = Token.textOf (ps.flatMap ReferencePart.tokens) := by
    intro ps
    induction ps with
    | nil => rfl
    | cons p ps ih =>
        rw [List.flatMap_cons, List.flatMap_cons, Tree.textOf_append, Token.textOf_append, hpart, ih]
  rw [trees, tokens, Tree.textOf_append, Token.textOf_append, htext, hparts]

/-- **The references** at a node over a row are those in it. -/
lemma references_eq (K : Kind) :
    ((Tree.node K i.trees).childrenOf .variable).map Variable.ofTree = i.references := by
  have htext : ∀ ts, (Tree.ofUnopened ts).filter (fun t => t.isNode && t.kind == .variable) = [] := by
    intro ts
    rw [Tree.ofUnopened]
    split_ifs <;> rfl
  rw [Tree.childrenOf, Tree.children, trees, List.filter_append, htext, List.nil_append, references]
  induction i.parts with
  | nil => rfl
  | cons p ps ih =>
      rw [List.flatMap_cons, List.filter_append, List.map_append, ih, ReferencePart.trees,
        List.filter_cons_of_pos rfl, htext, List.map_singleton, ofTree_reference]
      rfl

/-- Below a row there are nodes of references and their names only. -/
lemma nodesOfAll_trees {K : Kind} (hK : K ≠ .variable ∧ K ≠ .identifier) :
    Tree.nodesOfAll K i.trees = [] := by
  have htext : ∀ ts, Tree.nodesOfAll K (Tree.ofUnopened ts) = [] := by
    intro ts
    rw [Tree.ofUnopened]
    split_ifs <;> rfl
  have hpart : ∀ p : ReferencePart, Tree.nodesOfAll K p.trees = [] := by
    intro p
    rw [ReferencePart.trees, Tree.nodesOfAll, htext, List.append_nil, Cursor.referenceTree,
      Tree.nodesOf_node_of_ne hK.1.symm]
    simp [Tree.nodesOfAll, Tree.nodesOf_leaf, Tree.nodesOf_node_of_ne hK.2.symm]
  rw [trees, Tree.nodesOfAll_append, htext, List.nil_append]
  induction i.parts with
  | nil => rfl
  | cons p ps ih => rw [List.flatMap_cons, Tree.nodesOfAll_append, hpart, ih, List.append_nil]

end Interpolation

end RequestFile
