import RequestFile.Proofs.Canonical.Boundary
import RequestFile.Proofs.Canonical.Single
import RequestFile.Proofs.Entered.Basic

/-!
Parsing multipart bodies back.

Whatever hyphens a boundary begins and ends with, the document of a request with such a body has no
diagnostics, and its boundary lines hold the boundary (`MultipartModel.parse_multipart`).

* **Turns.** Each line of the body is one turn of its loop. The line in front of a part goes on
  (`Cursor.exact_openTurn`), and the line behind the last one ends the loop
  (`Cursor.exact_closeTurn`).
* **Bodies.** The parts are read by induction on their number (`Cursor.exact_laterParts`).
* **Nodes.** All of the tree is known but for the pieces of the URL, below which there are nodes of
  other kinds only (`MultipartModel.nodesOf_document`).
-/

namespace RequestFile

open RequestModel (postRequest)

/-! ### Trees -/

namespace MultipartModel

variable (m : MultipartModel)

/-- The tree of the line of a part. -/
def contentTree : Tree :=
  .node .multipartContentLine [.leaf .text "hello", .leaf .newline "\n"]

/-- The trees of a part with the line in front of it. -/
def partTrees (b : Cursor.Boundary) : List Tree :=
  [m.boundaryTree b, contentTree]

/-- The trees of some parts after the first and of the line behind them. -/
def laterTrees : Nat → List Tree
  | 0 => [m.boundaryTree .last]
  | n + 1 => m.partTrees .inner ++ laterTrees n

/-- The tokens of some parts after the first and of the line behind them. -/
def laterTokens : Nat → List Token
  | 0 => Token.lineTokens m.closeLine
  | n + 1 => Token.lineTokens m.openLine ++ (Token.lineTokens "hello" ++ laterTokens n)

/-- The tree of the body. -/
def bodyTree : Tree :=
  .node .multipartFormData (m.partTrees .first ++ m.laterTrees m.more)

/-- The tokens of the body, the first part apart. -/
lemma flatMap_bodyLines : m.bodyLines.flatMap Token.lineTokens
    = Token.lineTokens m.openLine ++ (Token.lineTokens "hello" ++ m.laterTokens m.more) := by
  have hlater : ∀ n, ((List.replicate n m.partLines).flatten ++ [m.closeLine]).flatMap
      Token.lineTokens = m.laterTokens n := by
    intro n
    induction n with
    | zero => exact List.flatMap_singleton _ _
    | succ n ih =>
        rw [List.replicate_succ, List.flatten_cons, List.append_assoc, List.flatMap_append, ih,
          partLines, List.flatMap_cons, List.flatMap_singleton, List.append_assoc, laterTokens]
  rw [bodyLines, List.append_assoc, List.flatMap_append, hlater, partLines, List.flatMap_cons,
    List.flatMap_singleton, List.append_assoc]

end MultipartModel

namespace Cursor

variable {us : List Token} {c c' : Cursor} (m : MultipartModel) (opener : Span)

/-! ### Turns -/

/-- A line that begins with a word or with hyphens does not end the body. -/
lemma not_ends_multipart {t : Token} (hc : c.Live) (hr : c.rest = t :: us)
    (ht : t.kind = .word ∨ t.kind = .doubleDash) :
    (c.stopped || c.atSeparator || Lookahead.isHandler c.rest) = false ∧ c.atBlankLine = false := by
  rcases ht with ht | ht <;>
    simp [hc.stopped_eq, atEnd, atSeparator, Lookahead.isSeparatorLine, Lookahead.isHandler, hr, ht,
      atBlankLine, Lookahead.isBlankLine_cons]

/-- **Lines of text** in a part. -/
lemma exact_multipartContent {ts : List Token} (hc : c.Live)
    (hr : c.rest = ts ++ Token.lineFeed :: us) (hne : ts ≠ []) (hl : ∀ t ∈ ts, t.kind ≠ .newline) :
    Exact (ts ++ [Token.lineFeed])
      [.node .multipartContentLine [.leaf .text (Token.textOf ts), .leaf .newline "\n"]] c
      c.multipartContent := by
  have htext := exact_textUntil hc.opened hr hne (lineEnd_eq (c := c.opened) hr hl rfl)
  exact (htext.trans (exact_eatNewline htext.live (htext.rest_eq hr))).node

/-- **The line of a part.** -/
lemma exact_contentTurn (hc : c.Live) (hr : c.rest = Token.lineTokens "hello" ++ us) :
    ∃ d, multipartTurn opener c = .again d ∧
      Exact (Token.lineTokens "hello") [MultipartModel.contentTree] c d := by
  have htokens : Token.lineTokens "hello" = [⟨.word, "hello"⟩] ++ [Token.lineFeed] := by
    decide +kernel
  rw [htokens] at hr ⊢
  obtain ⟨hmore, hblank⟩ := not_ends_multipart hc hr (.inl rfl)
  have hlook := exact_look hc
  have hr' : c.look.rest = [⟨.word, "hello"⟩] ++ Token.lineFeed :: us := (look_rest c).trans hr
  have hcontent := exact_multipartContent hlook.live hr' (List.cons_ne_nil _ _) (by simp)
  have hother : Lookahead.isBoundary c.look.rest = false ∧
      Lookahead.isExternal c.look.rest = false ∧ Lookahead.isHeader c.look.rest = false := by
    rw [hr']
    exact ⟨rfl, rfl, rfl⟩
  refine ⟨c.look.multipartContent, ?_, hlook.trans hcontent⟩
  simp only [multipartTurn, hmore, hblank, hother, Bool.false_eq_true, if_false]

/-- **Boundary lines** after the first. -/
lemma exact_boundaryTurn {b : Boundary} {ts : List Token} (hc : c.Live) (hb : b ≠ .first)
    (hr : c.rest = Token.hyphenPair :: (ts ++ (b.closing ++ Token.lineFeed :: us)))
    (hts : Token.Spells m.boundary ts)
    (hlast : b = .inner → ∀ t ∈ ts.getLast?, t.kind ≠ .doubleDash) :
    ∃ d, multipartTurn opener c = (if b = .last then .done d else .again d) ∧
      Exact (Token.hyphenPair :: (ts ++ (b.closing ++ [Token.lineFeed]))) [m.boundaryTree b] c
        d := by
  obtain ⟨hmore, hblank⟩ := not_ends_multipart hc hr (.inr rfl)
  have hlook := exact_look hc
  have hr' := (look_rest c).trans hr
  have hline := exact_boundaryLine m hlook.live hr' hts
  have hbound : Lookahead.isBoundary c.look.rest = true := by
    obtain ⟨t, ts, rfl⟩ := List.exists_cons_of_ne_nil hts.ne_nil
    rw [hr']
    simp [Lookahead.isBoundary, Token.hyphenPair, hts.whitespace t List.mem_cons_self]
  have hhere : c.look.boundaryHere c.look.boundaryTextEnd = b := by
    rw [boundaryTextEnd_closing hr' hts]
    exact boundaryHere_eq hb hr' hts.ne_nil hlast
  refine ⟨c.look.boundaryLine b c.look.boundaryTextEnd, ?_, hlook.trans hline⟩
  simp only [multipartTurn, hmore, hblank, hbound, hhere, Bool.false_eq_true, if_false, if_true]
  cases b with
  | first => exact absurd rfl hb
  | inner => rfl
  | last => rfl

/-- The line in front of a part after the first. -/
lemma exact_openTurn (hmore : m.more ≠ 0) (hc : c.Live)
    (hr : c.rest = Token.lineTokens m.openLine ++ us) :
    ∃ d, multipartTurn opener c = .again d ∧
      Exact (Token.lineTokens m.openLine) [m.boundaryTree .inner] c d := by
  rw [Token.lineTokens_openLine] at hr ⊢
  rw [List.cons_append, List.append_assoc] at hr
  exact exact_boundaryTurn (b := .inner) m opener hc (by decide) hr (Token.spells_boundaryTokens m)
    fun _ => Token.getLast_boundaryTokens m hmore

/-- The line behind the last part. -/
lemma exact_closeTurn (hc : c.Live) (hr : c.rest = Token.lineTokens m.closeLine ++ us) :
    ∃ d, multipartTurn opener c = .done d ∧
      Exact (Token.lineTokens m.closeLine) [m.boundaryTree .last] c d := by
  obtain ⟨ts, hts, htokens⟩ := Token.exists_closing m
  rw [htokens] at hr ⊢
  rw [List.cons_append, List.append_assoc] at hr
  exact exact_boundaryTurn (b := .last) m opener hc (by decide) hr hts fun h => by cases h

/-- The line in front of the first part. -/
lemma exact_firstLine (hc : c.Live) (hr : c.rest = Token.lineTokens m.openLine ++ us) :
    Exact (Token.lineTokens m.openLine) [m.boundaryTree .first] c
      (c.boundaryLine .first c.boundaryTextEnd) := by
  rw [Token.lineTokens_openLine] at hr ⊢
  rw [List.cons_append, List.append_assoc] at hr
  exact exact_boundaryLine (b := .first) m hc hr (Token.spells_boundaryTokens m)

/-! ### Bodies -/

/-- **The parts after the first** and the line behind them, by induction on their number: each part
is two turns of the loop. -/
lemma exact_laterParts {n : Nat} (hn : n ≤ m.more) (hc : c.Live) (ha : c.Aligned)
    (hr : c.rest = m.laterTokens n ++ us) :
    Exact (m.laterTokens n) (m.laterTrees n) c (c.loop (multipartTurn opener)) := by
  have hturns := fun d hd ha => run_multipartTurn (e := true) (c := d) opener hd ha
  induction n generalizing c with
  | zero =>
      obtain ⟨d, hturn, hclose⟩ := exact_closeTurn m opener hc hr
      rw [loop_of_done hturn]
      exact hclose
  | succ n ih =>
      rw [MultipartModel.laterTokens, List.append_assoc, List.append_assoc] at hr
      obtain ⟨d, hturn, hopen⟩ := exact_openTurn m opener (by omega) hc hr
      have hopened := hopen.aligned rfl
      obtain ⟨d', hturn', hcontent⟩ := exact_contentTurn opener hopen.live (hopen.rest_eq hr)
      have hlater := ih (by omega) hcontent.live (hcontent.aligned rfl)
        (hcontent.rest_eq (hopen.rest_eq hr))
      rw [loop_eq hturns hc ha hturn, loop_eq hturns hopen.live hopened hturn']
      exact hopen.trans (hcontent.trans hlater)

/-- **Multipart bodies.** -/
lemma exact_multipart (hc : c.Live) (hr : c.rest = m.bodyLines.flatMap Token.lineTokens ++ us) :
    Exact (m.bodyLines.flatMap Token.lineTokens) [m.bodyTree] c c.multipart := by
  rw [m.flatMap_bodyLines] at hr ⊢
  rw [List.append_assoc, List.append_assoc] at hr
  have hfirst := exact_firstLine m hc.opened hr
  have hrest := hfirst.rest_eq (c := c.opened) hr
  obtain ⟨d, hturn, hcontent⟩ := exact_contentTurn c.span hfirst.live hrest
  have hlater := exact_laterParts m c.span le_rfl hcontent.live (hcontent.aligned rfl)
    (hcontent.rest_eq hrest)
  have hloop := loop_eq (fun d hd ha => run_multipartTurn (e := true) (c := d) c.span hd ha)
    hfirst.live (hfirst.aligned rfl) hturn
  rw [← hloop] at hlater
  exact (hfirst.trans (hcontent.trans hlater)).node

/-- Hyphens with a text right behind them begin a multipart body. -/
lemma ofTokens_multipart : ∃ t ts, m.bodyLines.flatMap Token.lineTokens ++ us = t :: ts ∧
    t.kind ≠ .separatorMarker ∧ BodyLine.ofTokens (t :: ts) = .multipart := by
  have hspells := Token.spells_boundaryTokens m
  obtain ⟨t, ts, ht⟩ := List.exists_cons_of_ne_nil hspells.ne_nil
  have hmem : t ∈ Token.boundaryTokens m := by
    rw [ht]
    exact List.mem_cons_self
  have hw := hspells.whitespace t hmem
  have hn := hspells.newline t hmem
  obtain ⟨rest, hrest⟩ : ∃ rest, m.bodyLines.flatMap Token.lineTokens ++ us
      = Token.hyphenPair :: t :: rest := by
    rw [m.flatMap_bodyLines, Token.lineTokens_openLine, ht]
    exact ⟨_, rfl⟩
  refine ⟨Token.hyphenPair, t :: rest, hrest, by decide, ?_⟩
  simp [BodyLine.ofTokens, Lookahead.isBlankLine_cons, Token.hyphenPair, hw, hn]

end Cursor

/-! ### Documents -/

namespace MultipartModel

variable (m : MultipartModel) (url : List Tree)

/-- The tree of the section, by the pieces of its URL. -/
def sectionTree : Tree :=
  .node .section
    [.node .request (postRequest.requestLineTrees url ++ [.leaf .newline "\n", m.bodyTree])]

lemma lineTokens_lines : m.lines.flatMap Token.lineTokens
    = Token.lineTokens postRequest.requestLine
      ++ Token.lineFeed :: m.bodyLines.flatMap Token.lineTokens := by
  have hline : postRequest.requestLine = "POST /u" := rfl
  have hempty : Token.lineTokens "" = [Token.lineFeed] := rfl
  rw [lines, List.flatMap_append, List.flatMap_cons, List.flatMap_singleton, hempty, hline,
    List.append_assoc]
  rfl

lemma oneLine_of_mem_lines : ∀ l ∈ m.lines, OneLine l := by
  have hopen : OneLine m.openLine := .append (by simp [OneLine]) m.boundary_text.oneLine
  have hclose : OneLine m.closeLine := .append hopen (by simp [OneLine])
  have hpart : ∀ l ∈ m.partLines, OneLine l := by
    rw [partLines, List.forall_mem_cons, List.forall_mem_singleton]
    exact ⟨hopen, by simp [OneLine]⟩
  have hmore : ∀ l ∈ (List.replicate m.more m.partLines).flatten, OneLine l := by
    intro l hl
    obtain ⟨p, hp, hmem⟩ := List.mem_flatten.mp hl
    rw [List.eq_of_mem_replicate hp] at hmem
    exact hpart l hmem
  rw [lines, bodyLines]
  simp only [List.forall_mem_append, List.forall_mem_cons]
  exact ⟨⟨by simp [OneLine], by simp [OneLine], by simp⟩, ⟨hpart, hmore⟩, hclose, by simp⟩

end MultipartModel

namespace Cursor

variable {us : List Token} {c : Cursor} (m : MultipartModel)

/-- What stands below the request line. -/
lemma exact_multipartMessage (hc : c.Live) (ha : c.Aligned)
    (hr : c.rest = Token.lineFeed :: (m.bodyLines.flatMap Token.lineTokens ++ us))
    (hend : AtSectionEnd us) :
    Exact (Token.lineFeed :: m.bodyLines.flatMap Token.lineTokens)
      [.leaf .newline "\n", m.bodyTree] c c.message := by
  have hr' : c.rest = (([] : List HeaderModel).map HeaderModel.line).flatMap Token.lineTokens
      ++ Token.lineFeed :: (m.bodyLines.flatMap Token.lineTokens ++ us) := hr
  obtain ⟨_, rfl, hexact⟩ := exact_messageWithBody (P := (· = [m.bodyTree])) hc ha hr' hend
    (ofTokens_multipart m) fun d hd _ hrest => ⟨_, rfl, exact_multipart m hd hrest⟩
  exact hexact

/-- **Sections** of a request with a multipart body, in front of which no separator stands. -/
lemma exact_multipartSection (hc : c.Live) (hr : c.rest = m.lines.flatMap Token.lineTokens) :
    ∃ url, Exact (m.lines.flatMap Token.lineTokens) [m.sectionTree url] c c.fullSection := by
  have htokens := m.lineTokens_lines
  obtain ⟨_, ⟨url, rfl⟩, hsection⟩ := exact_sectionOf
    (P := fun t => ∃ url, t = .node .request
      (postRequest.requestLineTrees url ++ [.leaf .newline "\n", m.bodyTree]))
    postRequest.method_known hc (hr.trans htokens) fun d hd hrest => by
      rw [hr, htokens, ← List.append_nil (Token.lineFeed :: _)] at hrest
      obtain ⟨url, _, _, rfl, hrequest⟩ := exact_requestWith postRequest
        (P := (· = [.leaf .newline "\n", m.bodyTree])) hd hrest (by simp [Token.lineFeed])
        fun e he hae hrest => ⟨_, rfl, exact_multipartMessage m he hae hrest (Or.inl rfl)⟩
      rw [← htokens, ← hr] at hrequest
      exact ⟨_, ⟨url, rfl⟩, hrequest⟩
  rw [hr] at hsection
  exact ⟨url, hsection⟩

end Cursor

namespace MultipartModel

variable (m : MultipartModel)

/-! ### Nodes -/

/-- The nodes of a body, line by line. -/
lemma nodesOfAll_bodyTree (k : Kind) : Tree.nodesOfAll k m.bodyTree.children
    = Tree.nodesOfAll k (m.partTrees .first)
      ++ ((List.replicate m.more (Tree.nodesOfAll k (m.partTrees .inner))).flatten
        ++ (m.boundaryTree .last).nodesOf k) := by
  have hlater : ∀ n, Tree.nodesOfAll k (m.laterTrees n)
      = (List.replicate n (Tree.nodesOfAll k (m.partTrees .inner))).flatten
        ++ (m.boundaryTree .last).nodesOf k := by
    intro n
    induction n with
    | zero => exact List.append_nil _
    | succ n ih =>
        rw [laterTrees, Tree.nodesOfAll_append, ih, List.replicate_succ, List.flatten_cons,
          List.append_assoc]
  rw [bodyTree, Tree.children, Tree.nodesOfAll_append, hlater]

lemma getLast_laterTrees (n : Nat) : (m.laterTrees n).getLast? = some (m.boundaryTree .last) := by
  induction n with
  | zero => rfl
  | succ n ih => rw [laterTrees, List.getLast?_append, ih, Option.some_or]

/-- The kinds of nodes from a URL down. -/
def urlKinds : List Kind :=
  [.targetUrl, .queryString, .queryParamContinuation, .queryParam, .queryParamName,
    .queryParamValue, .fragment, .operator, .variable, .identifier, .error]

lemma kindsBelow_url : Tree.KindsBelow (· ∈ urlKinds) where
  error := by decide
  slots := by decide +kernel

/-- Nodes of other kinds than those around the body are nodes of the body. -/
lemma nodesOf_document {url : List Tree} {k : Kind}
    (h : [.node .document [m.sectionTree url]] ∈ Form.document true)
    (hk : k ∉ [.document, .section, .request, .method] ++ urlKinds) :
    (Tree.node .document [m.sectionTree url]).nodesOf k = m.bodyTree.nodesOf k := by
  have htrees : postRequest.requestLineTrees url ++ [.leaf .newline "\n", m.bodyTree]
      = [.node .method [.leaf .text "POST"], .leaf .whitespace " ", .node .targetUrl url,
        .leaf .newline "\n", .leaf .newline "\n", m.bodyTree] := rfl
  have hmem : Tree.node .targetUrl url
      ∈ postRequest.requestLineTrees url ++ [.leaf .newline "\n", m.bodyTree] := by
    simp [htrees]
  have hevery := (Form.Whole.every (e := true) (m := true) _ h).1.2.1.2.1.2.of_mem hmem
  have hkinds := kindsBelow_url.every hevery fun _ => List.mem_cons_self
  have hurl : (Tree.node .targetUrl url).nodesOf k = [] := by
    refine List.eq_nil_iff_forall_not_mem.mpr fun u hu => hk ?_
    obtain ⟨hkind, rfl⟩ := hkinds.of_mem_nodesOf hu
    exact List.mem_append_right _ hkind
  simp only [List.mem_append, List.mem_cons, List.not_mem_nil, or_false, not_or] at hk
  obtain ⟨⟨hdocument, hsection, hrequest, hmethod⟩, _⟩ := hk
  rw [Tree.nodesOf_node_of_ne (Ne.symm hdocument), sectionTree, htrees]
  simp only [Tree.nodesOfAll, Tree.nodesOf_node_of_ne (Ne.symm hsection),
    Tree.nodesOf_node_of_ne (Ne.symm hrequest), Tree.nodesOf_node_of_ne (Ne.symm hmethod), hurl,
    Tree.nodesOf_leaf, List.nil_append, List.append_nil]

/-- The parse of a request with a multipart body. -/
lemma ofSource_lines : ∃ p url,
    Parsed.ofSource Document.defaultLimits (unlines m.lines) = .ok p ∧
      p.tree = .node .document [m.sectionTree url] ∧ p.reports = [] ∧
      [p.tree] ∈ Form.document true := by
  have hscan := Token.scan_unlines m.oneLine_of_mem_lines
  have hc := Cursor.live_start (unlines m.lines)
  obtain ⟨url, hsection⟩ := Cursor.exact_multipartSection m hc hscan
  rw [← hscan] at hsection
  have hne : Token.scan (unlines m.lines) ≠ [] := by
    rw [hscan, lineTokens_lines]
    simp
  obtain ⟨p, hp⟩ := Parsed.ofSource_of_section hne hsection
  exact ⟨p, url, hp⟩

/-- The node of the boundary in a boundary line. -/
def valueTree : Tree :=
  .node .boundaryValue [.leaf .text m.boundary]

lemma nodesOf_bodyTree {k : Kind} (h : k ≠ .multipartFormData) :
    m.bodyTree.nodesOf k = Tree.nodesOfAll k m.bodyTree.children :=
  Tree.nodesOf_node_of_ne h.symm _

/-- One body. -/
lemma nodesOf_multipartFormData : m.bodyTree.nodesOf .multipartFormData = [m.bodyTree] := by
  have hnone : Tree.nodesOfAll .multipartFormData m.bodyTree.children = [] := by
    have hpart : ∀ b, Tree.nodesOfAll .multipartFormData (m.partTrees b) = [] := by
      intro b
      cases b <;> rfl
    have hlast : (m.boundaryTree .last).nodesOf .multipartFormData = [] := rfl
    rw [nodesOfAll_bodyTree, hpart, hpart, hlast]
    simp
  have hself : m.bodyTree.nodesOf .multipartFormData
      = m.bodyTree :: Tree.nodesOfAll .multipartFormData m.bodyTree.children := rfl
  rw [hself, hnone]

/-- Boundary lines between parts. -/
lemma nodesOf_multipartBoundary :
    m.bodyTree.nodesOf .multipartBoundary = List.replicate m.more (m.boundaryTree .inner) := by
  have hfirst : Tree.nodesOfAll .multipartBoundary (m.partTrees .first) = [] := rfl
  have hinner : Tree.nodesOfAll .multipartBoundary (m.partTrees .inner)
      = [m.boundaryTree .inner] := rfl
  have hlast : (m.boundaryTree .last).nodesOf .multipartBoundary = [] := rfl
  rw [nodesOf_bodyTree m (by decide), nodesOfAll_bodyTree, hfirst, hinner, hlast,
    List.flatten_replicate_singleton, List.nil_append, List.append_nil]

/-- One boundary line at the end. -/
lemma nodesOf_multipartBoundaryLast :
    m.bodyTree.nodesOf .multipartBoundaryLast = [m.boundaryTree .last] := by
  have hfirst : Tree.nodesOfAll .multipartBoundaryLast (m.partTrees .first) = [] := rfl
  have hinner : Tree.nodesOfAll .multipartBoundaryLast (m.partTrees .inner) = [] := rfl
  have hlast : (m.boundaryTree .last).nodesOf .multipartBoundaryLast = [m.boundaryTree .last] := rfl
  rw [nodesOf_bodyTree m (by decide), nodesOfAll_bodyTree, hfirst, hinner, hlast]
  simp

/-- The boundary on each boundary line. -/
lemma nodesOf_boundaryValue :
    m.bodyTree.nodesOf .boundaryValue = List.replicate (m.more + 2) m.valueTree := by
  have hpart : ∀ b, Tree.nodesOfAll .boundaryValue (m.partTrees b) = [m.valueTree] := by
    intro b
    cases b <;> rfl
  have hlast : (m.boundaryTree .last).nodesOf .boundaryValue = [m.valueTree] := rfl
  rw [nodesOf_bodyTree m (by decide), nodesOfAll_bodyTree, hpart, hpart, hlast,
    List.flatten_replicate_singleton, List.replicate_succ, List.replicate_succ']
  rfl

/-- **Parsing undoes printing** for multipart bodies. Whatever characters of boundaries a boundary
is made of, hyphens at its ends among them, a request with such a body is parsed without diagnostics
to one body with this boundary. There is a boundary line in front of each part after the first and one
that closes the body at its end, and the text of all boundary lines is the boundary. -/
theorem parse_multipart : ∃ d body last,
    Document.parse Document.defaultLimits (unlines m.lines) = .ok d ∧ d.diagnostics = [] ∧
      d.tree.nodesOf .multipartFormData = [body] ∧
      BodyContent.boundaryOf body = some m.boundary ∧
      (d.tree.nodesOf .multipartBoundary).length = m.more ∧
      d.tree.nodesOf .multipartBoundaryLast = [last] ∧ body.children.getLast? = some last ∧
      (d.tree.nodesOf .boundaryValue).map Tree.text = List.replicate (m.more + 2) m.boundary := by
  obtain ⟨p, url, hp, htree, hreports, hform⟩ := m.ofSource_lines
  have hparse := Document.parse_of_single hp hreports (congrArg Document.sectionsOf htree) rfl
  rw [htree] at hform hparse
  have htext : m.valueTree.text = m.boundary := text_node_leaf _ _ _
  refine ⟨_, m.bodyTree, m.boundaryTree .last, hparse, rfl, ?_, ?_, ?_, ?_, ?_, ?_⟩
  · exact (m.nodesOf_document hform (by decide)).trans m.nodesOf_multipartFormData
  · exact congrArg some htext
  · rw [m.nodesOf_document hform (by decide), m.nodesOf_multipartBoundary, List.length_replicate]
  · exact (m.nodesOf_document hform (by decide)).trans m.nodesOf_multipartBoundaryLast
  · rw [bodyTree, Tree.children, List.getLast?_append, getLast_laterTrees, Option.some_or]
  · rw [m.nodesOf_document hform (by decide), m.nodesOf_boundaryValue, List.map_replicate, htext]

/-- Two parts and a boundary of one hyphen: each boundary line is a run of hyphens. -/
def hyphens : MultipartModel where
  boundary := "-"
  more := 1
  boundary_ne := by decide
  boundary_text := by decide
  more_eq := by decide

/-- The hyphen of the boundary is told from those around it. -/
theorem parse_multipart_hyphens : ∃ d body last,
    Document.parse Document.defaultLimits "POST /u\n\n---\nhello\n---\nhello\n-----\n" = .ok d ∧
      d.diagnostics = [] ∧ d.tree.nodesOf .multipartFormData = [body] ∧
      BodyContent.boundaryOf body = some "-" ∧
      (d.tree.nodesOf .multipartBoundary).length = 1 ∧
      d.tree.nodesOf .multipartBoundaryLast = [last] ∧ body.children.getLast? = some last ∧
      (d.tree.nodesOf .boundaryValue).map Tree.text = ["-", "-", "-"] := by
  have hsource : unlines hyphens.lines = "POST /u\n\n---\nhello\n---\nhello\n-----\n" := by
    decide +kernel
  rw [← hsource]
  exact hyphens.parse_multipart

end MultipartModel

end RequestFile
