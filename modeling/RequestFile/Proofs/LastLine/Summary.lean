import RequestFile.Proofs.LastLine.Section
import RequestFile.Proofs.Ranges

/-!
Summaries, without and with the line feed at the end.

* **Trees.** With the line feed a tree is the same, or it is in the last of the trees below it
  (`Placed.Grows`). Names, values, methods, URLs and versions end before their line does, so they
  are the same.
* **Requests.** So a summary is the same as well, but for the kind of its body where that is a lone
  opening angle bracket on the last line (`Placed.Grows.ofRequest`).
* **Documents.** Errors are reported in both or in neither; the line feed changes at most the
  summary of the last request (`Document.parse_lineFeed`).
-/

namespace RequestFile

variable {ts : List Token} {source : String}

/-! ### Trees -/

/-- A tree without and with the line feed below it. -/
inductive Tree.Grows (ts : List Token) : Tree → Tree → Prop
  | same (t : Tree) : Grows ts t t
  | node {k : Kind} {vs vs' : List Tree} : k ∉ shortKinds → Ended ts vs vs' →
      Grows ts (.node k vs) (.node k vs')

namespace Tree.Grows

variable {t t' : Tree}

lemma kind_eq (h : Grows ts t t') : t'.kind = t.kind := by
  cases h <;> rfl

lemma isNode_eq (h : Grows ts t t') : t'.isNode = t.isNode := by
  cases h <;> rfl

/-- What ends before its line does is the same. -/
lemma eq_of_short (h : Grows ts t t') (hk : t.kind ∈ shortKinds) : t' = t := by
  cases h with
  | same => rfl
  | node hnot _ => exact absurd hk hnot

end Tree.Grows

namespace Placed

variable {x y : Placed} {k : Kind}

/-- The kinds of bodies that the line feed may turn into one another. -/
def bodyKinds : List Kind :=
  [.xmlBody, .rawBody]

lemma not_mem_bodyKinds : ∀ k ∈ Tree.shortKinds, k ∉ bodyKinds := by
  decide

/-- A tree at its place, without and with the line feed below it. -/
structure Grows (ts : List Token) (x y : Placed) : Prop where
  start : y.start = x.start
  tree : x.tree.Grows ts y.tree

lemma Grows.same (x : Placed) : Grows ts x x :=
  ⟨rfl, .same _⟩

/-- Neighbouring trees without and with the line feed at their end. -/
inductive Ended (ts : List Token) : List Placed → List Placed → Prop
  | same (xs : List Placed) : Ended ts xs xs
  | lineFeed (xs : List Placed) (o : Nat) : Ended ts xs (xs ++ [⟨o, .leaf .newline "\n"⟩])
  | last (xs : List Placed) {x y : Placed} : x.Grows ts y → Ended ts (xs ++ [x]) (xs ++ [y])
  /-- A lone opening angle bracket is no longer XML. -/
  | lone (xs : List Placed) (o : Nat) {vs vs' : List Tree} : LoneBracket ts →
      Ended ts (xs ++ [⟨o, .node .xmlBody vs⟩]) (xs ++ [⟨o, .node .rawBody vs'⟩])

lemma ended_sequence {us us' : List Tree} (h : Tree.Ended ts us us') (o : Nat) :
    Ended ts (sequence o us) (sequence o us') := by
  cases h with
  | lineFeed us =>
      rw [sequence_append]
      exact .lineFeed _ _
  | node us hk h =>
      rw [sequence_append, sequence_append]
      exact .last _ ⟨rfl, .node hk h⟩
  | lone us h =>
      rw [sequence_append, sequence_append]
      exact .lone _ _ h

namespace Grows

/-- **The trees below** differ in the last one at most. -/
lemma children (h : x.Grows ts y) : Ended ts x.children y.children := by
  obtain ⟨o, t⟩ := x
  obtain ⟨o', t'⟩ := y
  obtain ⟨rfl, h⟩ := h
  cases h with
  | same => exact .same _
  | node _ h => exact ended_sequence h _

/-- The nodes of a kind, bodies apart, differ in the last one at most. -/
lemma childrenOf (h : x.Grows ts y) (hk : k ∉ bodyKinds) :
    y.childrenOf k = x.childrenOf k ∨
      ∃ zs a b, x.childrenOf k = zs ++ [a] ∧ y.childrenOf k = zs ++ [b] ∧ a.tree.kind = k ∧
        a.Grows ts b := by
  have hrow := h.children
  rw [Placed.childrenOf, Placed.childrenOf]
  generalize x.children = xs at hrow ⊢
  generalize y.children = ys at hrow ⊢
  cases hrow with
  | same => exact Or.inl rfl
  | lineFeed =>
      left
      rw [List.filter_append]
      exact List.append_nil _
  | @last zs a b hab =>
      have hb : (b.tree.isNode && b.tree.kind == k) = (a.tree.isNode && a.tree.kind == k) := by
        rw [hab.tree.isNode_eq, hab.tree.kind_eq]
      rw [List.filter_append, List.filter_append, List.filter_singleton, List.filter_singleton, hb]
      cases ha : a.tree.isNode && a.tree.kind == k with
      | false => exact Or.inl rfl
      | true =>
          exact Or.inr ⟨_, a, b, rfl, rfl, eq_of_beq (Bool.and_eq_true_iff.mp ha).2, hab⟩
  | lone =>
      have hnot : ∀ {K : Kind}, K ∈ bodyKinds → (K == k) = false := fun hK =>
        beq_false_of_ne fun heq => hk (heq ▸ hK)
      left
      simp [Tree.kind, hnot (show .xmlBody ∈ bodyKinds by decide),
        hnot (show .rawBody ∈ bodyKinds by decide)]

/-- What the nodes of a kind tell is the same if each of them tells the same. -/
lemma map_childrenOf {α : Type} {f : Placed → α} (h : x.Grows ts y) (hk : k ∉ bodyKinds)
    (hf : ∀ {a b : Placed}, a.tree.kind = k → a.Grows ts b → f b = f a) :
    (y.childrenOf k).map f = (x.childrenOf k).map f := by
  rcases h.childrenOf hk with heq | ⟨zs, a, b, hx, hy, ha, hab⟩
  · rw [heq]
  · rw [hx, hy, List.map_append, List.map_append, List.map_singleton, List.map_singleton, hf ha hab]

lemma map_child? {α : Type} {f : Placed → α} (h : x.Grows ts y) (hk : k ∉ bodyKinds)
    (hf : ∀ {a b : Placed}, a.tree.kind = k → a.Grows ts b → f b = f a) :
    (y.child? k).map f = (x.child? k).map f := by
  have hmap := congrArg List.head? (h.map_childrenOf hk hf)
  rwa [List.head?_map, List.head?_map, Placed.childrenOf, Placed.childrenOf, List.head?_filter,
    List.head?_filter] at hmap

/-- What ends before its line does is the same. -/
lemma child?_of_short (h : x.Grows ts y) (hk : k ∈ Tree.shortKinds) : y.child? k = x.child? k := by
  have hmap := h.map_child? (f := id) (not_mem_bodyKinds k hk) fun {a b} ha hab => ?_
  · rwa [Option.map_id] at hmap
  · obtain ⟨o, t⟩ := a
    obtain ⟨o', t'⟩ := b
    obtain ⟨rfl, hab⟩ := hab
    obtain rfl : t' = t := hab.eq_of_short (ha ▸ hk)
    rfl

/-! ### Entries -/

lemma tree_child?_of_short (h : x.Grows ts y) (hk : k ∈ Tree.shortKinds) :
    y.tree.child? k = x.tree.child? k := by
  rw [← map_tree_child?, h.child?_of_short hk, map_tree_child?]

lemma said_entry (h : x.Grows ts y) (hk : k ∈ Tree.shortKinds) :
    (Entry.ofTree k y).said = (Entry.ofTree k x).said := by
  simp only [Entry.said, Entry.ofTree, h.child?_of_short hk,
    h.child?_of_short (show .value ∈ Tree.shortKinds by decide)]

lemma said_entries {K : Kind} (h : x.Grows ts y) (hK : K ∉ bodyKinds) (hk : k ∈ Tree.shortKinds) :
    ((y.childrenOf K).map (Entry.ofTree k)).map Entry.said
      = ((x.childrenOf K).map (Entry.ofTree k)).map Entry.said := by
  rw [List.map_map, List.map_map]
  exact h.map_childrenOf hK fun _ hab => hab.said_entry hk

/-- **The name of a section** stays. -/
lemma name_section (h : x.Grows ts y) : (Section.ofTree y).name = (Section.ofTree x).name := by
  refine Section.name_congr (h.said_entries (by decide) (by decide)) ?_
  have htitle := h.map_child? (k := .requestSeparator)
    (f := fun s => (s.child? .value).map Value.ofTree) (by decide)
    fun _ hab => by rw [hab.child?_of_short (by decide)]
  simp only [Section.title, Section.ofTree]
  rw [htitle]

end Grows

/-- The kinds of the bodies among some trees. -/
def bodyNames (xs : List Placed) : List String :=
  (xs.filterMap Body.ofTree?).map (·.content.name)

lemma bodyNames_append (xs zs : List Placed) :
    bodyNames (xs ++ zs) = bodyNames xs ++ bodyNames zs := by
  rw [bodyNames, List.filterMap_append, List.map_append, bodyNames, bodyNames]

/-- The kind of a body is that of its node. -/
lemma Grows.bodyNames (h : x.Grows ts y) : bodyNames [y] = bodyNames [x] := by
  obtain ⟨o, t⟩ := x
  obtain ⟨o', t'⟩ := y
  obtain ⟨rfl, h⟩ := h
  cases h with
  | same => rfl
  | @node k => cases k <;> rfl

/-- **The kinds of bodies** are the same, but for a lone opening angle bracket. -/
lemma Ended.bodyNames {xs ys : List Placed} (h : Ended ts xs ys) :
    bodyNames ys = bodyNames xs ∨
      LoneBracket ts ∧ ∃ names, bodyNames xs = names ++ ["xml_body"] ∧
        bodyNames ys = names ++ ["raw_body"] := by
  cases h with
  | same => exact Or.inl rfl
  | lineFeed xs o =>
      left
      rw [bodyNames_append]
      exact List.append_nil _
  | last xs h =>
      left
      rw [bodyNames_append, bodyNames_append, h.bodyNames]
  | lone xs o h =>
      refine Or.inr ⟨h, Placed.bodyNames xs, ?_, ?_⟩
      · rw [bodyNames_append]
        rfl
      · rw [bodyNames_append]
        rfl

/-- A node of a kind is found below both or below neither. -/
lemma Grows.child? (h : x.Grows ts y) (hk : k ∉ bodyKinds) :
    (x.child? k = none ∧ y.child? k = none) ∨
      ∃ a b, x.child? k = some a ∧ y.child? k = some b ∧ a.Grows ts b := by
  have hhead : ∀ x : Placed, x.child? k = (x.childrenOf k).head? := fun x => by
    rw [Placed.childrenOf, List.head?_filter, Placed.child?]
  rw [hhead, hhead]
  rcases h.childrenOf hk with heq | ⟨zs, a, b, hx, hy, _, hab⟩
  · rw [heq]
    cases hx : (x.childrenOf k).head? with
    | none => exact Or.inl ⟨rfl, rfl⟩
    | some a => exact Or.inr ⟨a, a, rfl, rfl, .same a⟩
  · rw [hx, hy]
    cases zs with
    | nil => exact Or.inr ⟨a, b, rfl, rfl, hab⟩
    | cons z zs => exact Or.inr ⟨z, z, rfl, rfl, .same z⟩

end Placed

/-! ### Summaries -/

lemma Summary.body_ofRequest (source : String) (s : Section) (x : Placed) :
    (ofRequest source s (Request.ofTree x)).body = (Placed.bodyNames x.children).head? :=
  (List.head?_map ..).symm

/-- The summary of the request in a section, if it has one. -/
def Summary.ofSection? (source : String) (x : Placed) : Option Summary :=
  (x.child? .request).map fun y => ofRequest source (Section.ofTree x) (Request.ofTree y)

namespace Placed.Grows

variable {x x' y y' : Placed}

/-- A summary of a request, the kind of its body apart. -/
lemma ofRequest_apart (h : x.Grows ts y) (h' : x'.Grows ts y') (source : String) :
    Summary.ofRequest source (Section.ofTree y) (Request.ofTree y')
      = { Summary.ofRequest source (Section.ofTree x) (Request.ofTree x') with
          body := (Placed.bodyNames y'.children).head? } := by
  have hmethod : (Request.ofTree y').method = (Request.ofTree x').method :=
    congrArg (Option.map Tree.text) (h'.tree_child?_of_short (by decide))
  have hversion : (Request.ofTree y').version = (Request.ofTree x').version :=
    congrArg (Option.map Tree.text) (h'.tree_child?_of_short (by decide))
  have hurl : (Request.ofTree y').url = (Request.ofTree x').url :=
    congrArg (Option.map Url.ofTree) (h'.child?_of_short (by decide))
  have hheaders : HeaderMap.ofEntries (Request.ofTree y').headers
      = HeaderMap.ofEntries (Request.ofTree x').headers :=
    HeaderMap.ofEntries_congr (h'.said_entries (by decide) (by decide))
  have hstart : (Request.ofTree y').span.start = (Request.ofTree x').span.start := h'.start
  rw [← Summary.body_ofRequest source (Section.ofTree y), Summary.ofRequest, h.name_section,
    hmethod, hversion, hurl, hheaders, hstart]
  rfl

/-- **Summaries of requests** are the same, but for a lone opening angle bracket. -/
lemma ofRequest (h : x.Grows ts y) (h' : x'.Grows ts y') (source : String) :
    Summary.ofRequest source (Section.ofTree y) (Request.ofTree y')
        = Summary.ofRequest source (Section.ofTree x) (Request.ofTree x') ∨
      LoneBracket ts ∧
        (Summary.ofRequest source (Section.ofTree x) (Request.ofTree x')).body = some "xml_body" ∧
        Summary.ofRequest source (Section.ofTree y) (Request.ofTree y')
          = { Summary.ofRequest source (Section.ofTree x) (Request.ofTree x') with
              body := some "raw_body" } := by
  have hbody := Summary.body_ofRequest source (Section.ofTree x) x'
  rw [h.ofRequest_apart h']
  rcases h'.children.bodyNames with hnames | ⟨hlone, names, hx, hy⟩
  · left
    rw [hnames, ← hbody]
  rw [hx] at hbody
  rw [hbody, hy]
  cases names with
  | nil => exact Or.inr ⟨hlone, rfl, rfl⟩
  | cons n names =>
      left
      rw [List.cons_append, List.head?_cons] at hbody ⊢
      rw [← hbody]

/-- The request in a section. -/
lemma ofSection? (h : x.Grows ts y) (source : String) :
    Summary.ofSection? source y = Summary.ofSection? source x ∨
      LoneBracket ts ∧ ∃ a, Summary.ofSection? source x = some a ∧ a.body = some "xml_body" ∧
        Summary.ofSection? source y = some { a with body := some "raw_body" } := by
  rw [Summary.ofSection?, Summary.ofSection?]
  rcases h.child? (k := .request) (by decide) with ⟨hx, hy⟩ | ⟨a, b, hx, hy, hab⟩
  · rw [hx, hy]
    exact Or.inl rfl
  · rw [hx, hy]
    rcases h.ofRequest hab source with heq | ⟨hlone, hbody, heq⟩
    · exact Or.inl (congrArg some heq)
    · exact Or.inr ⟨hlone, _, rfl, hbody, congrArg some heq⟩

/-- **The requests of all sections**: a lone opening angle bracket is in the last one. -/
lemma filterMap_ofSection? (h : x.Grows ts y) (source : String) :
    (y.childrenOf .section).filterMap (Summary.ofSection? source)
        = (x.childrenOf .section).filterMap (Summary.ofSection? source) ∨
      LoneBracket ts ∧ ∃ as a,
        (x.childrenOf .section).filterMap (Summary.ofSection? source) = as ++ [a] ∧
        a.body = some "xml_body" ∧
        (y.childrenOf .section).filterMap (Summary.ofSection? source)
          = as ++ [{ a with body := some "raw_body" }] := by
  rcases h.childrenOf (k := .section) (by decide) with heq | ⟨zs, a, b, hx, hy, _, hab⟩
  · exact Or.inl (by rw [heq])
  rw [hx, hy, List.filterMap_append, List.filterMap_append, List.filterMap_cons,
    List.filterMap_cons]
  rcases hab.ofSection? source with heq | ⟨hlone, c, hc, hbody, hd⟩
  · exact Or.inl (by rw [heq])
  · rw [hc, hd]
    exact Or.inr ⟨hlone, _, c, rfl, hbody, rfl⟩

end Placed.Grows

/-! ### Documents -/

/-- The line of an offset between tokens does not change with what is put behind them. -/
lemma lineNumber_lineFeed {o : Nat} (h : Token.Boundary (Token.scan source) o) :
    lineNumber (source ++ "\n") o = lineNumber source o := by
  obtain ⟨front, back, hts, rfl⟩ := h
  have hsource : source = Token.textOf front ++ Token.textOf back := by
    rw [← Token.textOf_append, ← hts, Token.textOf_scan]
  rw [Token.sizeOf_eq, hsource, String.append_assoc, lineNumber_append, lineNumber_append]

lemma Summary.ofSection?_lineFeed {x : Placed} (h : x.OnTokens (Token.scan source)) :
    ofSection? (source ++ "\n") x = ofSection? source x := by
  rw [ofSection?, ofSection?]
  refine Option.map_congr fun y hy => ?_
  have hline := lineNumber_lineFeed (h.of_child? hy).1.start
  rw [ofRequest, ofRequest]
  exact congrArg _ hline

/-- **A lone opening angle bracket** is the last line of its source. -/
lemma exists_of_loneBracket (h : LoneBracket (Token.scan source)) :
    ∃ front, source = front ++ "<" ∧ endsLine front := by
  obtain ⟨front, t, hts, hline, hk⟩ := h
  have hlex := Token.lexed_scan source
  have hangle : t.text = "<" :=
    (Token.lexeme_of_mem_scan source t (by simp [hts])).text_eq hk (by decide) (by decide)
  refine ⟨Token.textOf front, ?_, ?_⟩
  · have htext : Token.textOf [t] = "<" := by
      rw [Token.textOf_cons, hangle]
      rfl
    rw [← htext, ← Token.textOf_append, ← hts, Token.textOf_scan]
  · rw [hts] at hlex
    rw [endsLine_eq, hlex.left.lineBegins_textOf]
    exact hline

namespace Document

lemma summaries_eq (d : Document) :
    d.summaries
      = ((Placed.mk 0 d.tree).childrenOf .section).filterMap (Summary.ofSection? d.source) := by
  rw [summaries, sections, sectionsOf, List.filterMap_map]
  refine List.filterMap_congr fun x _ => ?_
  rw [Function.comp_apply, Summary.ofSection?, Section.ofTree, Option.map_map]
  rfl

/-- The summaries of a document whose parse is computed. -/
lemma exists_summaries (source : String) (ss : List Summary)
    (h : (parse defaultLimits source).toOption.any fun d => d.isValid && d.summaries == ss) :
    ∃ d, parse defaultLimits source = .ok d ∧ d.isValid ∧ d.summaries = ss := by
  obtain ⟨d, hd, hs⟩ := exists_ok_of_any h
  obtain ⟨hv, hs⟩ := Bool.and_eq_true_iff.mp hs
  exact ⟨d, hd, hv, eq_of_beq hs⟩

/-- The parses of a source that is not empty, without and with the line feed. -/
lemma exists_parsed_lineFeed (h : endsWithBreak source.toList = false) (hne : source ≠ "") :
    ∃ p p', Parsed.ofSource defaultLimits source = .ok p ∧
      Parsed.ofSource defaultLimits (source ++ "\n") = .ok p' ∧
      p'.reports.any Diagnostic.isError = p.reports.any Diagnostic.isError ∧
      (Placed.mk 0 p.tree).Grows (Token.scan source) (Placed.mk 0 p'.tree) := by
  obtain ⟨p, hp, _⟩ := ofSource_default source
  obtain ⟨p', hp', _⟩ := ofSource_default (source ++ "\n")
  have hpast := Cursor.past_sections h hne
  obtain ⟨heq, _⟩ := Parsed.ofSource_eq_ok.mp (Parsed.ofSource_unlimited_of_ok hp)
  obtain ⟨heq', _⟩ := Parsed.ofSource_eq_ok.mp (Parsed.ofSource_unlimited_of_ok hp')
  refine ⟨p, p', hp, hp', ?_, rfl, ?_⟩
  · rw [heq, heq']
    exact hpast.failed
  · rw [heq, heq']
    exact .node (by decide) hpast.built

/-- **A line feed at the end** of a source without one changes neither whether the document is valid
nor what its requests say, with one exception: a lone opening angle bracket on the last line is a
body of XML at the end of the source, and plain text in front of a line feed. -/
theorem parse_lineFeed (h : endsWithBreak source.toList = false) :
    ∃ d d', parse defaultLimits source = .ok d ∧
      parse defaultLimits (source ++ "\n") = .ok d' ∧
      d'.isValid = d.isValid ∧
      (d'.summaries = d.summaries ∨
        (∃ front, source = front ++ "<" ∧ endsLine front) ∧
        ∃ as a, d.summaries = as ++ [a] ∧ a.body = some "xml_body" ∧
          d'.summaries = as ++ [{ a with body := some "raw_body" }]) := by
  -- the empty source has no line to compare, so both documents are computed
  by_cases hne : source = ""
  · obtain ⟨d, hd, hv, hs⟩ := exists_summaries "" [] (by decide +kernel)
    obtain ⟨d', hd', hv', hs'⟩ := exists_summaries "\n" [] (by decide +kernel)
    rw [hne]
    exact ⟨d, d', hd, hd', hv'.trans hv.symm, Or.inl (hs'.trans hs.symm)⟩
  obtain ⟨p, p', hp, hp', herror, hgrows⟩ := exists_parsed_lineFeed h hne
  have hd : parse defaultLimits source
      = .ok ⟨source, p.tree, p.reports ++ nameWarnings [] (sectionsOf p.tree)⟩ := by rw [parse, hp]
  have hd' : parse defaultLimits (source ++ "\n") = .ok ⟨source ++ "\n", p'.tree,
      p'.reports ++ nameWarnings [] (sectionsOf p'.tree)⟩ := by rw [parse, hp']
  refine ⟨_, _, hd, hd', ?_, ?_⟩
  · rw [isValid_eq hd hp, isValid_eq hd' hp', herror]
  -- the lines of the shorter document are the same in the longer source
  have hlines : ((Placed.mk 0 p.tree).childrenOf .section).filterMap
        (Summary.ofSection? (source ++ "\n"))
      = ((Placed.mk 0 p.tree).childrenOf .section).filterMap (Summary.ofSection? source) :=
    List.filterMap_congr fun x hx => Summary.ofSection?_lineFeed
      ((onTokens_root hp).of_mem_children (List.mem_of_mem_filter hx)).1
  rw [summaries_eq, summaries_eq]
  rcases hgrows.filterMap_ofSection? (source ++ "\n") with heq | ⟨hlone, as, a, hx, hbody, hy⟩
  · exact Or.inl (heq.trans hlines)
  · exact Or.inr ⟨exists_of_loneBracket hlone, as, a, hlines.symm.trans hx, hbody, hy⟩

/-- Headers without a line terminator behind the last of them. -/
theorem parse_lineFeed_headers : endsWithBreak "GET /a\nb: c".toList = false ∧
    ∃ d d', parse defaultLimits "GET /a\nb: c" = .ok d ∧
      parse defaultLimits ("GET /a\nb: c" ++ "\n") = .ok d' ∧
      d'.isValid = d.isValid ∧
      (d'.summaries = d.summaries ∨
        (∃ front, "GET /a\nb: c" = front ++ "<" ∧ endsLine front) ∧
        ∃ as a, d.summaries = as ++ [a] ∧ a.body = some "xml_body" ∧
          d'.summaries = as ++ [{ a with body := some "raw_body" }]) :=
  ⟨by decide, parse_lineFeed (by decide)⟩

/-- **The exception**: without the line feed the lone bracket is XML, with it plain text. -/
theorem not_summaries_lineFeed : endsWithBreak "GET /\n\n<".toList = false ∧
    (∃ d, parse defaultLimits "GET /\n\n<" = .ok d ∧ d.isValid ∧
      d.summaries = [⟨none, "GET", "/", none, [], some "xml_body", 1⟩]) ∧
    ∃ d, parse defaultLimits ("GET /\n\n<" ++ "\n") = .ok d ∧ d.isValid ∧
      d.summaries = [⟨none, "GET", "/", none, [], some "raw_body", 1⟩] :=
  ⟨by decide, exists_summaries _ _ (by decide +kernel), exists_summaries _ _ (by decide +kernel)⟩

end Document

end RequestFile
