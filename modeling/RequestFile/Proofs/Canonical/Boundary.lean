import RequestFile.Proofs.Canonical.Section
import RequestFile.Proofs.Hyphens

/-!
Boundary lines of multipart bodies.

A `MultipartModel` is a boundary and a number of parts. The line in front of a part is two hyphens
and the boundary, and the last line two hyphens more. The boundary may begin and end with hyphens,
which then stand in one run with those around them.

* **Tokens.** In front of the boundary a pair is cut off at the start of the line
  (`Token.lineTokens_openLine`), behind it one at the end (`Token.exists_closing`). What is left
  between them spells the boundary (`Token.Spells`), though it need not be cut in the same way on
  each line.
* **Lines.** A boundary line is parsed to its tree, however its boundary is cut
  (`Cursor.exact_boundaryLine`). It closes the body if a pair of hyphens ends it
  (`Cursor.boundaryHere_eq`).
-/

namespace RequestFile

/-! ### Boundaries -/

/-- The characters of boundaries besides letters and digits. -/
def boundaryMarks : List Char :=
  ['\'', '(', ')', '+', '_', ',', '.', '/', ':', '=', '?', '-']

/-- A text of the characters of boundaries. -/
def BoundaryText (s : String) : Prop :=
  ∀ c ∈ s.toList, c.isAlphanum ∨ c ∈ boundaryMarks

instance (s : String) : Decidable (BoundaryText s) :=
  inferInstanceAs (Decidable (∀ c ∈ s.toList, c.isAlphanum ∨ c ∈ boundaryMarks))

namespace BoundaryText

variable {s t : String}

lemma append (h : BoundaryText s) (h' : BoundaryText t) : BoundaryText (s ++ t) := by
  intro c hc
  rw [String.toList_append, List.mem_append] at hc
  exact hc.elim (h c) (h' c)

lemma oneLine (h : BoundaryText s) : OneLine s :=
  .of_chars h (by decide) (by decide)

lemma isBlank_of_mem (h : BoundaryText s) {c : Char} (hc : c ∈ s.toList) : isBlank c = false := by
  rcases h c hc with halnum | hmark
  · by_contra hblank
    have hword := Token.isWordChar_of_isAlphanum halnum
    rw [Token.not_isWordChar_of_isBlank (Bool.not_eq_false _ ▸ hblank)] at hword
    cases hword
  · have hall : ∀ c ∈ boundaryMarks, isBlank c = false := by decide
    exact hall c hmark

lemma noReference (h : BoundaryText s) : NoReference s := by
  intro href
  have hbrace := h '\x7b' (href.subset List.mem_cons_self)
  revert hbrace
  decide

end BoundaryText

/-- A multipart body: a first part and more of them, each of which is the line `hello`. If the
boundary ends with two hyphens, there is one part only: the line in front of a second one would
close the body. -/
structure MultipartModel where
  boundary : String
  more : Nat
  boundary_ne : boundary ≠ ""
  boundary_text : BoundaryText boundary
  more_eq : ['-', '-'] <:+ boundary.toList → more = 0

namespace MultipartModel

variable (m : MultipartModel)

/-- The line in front of a part. -/
def openLine : String :=
  "--" ++ m.boundary

/-- The line behind the last part. -/
def closeLine : String :=
  "--" ++ m.boundary ++ "--"

/-- A part with the line in front of it. -/
def partLines : List String :=
  [m.openLine, "hello"]

/-- The lines of the body. -/
def bodyLines : List String :=
  m.partLines ++ (List.replicate m.more m.partLines).flatten ++ [m.closeLine]

/-- The lines of a request with the body. -/
def lines : List String :=
  ["POST /u", ""] ++ m.bodyLines

end MultipartModel

/-! ### Tokens -/

namespace Token

/-- Tokens of a text that is not empty, none of which is the end of a line, a blank or the opener of
a reference. -/
structure Spells (s : String) (ts : List Token) : Prop where
  text : textOf ts = s
  ne_nil : ts ≠ []
  newline : ∀ t ∈ ts, t.kind ≠ .newline
  whitespace : ∀ t ∈ ts, t.kind ≠ .whitespace
  varOpen : ∀ t ∈ ts, t.kind ≠ .varOpen

lemma Spells.append {s s' : String} {ts us : List Token} (h : Spells s ts) (h' : Spells s' us) :
    Spells (s ++ s') (ts ++ us) where
  text := by rw [textOf_append, h.text, h'.text]
  ne_nil := List.append_ne_nil_of_left_ne_nil h.ne_nil us
  newline := List.forall_mem_append.mpr ⟨h.newline, h'.newline⟩
  whitespace := List.forall_mem_append.mpr ⟨h.whitespace, h'.whitespace⟩
  varOpen := List.forall_mem_append.mpr ⟨h.varOpen, h'.varOpen⟩

lemma spells_hyphenPair : Spells "--" [hyphenPair] :=
  ⟨rfl, List.cons_ne_nil _ _, by decide, by decide, by decide⟩

lemma spells_scanFrom {s : String} (h : BoundaryText s) (hne : s ≠ "") (b : Bool) :
    Spells s (scanFrom b 0 s.toList) := by
  have hkind := fun t (ht : t ∈ scanFrom b 0 s.toList) =>
    kind_of_solid h.oneLine (fun _ => h.isBlank_of_mem) h.noReference ht
  exact ⟨textOf_scanFrom_toList b s,
    fun hnil => hne (by simpa [scanFrom_eq_nil] using hnil),
    fun t ht => (hkind t ht).1, fun t ht => (hkind t ht).2.1, fun t ht => (hkind t ht).2.2⟩

/-- At the start of a line the first two of any number of hyphens are a pair. -/
lemma scanFrom_hyphenPair (ds : List Char) :
    scanFrom true 0 ('-' :: '-' :: ds) = hyphenPair :: scanFrom false 0 ds := by
  have hpair : pairKind? '-' ('-' :: ds) = some .doubleDash := rfl
  have hlead : lead true '-' ('-' :: ds) = (.doubleDash, 1) := by
    rw [lead, if_neg (by decide), if_neg (by decide), if_neg (by decide), if_neg (by decide),
      if_neg (by simp), hpair]
  rw [scanFrom_cons, hlead]
  rfl

variable (m : MultipartModel)

/-- The tokens of a boundary in front of which hyphens stand. -/
def boundaryTokens : List Token :=
  scanFrom false 0 m.boundary.toList

lemma spells_boundaryTokens : Spells m.boundary (boundaryTokens m) :=
  spells_scanFrom m.boundary_text m.boundary_ne false

/-- **Lines in front of parts** begin with a pair of hyphens. -/
lemma lineTokens_openLine :
    lineTokens m.openLine = hyphenPair :: (boundaryTokens m ++ [lineFeed]) := by
  have hline : m.openLine.toList = '-' :: '-' :: m.boundary.toList := by
    simp [MultipartModel.openLine]
  rw [lineTokens, scan, hline, scanFrom_hyphenPair]
  rfl

/-- If there are more parts, the boundary does not end with a pair of hyphens. -/
lemma getLast_boundaryTokens (hmore : m.more ≠ 0) :
    ∀ t ∈ (boundaryTokens m).getLast?, t.kind ≠ .doubleDash := by
  intro t ht hk
  have htext : t.text = "--" :=
    (lexeme_of_mem_scanFrom _ _ t (List.mem_of_getLast? ht)).text_eq hk (by decide) (by decide)
  refine hmore (m.more_eq ⟨(textOf (boundaryTokens m).dropLast).toList, ?_⟩)
  rw [← (spells_boundaryTokens m).text, ← List.dropLast_append_getLast? t ht, textOf_append,
    textOf_cons, textOf_nil, String.append_empty, htext, String.toList_append, List.dropLast_concat]
  rfl

/-- **The line behind the last part** ends with a pair of hyphens, whatever hyphens stand in front
of it. -/
lemma exists_closing : ∃ ts, Spells m.boundary ts ∧
    lineTokens m.closeLine = hyphenPair :: (ts ++ [hyphenPair, lineFeed]) := by
  obtain ⟨ts, hts⟩ := List.getLast?_eq_some_iff.mp
    (getLast_scanFrom_closing m.boundary_text.oneLine)
  have hclose : (m.boundary ++ "--").toList = m.boundary.toList ++ ['-', '-'] :=
    String.toList_append
  have hspells : Spells (m.boundary ++ "--") (ts ++ [hyphenPair]) := by
    rw [← hts, ← hclose]
    exact spells_scanFrom (m.boundary_text.append (by decide)) (by simp) false
  have htext : textOf ts = m.boundary := by
    have hboth := congrArg String.toList hspells.text
    rw [textOf_append, String.toList_append, hclose] at hboth
    exact String.toList_inj.mp (List.append_cancel_right hboth)
  refine ⟨ts, ⟨htext, fun hnil => m.boundary_ne ?_,
    fun t ht => hspells.newline t (List.mem_append_left _ ht),
    fun t ht => hspells.whitespace t (List.mem_append_left _ ht),
    fun t ht => hspells.varOpen t (List.mem_append_left _ ht)⟩, ?_⟩
  · rw [← htext, hnil, textOf_nil]
  · have hline : m.closeLine.toList = '-' :: '-' :: (m.boundary.toList ++ ['-', '-']) := by
      simp [MultipartModel.closeLine]
    rw [lineTokens, scan, hline, scanFrom_hyphenPair, hts, List.cons_append, List.append_assoc]
    rfl

end Token

/-! ### Lines -/

namespace Cursor

/-- The hyphens that close a boundary line. -/
def Boundary.closing (b : Boundary) : List Token :=
  if b = .last then [Token.hyphenPair] else []

lemma Boundary.closing_last : Boundary.last.closing = [Token.hyphenPair] := rfl

lemma Boundary.closing_of_ne {b : Boundary} (hb : b ≠ .last) : b.closing = [] :=
  if_neg hb

end Cursor

/-- The tree of a boundary line. -/
def MultipartModel.boundaryTree (m : MultipartModel) (b : Cursor.Boundary) : Tree :=
  .node b.kind ([.leaf .doubleDash "--", .node .boundaryValue [.leaf .text m.boundary]]
    ++ b.closing.map (fun t => .leaf t.kind t.text) ++ [.leaf .newline "\n"])

namespace Cursor

variable {ts us : List Token} {c : Cursor} {b : Boundary} {s : String} (m : MultipartModel)

/-- The text of a boundary goes to the end of its line. -/
lemma boundaryTextEnd_eq (hr : c.rest = Token.hyphenPair :: (ts ++ Token.lineFeed :: us))
    (hts : Token.Spells s ts) : c.boundaryTextEnd = c.read + 1 + ts.length := by
  have hkinds : ∀ t ∈ Token.hyphenPair :: ts, t.kind ≠ .newline :=
    List.forall_mem_cons.mpr ⟨by decide, hts.newline⟩
  have hline : c.lineEnd = c.read + (Token.hyphenPair :: ts).length := by
    rw [← List.cons_append] at hr
    exact lineEnd_eq hr hkinds rfl
  have hsegment : (c.segment c.lineEnd).drop 1 = ts := by
    rw [hline, segment, Nat.add_sub_cancel_left, hr, ← List.cons_append, List.take_left]
    rfl
  have hall : ∀ t ∈ ts, t.kind ≠ .varOpen ∧ boundaryEndKinds.contains t.kind = false := by
    intro t ht
    have hw := hts.whitespace t ht
    have hn := hts.newline t ht
    exact ⟨hts.varOpen t ht, by simp [boundaryEndKinds, KindSet.contains, hw, hn]⟩
  rw [boundaryTextEnd, hsegment, Lookahead.lengthOutsideVariables_eq_length hall]

/-- What a boundary line is told by is the last token of its text. -/
lemma startsWith_textEnd {t : Token} (hr : c.rest = Token.hyphenPair :: (ts ++ t :: us)) :
    Lookahead.startsWith .doubleDash
        (c.rest.drop (c.read + 1 + (ts ++ [t]).length - 1 - c.read))
      = decide (t.kind = .doubleDash) := by
  have hat : c.read + 1 + (ts ++ [t]).length - 1 - c.read = ts.length + 1 := by
    rw [List.length_append, List.length_singleton]
    omega
  rw [hat, hr, List.drop_succ_cons, List.drop_left]
  simp

/-- **A boundary line** closes its body just if a pair of hyphens ends it. -/
lemma boundaryHere_eq (hb : b ≠ .first)
    (hr : c.rest = Token.hyphenPair :: (ts ++ (b.closing ++ Token.lineFeed :: us)))
    (hne : ts ≠ []) (hlast : b = .inner → ∀ t ∈ ts.getLast?, t.kind ≠ .doubleDash) :
    c.boundaryHere (c.read + 1 + (ts ++ b.closing).length) = b := by
  rw [boundaryHere]
  cases b with
  | first => exact absurd rfl hb
  | inner =>
      obtain ⟨front, t, rfl⟩ : ∃ front t, ts = front ++ [t] :=
        ⟨ts.dropLast, ts.getLast hne, (List.dropLast_append_getLast hne).symm⟩
      have ht : t.kind ≠ .doubleDash := hlast rfl t (by simp)
      rw [List.append_assoc] at hr
      have htold := startsWith_textEnd hr
      rw [Boundary.closing_of_ne (by decide), List.append_nil, htold, decide_eq_false ht,
        Bool.and_false]
      rfl
  | last =>
      have hpos := List.length_pos_of_ne_nil hne
      have hfar : c.read + 2 < c.read + 1 + (ts ++ [Token.hyphenPair]).length := by
        rw [List.length_append, List.length_singleton]
        omega
      have htold := startsWith_textEnd hr
      rw [Boundary.closing_last, htold, decide_eq_true hfar]
      rfl

/-- The text of a boundary line with the hyphens that close it. -/
lemma boundaryTextEnd_closing
    (hr : c.rest = Token.hyphenPair :: (ts ++ (b.closing ++ Token.lineFeed :: us)))
    (hts : Token.Spells s ts) : c.boundaryTextEnd = c.read + 1 + (ts ++ b.closing).length := by
  rw [← List.append_assoc] at hr
  by_cases hb : b = .last
  · subst hb
    exact boundaryTextEnd_eq hr (hts.append Token.spells_hyphenPair)
  · rw [Boundary.closing_of_ne hb, List.append_nil] at hr ⊢
    exact boundaryTextEnd_eq hr hts

/-- The hyphens that close a boundary line. -/
lemma exact_closing (hc : c.Live) (hr : c.rest = b.closing ++ Token.lineFeed :: us) :
    Exact b.closing (b.closing.map fun t => .leaf t.kind t.text) c
      (if b = .last then c.bump else c) := by
  by_cases hb : b = .last
  · subst hb
    exact exact_bump hc hr
  · rw [Boundary.closing_of_ne hb, if_neg hb]
    exact .refl hc

/-- **Boundary lines.** -/
lemma exact_boundaryLine (hc : c.Live)
    (hr : c.rest = Token.hyphenPair :: (ts ++ (b.closing ++ Token.lineFeed :: us)))
    (hts : Token.Spells m.boundary ts) :
    Exact (Token.hyphenPair :: (ts ++ (b.closing ++ [Token.lineFeed]))) [m.boundaryTree b] c
      (c.boundaryLine b c.boundaryTextEnd) := by
  have hend := boundaryTextEnd_closing hr hts
  have hopen := exact_bump hc.opened hr
  have hrest : c.opened.bump.rest = ts ++ (b.closing ++ Token.lineFeed :: us) := hopen.rest_eq hr
  have hstop : (if b = .last then c.boundaryTextEnd - 1 else c.boundaryTextEnd)
      = c.opened.bump.read + ts.length := by
    have hread : c.opened.bump.read = c.read + 1 := hopen.read
    rw [hread, hend]
    by_cases hb : b = .last
    · subst hb
      rw [if_pos rfl, Boundary.closing_last, List.length_append, List.length_singleton]
      omega
    · rw [if_neg hb, Boundary.closing_of_ne hb, List.append_nil]
  have hvalue := exact_part_text (K := .boundaryValue) hopen.live hrest hts.ne_nil hts.newline
    hts.varOpen hstop
  have hrest' := hvalue.rest_eq hrest
  have hclose := exact_closing hvalue.live hrest'
  have hline := exact_endLine hclose.live (hclose.rest_eq hrest')
    "unexpected text after the boundary"
  have hnode := (hopen.trans (hvalue.trans (hclose.trans hline))).node (K := b.kind)
  rw [hts.text] at hnode
  exact hnode

end Cursor

end RequestFile
