import RequestFile.Proofs.Canonical.Roundtrip
import RequestFile.Proofs.Placed
import RequestFile.Proofs.Yields

/-!
Values on one line are kept as they are written.

The value of a header and the title of a separator are all that stands between the blanks at both ends
of the line, whatever it is: references in it may be malformed or left open.

* **Blanks at the ends.** A token is a blank or has none (`Token.Lexeme.isBlank_of_mem`), so what is
  left of the tokens without the blanks at their ends is what is left of the text
  (`Token.textOf_core`).
* **Runs.** A value yields one node over these tokens (`Cursor.yields_lineValue`), whatever is reported
  on the way, and so do the lines it stands on (`yields_headerLine`, `yields_separatorLine`).
* **Documents.** `Document.parse_lineValue` is about documents of such a line.
-/

namespace RequestFile

/-! ### Blanks at the ends of a line -/

section Trimming

variable {α β : Type} {p : β → Bool} {q : α → Bool} {f : α → List β} {l : List α}

/-- Where `p` holds all over a part or nowhere in it, parts in front are dropped as a whole. -/
lemma dropWhile_flatMap (h : ∀ a ∈ l, f a ≠ [] ∧ ∀ b ∈ f a, p b = q a) :
    (l.flatMap f).dropWhile p = (l.dropWhile q).flatMap f := by
  induction l with
  | nil => rfl
  | cons a l ih =>
      obtain ⟨⟨hne, ha⟩, hl⟩ := List.forall_mem_cons.mp h
      rw [List.flatMap_cons]
      cases hq : q a with
      | true =>
          rw [hq] at ha
          rw [List.dropWhile_append_of_pos ha, ih hl, List.dropWhile_cons_of_pos hq]
      | false =>
          obtain ⟨b, bs, hb⟩ := List.exists_cons_of_ne_nil hne
          have hp : ¬p b := by simp [ha b (by simp [hb]), hq]
          rw [hb, List.cons_append, List.dropWhile_cons_of_neg hp,
            List.dropWhile_cons_of_neg (by simp [hq]), List.flatMap_cons, hb, List.cons_append]

/-- Such parts are trimmed as a whole. -/
lemma trimList_flatMap (h : ∀ a ∈ l, f a ≠ [] ∧ ∀ b ∈ f a, p b = q a) :
    trimList p (l.flatMap f) = (trimList q l).flatMap f := by
  have hreverse : ∀ a ∈ (l.dropWhile q).reverse,
      (List.reverse ∘ f) a ≠ [] ∧ ∀ b ∈ (List.reverse ∘ f) a, p b = q a := by
    intro a ha
    have hmem := (List.dropWhile_suffix q).subset (List.mem_reverse.mp ha)
    simpa using h a hmem
  rw [trimList, dropWhile_flatMap h, List.reverse_flatMap, dropWhile_flatMap hreverse,
    List.reverse_flatMap, ← Function.comp_assoc, List.reverse_involutive.comp_self,
    Function.id_comp, trimList]

end Trimming

/-- A text without the blanks at its ends, if anything is left. -/
def lineValue (s : String) : Option String :=
  let t := String.ofList (trimList isBlank s.toList)
  if t = "" then none else some t

namespace Token

variable {t : Token} {ts : List Token} {x : Char}

/-- A token is a blank, or there is none in it. -/
lemma Lexeme.isBlank_of_mem (h : Lexeme t) (hx : x ∈ t.text.toList) :
    isBlank x = decide (t.kind = .whitespace) := by
  cases hk : decide (t.kind = .whitespace) with
  | false =>
      refine Bool.eq_false_iff.mpr fun hb => of_decide_eq_false hk ?_
      exact h.kind_of_mem .whitespace hx hb
  | true =>
      have hkind := of_decide_eq_true hk
      cases h with
      | fixed hs =>
          have hnone : ∀ q ∈ fixedTexts, q.1 ≠ .whitespace := by decide
          exact absurd hkind (hnone _ hs)
      | marker | punct => cases hkind
      | run hrun _ hall =>
          cases hkind
          cases hrun
          exact hall x (by simpa using hx)

/-- Tokens without the blanks at their ends. -/
def core (ts : List Token) : List Token :=
  trimList (·.kind = .whitespace) ts

/-- What stands behind the blanks in front goes on with blanks only. -/
lemma exists_skipBlanks_eq (ts : List Token) : ∃ back,
    Lookahead.skipBlanks ts = core ts ++ back ∧ ∀ t ∈ back, t.kind = .whitespace := by
  have hcore : core ts
      = ((Lookahead.skipBlanks ts).reverse.dropWhile (·.kind = .whitespace)).reverse := rfl
  refine ⟨((Lookahead.skipBlanks ts).reverse.takeWhile (·.kind = .whitespace)).reverse, ?_, ?_⟩
  · rw [hcore, ← List.reverse_append, List.takeWhile_append_dropWhile, List.reverse_reverse]
  · intro t ht
    simpa using List.mem_takeWhile_imp (List.mem_reverse.mp ht)

lemma length_core (ts : List Token) :
    (core ts).length = Lookahead.trimmedLength (Lookahead.skipBlanks ts) := by
  rw [core, trimList, List.length_reverse]
  rfl

lemma toList_textOf (ts : List Token) : (textOf ts).toList = ts.flatMap (·.text.toList) := by
  induction ts with
  | nil => rfl
  | cons t ts ih => rw [textOf_cons, String.toList_append, ih, List.flatMap_cons]

/-- **The text without its blanks at the ends** is that of the tokens without theirs. -/
lemma textOf_core (h : ∀ t ∈ ts, Lexeme t) :
    textOf (core ts) = String.ofList (trimList isBlank (textOf ts).toList) := by
  have hparts : ∀ t ∈ ts, t.text.toList ≠ [] ∧
      ∀ x ∈ t.text.toList, isBlank x = decide (t.kind = .whitespace) := fun t ht =>
    ⟨fun h0 => (h t ht).text_ne_empty (String.toList_eq_nil_iff.mp h0),
      fun x hx => (h t ht).isBlank_of_mem hx⟩
  rw [toList_textOf ts, trimList_flatMap hparts, ← core, ← toList_textOf, String.ofList_toList]

/-- Something is left of the text if something is left of the tokens. -/
lemma lineValue_textOf (h : ∀ t ∈ ts, Lexeme t) :
    lineValue (textOf ts) = if core ts = [] then none else some (textOf (core ts)) := by
  rw [lineValue, ← textOf_core h]
  split_ifs with hempty hnil hnil
  · rfl
  · obtain ⟨t, us, hcore⟩ := List.exists_cons_of_ne_nil hnil
    have hmem : t ∈ ts := by
      obtain ⟨back, hback, _⟩ := exists_skipBlanks_eq ts
      refine (List.dropWhile_suffix (·.kind = .whitespace)).subset ?_
      change t ∈ Lookahead.skipBlanks ts
      simp [hback, hcore]
    rw [hcore, textOf_cons, String.append_eq_empty_iff] at hempty
    exact absurd hempty.1 (h t hmem).text_ne_empty
  · rw [hnil] at hempty
    exact absurd rfl hempty
  · rfl

end Token

/-! ### Runs -/

/-- Trees of a text on its line: the value that is left of it, and blanks at its ends. -/
structure ValueTrees (s : String) (new : List Tree) : Prop where
  value : (new.find? fun t => t.isNode && t.kind == .value).map Tree.text = lineValue s
  other : ∀ t ∈ new, t.isNode → t.kind = .value

/-- Blanks around a value that stands on what is left. -/
lemma ValueTrees.of_parts {ts : List Token} {front value rear : List Tree}
    (hts : ∀ t ∈ ts, Token.Lexeme t) (hfront : ∀ t ∈ front, t.isNode = false)
    (hrear : ∀ t ∈ rear, t.isNode = false) (htext : Tree.textOf value = Token.textOf (Token.core ts))
    (hvalue : if Token.core ts = [] then value = [] else ∃ vs, value = [.node .value vs]) :
    ValueTrees (Token.textOf ts) (front ++ value ++ rear) := by
  have hnone : ∀ new : List Tree, (∀ t ∈ new, t.isNode = false) →
      new.find? (fun t => t.isNode && t.kind == .value) = none := fun new h =>
    List.find?_eq_none.mpr fun t ht => by simp [h t ht]
  split_ifs at hvalue with hnil
  · subst hvalue
    refine ⟨?_, ?_⟩
    · rw [Token.lineValue_textOf hts, if_pos hnil, List.append_nil, List.find?_append, hnone _ hfront,
        hnone _ hrear]
      rfl
    · simp +contextual [or_imp, hfront, hrear]
  · obtain ⟨vs, rfl⟩ := hvalue
    refine ⟨?_, ?_⟩
    · rw [Token.lineValue_textOf hts, if_neg hnil, List.append_assoc, List.find?_append, hnone _ hfront,
        ← htext, Tree.textOf_singleton]
      rfl
    · simp +contextual [or_imp, hfront, hrear, Tree.kind]

/-- A separator, by the trees of its title. -/
def titledTree (new : List Tree) : Tree :=
  .node .requestSeparator (.leaf .separatorMarker "###" :: (new ++ [.leaf .newline "\n"]))

/-- A header, by the trees of its value. -/
def HeaderModel.treeOf (h : HeaderModel) (new : List Tree) : Tree :=
  .node .header ([.node .headerEntity [.leaf .text h.name], .leaf .colon ":"]
    ++ (new ++ [.leaf .newline "\n"]))

namespace Cursor

variable {ts us : List Token} {c : Cursor}

/-- The blanks ahead, if there are any. -/
lemma exact_blanks (hc : c.Live) : ∃ bs new, Exact bs new c c.eatBlank ∧
    c.rest = bs ++ Lookahead.skipBlanks c.rest ∧ ∀ t ∈ new, t.isNode = false := by
  rw [← rest_eatBlank hc]
  by_cases hs : c.sees .whitespace
  · obtain ⟨t, us, hr, hk⟩ := Lookahead.exists_of_startsWith hs
    have hblank : Exact [t] [.leaf .whitespace t.text] c c.eatBlank := exact_eat hc hr hk
    refine ⟨_, _, hblank, hblank.rest, ?_⟩
    rw [List.forall_mem_singleton]
    rfl
  · have hskip := exact_eatBlank_skip hc hs
    exact ⟨[], [], hskip, hskip.rest, by simp⟩

/-- In front of the end of a line nothing but blanks is skipped. -/
lemma skipBlanks_append (us : List Token) :
    Lookahead.skipBlanks (ts ++ Token.lineFeed :: us)
      = Lookahead.skipBlanks ts ++ Token.lineFeed :: us := by
  rw [Lookahead.skipBlanks, List.dropWhile_append]
  split_ifs with hnil
  · rw [Lookahead.skipBlanks, List.isEmpty_iff.mp hnil]
    rfl
  · rfl

/-- A value on all of some tokens, if there are any. -/
lemma yields_value (hc : c.Live) (hl : ∀ t ∈ ts, t.kind ≠ .newline) (hr : c.rest = ts ++ us) :
    ∃ new, Yields ts new c (c.value (c.read + ts.length)) ∧
      if ts = [] then new = [] else ∃ vs, new = [.node .value vs] := by
  split_ifs with hnil
  · subst hnil
    have hnone : c.value (c.read + ([] : List Token).length) = c := if_pos le_rfl
    rw [hnone]
    exact ⟨[], .refl hc, rfl⟩
  · have hpos := List.length_pos_of_ne_nil hnil
    obtain ⟨hrun, hread⟩ := run_value (e := true) hc (Nat.lt_add_of_pos_right hpos) (le_lineEnd hr hl)
    obtain ⟨_, ⟨vs, _, rfl⟩, hyields⟩ := hrun.yields hr hread
    exact ⟨_, hyields, vs, rfl⟩

/-- **Values of lines**: what is left of the line without the blanks at its ends. -/
lemma yields_lineValue {stop : Nat} (hc : c.Live) (hts : ∀ t ∈ ts, Token.Lexeme t)
    (hl : ∀ t ∈ ts, t.kind ≠ .newline) (hr : c.rest = ts ++ Token.lineFeed :: us)
    (hs : stop = c.read + ts.length) :
    ∃ new, ValueTrees (Token.textOf ts) new ∧
      Yields ts new c ((c.eatBlank.value (c.eatBlank.trimmedEnd stop)).eatBlank) := by
  obtain ⟨back, hskip, hback⟩ := Token.exists_skipBlanks_eq ts
  obtain ⟨fs, front, hfront, hrest, hfleaves⟩ := exact_blanks hc
  rw [hr, skipBlanks_append] at hrest
  -- the line is cut three times: the blanks in front, the value, and the blanks behind it
  have hsplit : ts = fs ++ Lookahead.skipBlanks ts := by
    rw [← List.append_assoc] at hrest
    exact List.append_cancel_right hrest
  have hr' : c.eatBlank.rest = Token.core ts ++ (back ++ Token.lineFeed :: us) := by
    rw [rest_eatBlank hc, hr, skipBlanks_append, hskip, List.append_assoc]
  -- the value ends where it should
  have hstop : c.eatBlank.trimmedEnd stop = c.eatBlank.read + (Token.core ts).length := by
    have hlen : stop - c.eatBlank.read = (Lookahead.skipBlanks ts).length := by
      have hlength := congrArg List.length hsplit
      rw [List.length_append] at hlength
      have hread := hfront.read
      omega
    rw [trimmedEnd, segment, hlen, rest_eatBlank hc, hr, skipBlanks_append, List.take_left,
      Token.length_core]
  have hcore : ∀ t ∈ Token.core ts, t.kind ≠ .newline := fun t ht =>
    hl t (by rw [hsplit, hskip]; simp [ht])
  obtain ⟨value, hvalue, htrees⟩ := yields_value hfront.live hcore hr'
  rw [← hstop] at hvalue
  generalize c.eatBlank.value (c.eatBlank.trimmedEnd stop) = d at *
  -- the blanks behind it
  have hr'' := hvalue.rest_eq hr'
  obtain ⟨bs, rear, hrear, hrest', hrleaves⟩ := exact_blanks hvalue.live
  have hnone : Lookahead.skipBlanks back = [] := List.dropWhile_eq_nil_iff.mpr (by simpa using hback)
  rw [hr'', skipBlanks_append, hnone, List.nil_append] at hrest'
  obtain rfl := List.append_cancel_right hrest'
  have hwhole := (hfront.yields.trans hvalue).trans hrear.yields
  rw [List.append_assoc, ← hskip, ← hsplit] at hwhole
  exact ⟨_, .of_parts hts hfleaves hrleaves hvalue.text htrees, hwhole⟩

/-- A value and the end of its line. -/
lemma yields_restOfLine (hc : c.Live) (hts : ∀ t ∈ ts, Token.Lexeme t)
    (hl : ∀ t ∈ ts, t.kind ≠ .newline) (hr : c.rest = ts ++ Token.lineFeed :: us) :
    ∃ new, ValueTrees (Token.textOf ts) new ∧
      Yields (ts ++ [Token.lineFeed]) (new ++ [.leaf .newline "\n"]) c
        ((c.eatBlank.value (c.eatBlank.trimmedEnd c.lineEnd)).eatBlank.eatNewline) := by
  obtain ⟨new, hnew, hvalue⟩ := yields_lineValue hc hts hl hr (lineEnd_eq hr hl rfl)
  exact ⟨new, hnew, hvalue.trans (exact_eatNewline hvalue.live (hvalue.rest_eq hr)).yields⟩

/-! ### Lines -/

/-- **Separators** with any title. -/
lemma yields_separatorLine (hc : c.Live) (hts : ∀ t ∈ ts, Token.Lexeme t)
    (hl : ∀ t ∈ ts, t.kind ≠ .newline) (hr : c.rest = Token.marker :: (ts ++ Token.lineFeed :: us)) :
    ∃ new, ValueTrees (Token.textOf ts) new ∧
      Yields (Token.marker :: (ts ++ [Token.lineFeed]))
        [titledTree new]
        c c.separator := by
  obtain ⟨d, hmarker, heq⟩ := exact_marker hc hr
  have hrest := hmarker.rest_eq ((look_rest c).trans hr)
  obtain ⟨new, hnew, hvalue⟩ := yields_restOfLine hmarker.live hts hl hrest
  refine ⟨new, hnew, ?_⟩
  rw [heq]
  exact (hmarker.yields.trans hvalue).node.after (exact_look hc).yields

variable (h : HeaderModel)

/-- **Headers** with any value. -/
lemma yields_headerLine (hc : c.Live) (hts : ∀ t ∈ ts, Token.Lexeme t)
    (hl : ∀ t ∈ ts, t.kind ≠ .newline)
    (hr : c.rest = h.nameTokens ++ Token.colon :: (ts ++ Token.lineFeed :: us)) :
    ∃ new, ValueTrees (Token.textOf ts) new ∧
      Yields (h.nameTokens ++ [Token.colon] ++ (ts ++ [Token.lineFeed]))
        [h.treeOf new] c c.headerLine := by
  obtain ⟨t, us', ht, hk⟩ := head_nameTokens h
  have hfirst := hr
  rw [ht, List.cons_append] at hfirst
  have hlook := exact_look hc
  have hr' := (look_rest c).trans hr
  obtain ⟨d, hname, heq⟩ := exact_headerName h hlook.live hr'
  have hrest := hname.rest_eq (hr'.trans (List.append_cons ..))
  obtain ⟨new, hnew, hvalue⟩ := yields_restOfLine hname.live hts hl hrest
  refine ⟨new, hnew, ?_⟩
  rw [headerLine_of_name hfirst hk, heq]
  exact (hname.yields.trans hvalue).node.after hlook.yields

/-- One header, behind which the source ends. -/
lemma yields_message (hc : c.Live) (ha : c.Aligned) (hts : ∀ t ∈ ts, Token.Lexeme t)
    (hl : ∀ t ∈ ts, t.kind ≠ .newline)
    (hr : c.rest = h.nameTokens ++ Token.colon :: (ts ++ [Token.lineFeed])) :
    ∃ new, ValueTrees (Token.textOf ts) new ∧
      Yields (h.nameTokens ++ [Token.colon] ++ (ts ++ [Token.lineFeed]))
        [h.treeOf new] c c.message := by
  obtain ⟨t, us', ht, hk⟩ := head_nameTokens h
  have hfirst := hr
  rw [ht, List.cons_append] at hfirst
  obtain ⟨new, hnew, hline⟩ := yields_headerLine h hc hts hl hr
  have hnil : c.headerLine.rest = [] := hline.rest_eq (by rw [hr]; simp)
  have hend : c.headerLines = c.headerLine := by
    rw [headerLines_of_name hc ha hfirst hk, headerLines_of_end hline.live (.inl (.inl hnil))]
  rw [← hend] at hline hnil
  exact ⟨new, hnew, by rwa [message_of_end hline.live (.inl hnil)]⟩

/-- **Requests** of a line and a header. -/
lemma yields_request (hc : c.Live) (hts : ∀ t ∈ ts, Token.Lexeme t)
    (hl : ∀ t ∈ ts, t.kind ≠ .newline)
    (hr : c.rest = Token.lineTokens "GET /" ++
      (h.nameTokens ++ Token.colon :: (ts ++ [Token.lineFeed]))) :
    ∃ line new, ValueTrees (Token.textOf ts) new ∧ Yields c.rest
      [.node .request (RequestModel.plainSample.requestLineTrees line ++
        [h.treeOf new])] c c.request := by
  obtain ⟨t, us', ht, hk⟩ := head_nameTokens h
  have hnext : ¬Lookahead.startsWith .whitespace
      (h.nameTokens ++ Token.colon :: (ts ++ [Token.lineFeed])) := by
    rw [ht]
    rcases hk with hk | hk | hk <;> simp [hk]
  obtain ⟨line, _, hline⟩ :=
    exact_requestLine RequestModel.plainSample hc.lowered.opened hr hnext
  obtain ⟨new, hnew, hmessage⟩ :=
    yields_message h hline.live (hline.aligned rfl) hts hl (hline.rest_eq hr)
  refine ⟨line, new, hnew, ?_⟩
  rw [hr, List.append_cons]
  exact .nested hc (hline.yields.trans hmessage).node

/-! ### Sections -/

/-- A section of a separator. -/
lemma yields_separatorSection (hc : c.Live) (hts : ∀ t ∈ ts, Token.Lexeme t)
    (hl : ∀ t ∈ ts, t.kind ≠ .newline) (hr : c.rest = Token.marker :: (ts ++ [Token.lineFeed])) :
    ∃ new, ValueTrees (Token.textOf ts) new ∧
      Yields c.rest [.node .section [titledTree new]] c c.fullSection := by
  obtain ⟨new, hnew, hline⟩ := yields_separatorLine hc.lowered.opened hts hl hr
  have hnil := hline.rest_eq (hr.trans (List.append_nil _).symm)
  have hdone : c.lowered.opened.separator.preambleTurn = .done c.lowered.opened.separator := by
    simp [preambleTurn, hline.live.stopped_eq, atEnd, hnil]
  have hat : c.lowered.opened.atSeparator = true := by
    have hopened : c.lowered.opened.rest = _ := hr
    simp [atSeparator, Lookahead.isSeparatorLine, hopened, Token.marker]
  rw [← loop_of_done hdone] at hline
  refine ⟨new, hnew, .nested hc ?_⟩
  rw [hr, node, hat]
  exact hline.node

/-- A section of a request with one header. -/
lemma yields_requestSection (hc : c.Live) (hts : ∀ t ∈ ts, Token.Lexeme t)
    (hl : ∀ t ∈ ts, t.kind ≠ .newline)
    (hr : c.rest = Token.lineTokens "GET /" ++
      (h.nameTokens ++ Token.colon :: (ts ++ [Token.lineFeed]))) :
    ∃ line new, ValueTrees (Token.textOf ts) new ∧ Yields c.rest
      [.node .section [.node .request (RequestModel.plainSample.requestLineTrees line ++
        [h.treeOf new])]] c c.fullSection := by
  have hr' : c.lowered.opened.rest = _ := hr
  have hfirst := hr'
  have hscan : Token.scan "GET /" = _ := Token.scan_requestLine RequestModel.plainSample
  rw [Token.lineTokens, hscan] at hfirst
  have hblank := exact_eatBlank_skip hc.lowered.opened (by simp [sees, hfirst])
  have hrest := hblank.rest_eq (List.nil_append c.lowered.opened.rest).symm
  obtain ⟨line, new, hnew, hrequest⟩ := yields_request h hblank.live hts hl (hrest.trans hr')
  have hat : c.lowered.opened.atSeparator = false := by
    simp [atSeparator, Lookahead.isSeparatorLine, hfirst]
  have hturn := preambleTurn_eq_request RequestModel.plainSample hc.lowered.opened hr'
  rw [hrest, ← loop_of_done hturn] at hrequest
  refine ⟨line, new, hnew, .nested hc ?_⟩
  rw [node, hat]
  exact (hrequest.after hblank.yields).node

end Cursor

/-! ### Documents -/

namespace Document

/-- A source that is read as one section is a document of it. -/
lemma exists_of_section {source : String} {t : Tree} (hne : Token.scan source ≠ [])
    (h : Cursor.Yields (Token.scan source) [t] (.start .unlimited (Token.scan source))
      (Cursor.start .unlimited (Token.scan source)).fullSection) :
    ∃ d, parse defaultLimits source = .ok d ∧ d.tree = .node .document [t] := by
  rw [← Cursor.sections_start_of_single hne (h.rest_eq (List.append_nil _).symm)] at h
  obtain ⟨p, hp, _⟩ := Parsed.ofSource_unlimited source
  have htree : p.tree = .node .document [t] := by
    obtain ⟨rfl, _, _⟩ := Parsed.ofSource_eq_ok.mp hp
    exact congrArg (Tree.node .document) h.built
  refine ⟨⟨source, p.tree, p.reports ++ nameWarnings [] (sectionsOf p.tree)⟩, ?_, htree⟩
  rw [parse, Parsed.ofSource_defaultLimits, hp]

end Document

namespace ValueTrees

variable {s : String} {n : Nat} {new : List Tree}

/-- The value of a node among whose children are those of a text on its line. -/
lemma text_child? {K : Kind} {front rear : List Tree} (h : ValueTrees s new)
    (hfront : ∀ t ∈ front, t.kind ≠ .value) (hrear : ∀ t ∈ rear, t.kind ≠ .value) :
    (((Placed.mk n (.node K (front ++ (new ++ rear)))).child? .value).map Value.ofTree).map (·.text)
      = lineValue s := by
  have hnone : ∀ ts : List Tree, (∀ t ∈ ts, t.kind ≠ .value) →
      ts.find? (fun t => t.isNode && t.kind == .value) = none := fun ts hts =>
    List.find?_eq_none.mpr fun t ht => by simp [hts t ht]
  calc (((Placed.mk n (.node K (front ++ (new ++ rear)))).child? .value).map Value.ofTree).map
        (·.text)
      = (((Placed.mk n (.node K (front ++ (new ++ rear)))).child? .value).map Placed.tree).map
          Tree.text := by
        rw [Option.map_map, Option.map_map]
        rfl
    _ = ((front ++ (new ++ rear)).find? fun t => t.isNode && t.kind == .value).map Tree.text := by
        rw [Placed.map_tree_child?]
        rfl
    _ = lineValue s := by
        rw [List.find?_append, List.find?_append, hnone _ hfront, hnone _ hrear, Option.none_or,
          Option.or_none, h.value]

lemma value_header (h : ValueTrees s new) (m : HeaderModel) :
    (Entry.ofTree .headerEntity ⟨n, m.treeOf new⟩).value.map (·.text) = lineValue s :=
  h.text_child? (by simp [Tree.kind]) (by simp [Tree.kind])

lemma title_separator (h : ValueTrees s new) :
    (((Placed.mk n (titledTree new)).child? .value).map Value.ofTree).map (·.text) = lineValue s :=
  h.text_child? (show ∀ t ∈ [Tree.leaf .separatorMarker "###"], t.kind ≠ .value by simp [Tree.kind])
    (by simp [Tree.kind])

end ValueTrees

lemma HeaderModel.name_treeOf (m : HeaderModel) (n : Nat) (new : List Tree) :
    (Entry.ofTree .headerEntity ⟨n, m.treeOf new⟩).name.map Piece.text = some m.name :=
  congrArg some (text_node_leaf .headerEntity .text m.name)

namespace Token

variable {s : String}

/-- The tokens of a text at the end of a line. -/
lemma scanFrom_line (hs : OneLine s) :
    scanFrom false 0 (s.toList ++ ['\n']) = scanFrom false 0 s.toList ++ [lineFeed] := by
  have hstop : ∀ c ∈ s.toList.getLast?, Stops c '\n' := fun c hc =>
    ⟨.inl rfl, (hs c (List.mem_of_getLast? hc)).2, by simp⟩
  rw [scanFrom_stop hstop (.inl rfl), scanFrom_lineFeed]
  rfl

/-- A separator with any title. -/
lemma scan_separator (hs : OneLine s) (hhash : s.toList.head? ≠ some '#') :
    scan ("###" ++ s ++ "\n") = marker :: (scanFrom false 0 s.toList ++ [lineFeed]) := by
  have htext : ("###" ++ s ++ "\n").toList = '#' :: '#' :: '#' :: (s.toList ++ ['\n']) := by simp
  have hfirst : (s.toList ++ ['\n']).head? ≠ some '#' := by
    rw [List.head?_append]
    cases hs : s.toList.head? with
    | none => simp
    | some c => simpa [hs] using hhash
  rw [scan, htext, scanFrom_marker _ hfirst, scanFrom_line hs]

/-- A request with one header of any value. -/
lemma scan_header (m : HeaderModel) (hs : OneLine s) :
    scan ("GET /\n" ++ m.name ++ ":" ++ s ++ "\n") = lineTokens "GET /" ++
      (m.nameTokens ++ colon :: (scanFrom false 0 s.toList ++ [lineFeed])) := by
  have hname : OneLine (m.name ++ ":" ++ s) :=
    .append (.append (.of_chars m.name_chars (by decide) (by decide)) (by simp [OneLine])) hs
  have htext : "GET /\n" ++ m.name ++ ":" ++ s ++ "\n" = unlines ["GET /", m.name ++ ":" ++ s] := by
    simp [unlines, String.join_cons, String.append_assoc]
  have hline : scan (m.name ++ ":" ++ s) = m.nameTokens ++ colon :: scanFrom false 0 s.toList := by
    rw [← scan_headerName, scan]
    simp
  have hlines : ∀ l ∈ ["GET /", m.name ++ ":" ++ s], OneLine l :=
    List.forall_mem_cons.mpr ⟨by decide, List.forall_mem_singleton.mpr hname⟩
  rw [htext, scan_unlines hlines, List.flatMap_cons, List.flatMap_singleton,
    lineTokens.eq_1 (m.name ++ ":" ++ s), hline, List.append_assoc, List.cons_append]

end Token

namespace Document

/-- **Values on one line** are kept as they are written: a header and a separator with any text behind
their colon or marker have what is left of it without the blanks at its ends for their value. -/
theorem parse_lineValue {name t : String} (hname : name ≠ "")
    (hchars : ∀ c ∈ name.toList, c.isAlphanum ∨ c = '_' ∨ c = '-') (ht : OneLine t) :
    (∃ d r h, parse defaultLimits ("GET /\n" ++ name ++ ":" ++ t ++ "\n") = .ok d ∧
      d.requests = [r] ∧ r.headers = [h] ∧ h.name.map Piece.text = some name ∧
        h.value.map (·.text) = lineValue t) ∧
    (t.toList.head? ≠ some '#' → ∃ d s title,
      parse defaultLimits ("###" ++ t ++ "\n") = .ok d ∧ d.sections = [s] ∧
        s.separator = some title ∧ title.map (·.text) = lineValue t) := by
  have hline := Token.newline_of_oneLine ht false
  have hlexeme := Token.lexeme_of_mem_scanFrom false t.toList
  have htext : Token.textOf (Token.scanFrom false 0 t.toList) = t :=
    Token.textOf_scanFrom_toList false t
  -- a header and a separator differ in what is in front of the text, not in how it is read
  constructor
  · let m : HeaderModel := ⟨name, "", hname, hchars, by decide⟩
    have hscan := Token.scan_header m ht
    obtain ⟨line, new, hnew, hsection⟩ :=
      Cursor.yields_requestSection m (Cursor.live_start _) hlexeme hline hscan
    obtain ⟨d, hd, htree⟩ := exists_of_section (by rw [hscan]; simp [Token.lineTokens]) hsection
    rw [htext] at hnew
    refine ⟨d, Request.ofTree ⟨0, .node .request
      (RequestModel.plainSample.requestLineTrees line ++ [m.treeOf new])⟩, _, hd, ?_, rfl,
      m.name_treeOf _ new, hnew.value_header m⟩
    rw [requests, sections, htree]
    rfl
  · intro hhash
    have hscan := Token.scan_separator ht hhash
    obtain ⟨new, hnew, hsection⟩ :=
      Cursor.yields_separatorSection (Cursor.live_start _) hlexeme hline hscan
    obtain ⟨d, hd, htree⟩ := exists_of_section (by rw [hscan]; exact List.cons_ne_nil _ _) hsection
    rw [htext] at hnew
    refine ⟨d, Section.ofTree ⟨0, .node .section [titledTree new]⟩, _, hd, ?_, rfl,
      hnew.title_separator⟩
    rw [sections, htree]
    rfl

/-- A reference without a name, one with two words in it and one that is left open, between blanks. -/
theorem parse_lineValue_malformed :
    (∃ d r h,
      parse defaultLimits "GET /\nX-Id:\t\x7b\x7b\x7d\x7d \x7b\x7ba b\x7d\x7d \x7b\x7bc \n" = .ok d ∧
      d.requests = [r] ∧ r.headers = [h] ∧ h.name.map Piece.text = some "X-Id" ∧
        h.value.map (·.text) = some "\x7b\x7b\x7d\x7d \x7b\x7ba b\x7d\x7d \x7b\x7bc") ∧
    ∃ d s title,
      parse defaultLimits "###\t\x7b\x7b\x7d\x7d \x7b\x7ba b\x7d\x7d \x7b\x7bc \n" = .ok d ∧
      d.sections = [s] ∧ s.separator = some title ∧
        title.map (·.text) = some "\x7b\x7b\x7d\x7d \x7b\x7ba b\x7d\x7d \x7b\x7bc" := by
  have hvalue : lineValue "\t\x7b\x7b\x7d\x7d \x7b\x7ba b\x7d\x7d \x7b\x7bc "
      = some "\x7b\x7b\x7d\x7d \x7b\x7ba b\x7d\x7d \x7b\x7bc" := by decide +kernel
  obtain ⟨hheader, hseparator⟩ := parse_lineValue (show "X-Id" ≠ "" by decide) (by decide)
    (show OneLine "\t\x7b\x7b\x7d\x7d \x7b\x7ba b\x7d\x7d \x7b\x7bc " by decide)
  rw [hvalue] at hheader hseparator
  exact ⟨hheader, hseparator (by decide)⟩

end Document

end RequestFile
