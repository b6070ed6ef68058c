import RequestFile.Proofs.Canonical.Quiet

/-!
Parsing printed separators, headers and bodies.

There is one exact run for each printed line, and from these one for each part of a request:
`exact_separator`, `exact_headerLines`, `exact_bodySection` for a body of any kind, and
`exact_message` for all that follows a request line.
-/

namespace RequestFile

/-! ### Trees -/

/-- The tree of a header. -/
def HeaderModel.tree (h : HeaderModel) : Tree :=
  .node .header ([.node .headerEntity [.leaf .text h.name], .leaf .colon ":"]
    ++ Cursor.spacedTrees h.value ++ [.leaf .newline "\n"])

namespace RequestModel

/-- The tree of a separator. -/
def separatorTree (m : RequestModel) : Tree :=
  .node .requestSeparator ([.leaf .separatorMarker "###"]
    ++ Cursor.spacedTrees (m.title.getD "") ++ [.leaf .newline "\n"])

/-- The trees of a version. -/
def versionTrees (m : RequestModel) : List Tree :=
  m.version.elim [] fun v => [.leaf .whitespace " ", .node .httpVersion [.leaf .text ("HTTP/" ++ v)]]

/-- The trees of a request line. -/
def requestLineTrees (m : RequestModel) (url : List Tree) : List Tree :=
  [.node .method [.leaf .text m.method], .leaf .whitespace " ", .node .targetUrl url]
    ++ m.versionTrees ++ [.leaf .newline "\n"]

/-- The trees of a body and the empty line in front of it. -/
def bodyTrees (m : RequestModel) (body : List Tree) : List Tree :=
  m.body.elim [] fun _ => [.leaf .newline "\n", .node .jsonBody body]

/-- The trees of a request, by the pieces of its URL and the lines of its body. -/
def requestTrees (m : RequestModel) (url body : List Tree) : List Tree :=
  m.requestLineTrees url ++ m.headers.map HeaderModel.tree ++ m.bodyTrees body

/-- The tree of a section. -/
def tree (m : RequestModel) (url body : List Tree) : Tree :=
  .node .section [m.separatorTree, .node .request (m.requestTrees url body)]

end RequestModel

namespace Cursor

variable {us : List Token} {c : Cursor} (m : RequestModel) (h : HeaderModel) (j : JsonModel)

/-! ### Ends of sections -/

/-- Where a section ends: at the end or at a separator. -/
def AtSectionEnd (us : List Token) : Prop :=
  us = [] ∨ Lookahead.startsWith .separatorMarker us

/-- Nothing more of a section is read at its end. -/
lemma AtSectionEnd.not_more (h : AtSectionEnd us) (hc : c.Live) (hr : c.rest = us) :
    (!c.stopped && !c.atSeparator) = false := by
  rcases h with rfl | hmarker
  · simp [hc.stopped_eq, atEnd, hr]
  · simp [atSeparator, Lookahead.isSeparatorLine, hr, hmarker]

/-- In front of a token that is no separator more of a section is read. -/
lemma more_of_kind {t : Token} (hc : c.Live) (hr : c.rest = t :: us)
    (ht : t.kind ≠ .separatorMarker) : (!c.stopped && !c.atSeparator) = true := by
  simp [hc.stopped_eq, atEnd, atSeparator, Lookahead.isSeparatorLine, hr, ht]

/-! ### Separators -/

lemma newline_of_spaced {ts : List Token} (ht : Token.InlineTokens ts) :
    ∀ t ∈ Token.spaced ts, t.kind ≠ .newline := by
  rw [Token.spaced]
  split_ifs
  · simp
  · rw [List.forall_mem_cons]
    exact ⟨by decide, ht.newline⟩

/-- The end of a line after a blank is where the line ends in front of it. -/
lemma lineEnd_eatBlank (hc : c.Live) : c.eatBlank.lineEnd = c.lineEnd :=
  (run_eatBlank (e := true) hc).1.lineEnd_eq (eatBlank_le_lineEnd hc)

/-- The marker of a separator, behind which the title stands. -/
lemma exact_marker (hc : c.Live) (hr : c.rest = Token.marker :: us) :
    ∃ d, Exact [Token.marker] [.leaf .separatorMarker "###"] c.look.opened d ∧
      c.separator = ((d.eatBlank.value (d.eatBlank.trimmedEnd d.lineEnd)).eatBlank.eatNewline).closed
        .requestSeparator c.look.built := by
  have hlook := exact_look hc
  have hmarker := exact_bump hlook.live.opened ((look_rest c).trans hr)
  have hsees : c.sees .separatorMarker := by simp [sees, hr, Token.marker]
  refine ⟨_, hmarker, ?_⟩
  rw [← lineEnd_eatBlank hmarker.live, separator, demand_eq hsees]
  rfl

/-- **Separators.** -/
lemma exact_separator (hc : c.Live) (hr : c.rest = Token.lineTokens m.separatorLine ++ us) :
    Exact (Token.lineTokens m.separatorLine) [m.separatorTree] c c.separator := by
  have htitle := Token.inlineTokens_title m
  have htokens : Token.lineTokens m.separatorLine
      = [Token.marker] ++ Token.spaced m.titleTokens ++ [Token.lineFeed] := by
    rw [Token.lineTokens, Token.scan_separatorLine]
    rfl
  have hr' : c.rest = Token.marker :: (Token.spaced m.titleTokens ++ Token.lineFeed :: us) := by
    simpa [htokens] using hr
  obtain ⟨d, hmarker, heq⟩ := exact_marker hc hr'
  have hrest := hmarker.rest_eq ((look_rest c).trans hr')
  have hvalue := exact_spaced hmarker.live hrest htitle
    (lineEnd_eq hrest (newline_of_spaced htitle) rfl)
  have hend := exact_eatNewline hvalue.live (hvalue.rest_eq hrest)
  have hnode := ((hmarker.trans hvalue).trans hend).node (K := .requestSeparator)
  rw [Token.textOf_titleTokens] at hnode
  rw [htokens, heq]
  exact (exact_look hc).trans hnode

/-! ### Headers -/

lemma headerNameLength_eq {ts : List Token} {t : Token}
    (hts : ∀ t ∈ ts, Lookahead.headerNameKinds.contains t.kind)
    (ht : Lookahead.headerNameKinds.contains t.kind = false) :
    Lookahead.headerNameLength (ts ++ t :: us) = ts.length := by
  rw [Lookahead.headerNameLength, List.takeWhile_append_of_pos hts]
  simp [ht]

lemma checkHeaderName_eq {stop : Nat} (hr : c.rest = h.nameTokens ++ us)
    (hs : stop = c.read + h.nameTokens.length) : c.checkHeaderName stop = c := by
  have hlen : stop - c.read = h.nameTokens.length := by omega
  have hname : Token.textOf (c.segment stop) = h.name := by
    rw [segment, hlen, hr, List.take_left, Token.textOf_nameTokens]
  simp only [checkHeaderName, hname]
  exact if_pos (Token.isHeaderName_name h)

/-- The name of a header and the colon after it, behind which the value stands. -/
lemma exact_headerName (hc : c.Live) (hr : c.rest = h.nameTokens ++ Token.colon :: us) :
    ∃ d, Exact (h.nameTokens ++ [Token.colon])
        [.node .headerEntity [.leaf .text h.name], .leaf .colon ":"] c.opened d ∧
      c.header = ((d.eatBlank.value (d.eatBlank.trimmedEnd d.lineEnd)).eatBlank.eatNewline).closed
        .header c.built := by
  have hr' : c.opened.rest = h.nameTokens ++ Token.colon :: us := hr
  have hstop : c.opened.read + Lookahead.headerNameLength c.opened.rest
      = c.opened.read + h.nameTokens.length := by
    rw [hr', headerNameLength_eq (fun t => Token.kind_of_nameTokens h) rfl]
  have hname := exact_leaf (K := .headerEntity) hc.opened hr' (Token.nameTokens_ne_nil h) hstop
  have hrest := hname.rest_eq hr'
  -- no blank stands between the name and the colon
  have hgap := hname.quiet (exact_eatBlank_skip hname.live (by simp [sees, hrest, Token.colon]))
  rw [Token.textOf_nameTokens] at hgap
  simp only [header, node, checkHeaderName_eq h hr' hstop]
  generalize (c.opened.leaf .headerEntity _).eatBlank = e at *
  have hrest' := hgap.rest_eq hr'
  have hsees : e.sees .colon := by simp [sees, hrest', Token.colon]
  have hsees' := (look_sees e _).trans hsees
  have hlook := exact_look hgap.live
  have hcolon := hlook.trans (exact_bump hlook.live ((look_rest e).trans hrest'))
  have hline : e.look.bump.lineEnd = e.lineEnd := by
    rw [(run_bump (e := true) hlook.live hsees').1.lineEnd_eq (bump_le_lineEnd hsees' (by decide)),
      look_lineEnd]
  exact ⟨_, hgap.trans hcolon, by rw [on_pos hsees, hline]⟩

/-- **Headers.** -/
lemma exact_header (hc : c.Live) (hr : c.rest = Token.lineTokens h.line ++ us) :
    Exact (Token.lineTokens h.line) [h.tree] c c.header := by
  have hinline := Token.inlineTokens_value h
  have htokens : Token.lineTokens h.line
      = h.nameTokens ++ [Token.colon] ++ Token.spaced h.valueTokens ++ [Token.lineFeed] := by
    rw [Token.lineTokens, Token.scan_headerLine]
    simp
  have hr' : c.rest = h.nameTokens ++
      (Token.colon :: (Token.spaced h.valueTokens ++ Token.lineFeed :: us)) := by
    simpa [htokens] using hr
  obtain ⟨d, hname, heq⟩ := exact_headerName h hc hr'
  have hrest := hname.rest_eq (hr'.trans (List.append_cons ..))
  have hvalue := exact_spaced hname.live hrest hinline
    (lineEnd_eq hrest (newline_of_spaced hinline) rfl)
  have hend := exact_eatNewline hvalue.live (hvalue.rest_eq hrest)
  have hnode := ((hname.trans hvalue).trans hend).node (K := .header)
  rw [Token.textOf_valueTokens] at hnode
  rw [htokens, heq]
  exact hnode

/-- A name of a header begins with a piece of one. -/
lemma head_nameTokens : ∃ t ts, h.nameTokens = t :: ts ∧
    (t.kind = .word ∨ t.kind = .dash ∨ t.kind = .doubleDash) := by
  obtain ⟨t, ts, ht⟩ := List.exists_cons_of_ne_nil (Token.nameTokens_ne_nil h)
  have hkind := Token.kind_of_nameTokens h (t := t) (by rw [ht]; exact List.mem_cons_self)
  refine ⟨t, ts, ht, ?_⟩
  simpa [Lookahead.headerNameKinds, Lookahead.identifierKinds, KindSet.contains] using hkind

/-- A header line begins with a piece of a name. -/
lemma head_headerLine : ∃ t ts, Token.lineTokens h.line = t :: ts ∧
    (t.kind = .word ∨ t.kind = .dash ∨ t.kind = .doubleDash) := by
  obtain ⟨t, ts, ht, hk⟩ := head_nameTokens h
  refine ⟨t, ts ++ Token.colon :: Token.spaced h.valueTokens ++ [Token.lineFeed], ?_, hk⟩
  rw [Token.lineTokens, Token.scan_headerLine, ht]
  rfl

/-- A piece of a name begins a header. -/
lemma headerLine_of_name {t : Token} (hr : c.rest = t :: us)
    (hk : t.kind = .word ∨ t.kind = .dash ∨ t.kind = .doubleDash) :
    c.headerLine = c.look.header := by
  have hcomment : c.look.seesIn Lookahead.commentKinds = false := by
    rw [seesIn, look_rest, hr]
    rcases hk with hk | hk | hk <;> simp [Lookahead.startsIn, hk] <;> rfl
  have hname : c.look.seesIn Lookahead.headerNameKinds = true := by
    rw [seesIn, look_rest, hr]
    rcases hk with hk | hk | hk <;> simp [Lookahead.startsIn, hk] <;> rfl
  simp only [headerLine, hcomment, hname, Bool.false_eq_true, if_true, if_false]

lemma exact_headerLine (hc : c.Live) (hr : c.rest = Token.lineTokens h.line ++ us) :
    Exact (Token.lineTokens h.line) [h.tree] c c.headerLine := by
  obtain ⟨t, ts, ht, hk⟩ := head_headerLine h
  have hlook := exact_look hc
  have hfirst : c.rest = t :: (ts ++ us) := by rw [hr, ht, List.cons_append]
  rw [headerLine_of_name hfirst hk]
  exact hlook.trans (exact_header h hlook.live ((look_rest c).trans hr))

/-- No header is left at the end of a section or in front of an empty line. -/
lemma headerLines_of_end (hc : c.Live) (hend : AtSectionEnd c.rest ∨ Lookahead.isBlankLine c.rest) :
    c.headerLines = c := by
  refine loopWhile_of_not ?_
  rcases hend with hsection | hblank
  · rw [hsection.not_more hc rfl, Bool.false_and]
  · simp [atBlankLine, hblank]

/-- A piece of a name begins one header more. -/
lemma headerLines_of_name {t : Token} (hc : c.Live) (ha : c.Aligned) (hr : c.rest = t :: us)
    (hk : t.kind = .word ∨ t.kind = .dash ∨ t.kind = .doubleDash) :
    c.headerLines = c.headerLine.headerLines := by
  refine loopWhile_eq (e := true) run_headerLine_turn hc ha ?_
  rw [more_of_kind hc hr (by rcases hk with hk | hk | hk <;> simp [hk]), Bool.true_and, atBlankLine,
    hr, Lookahead.isBlankLine_cons]
  rcases hk with hk | hk | hk <;> simp [hk]

/-- **All headers**, up to the end of the section or an empty line. -/
lemma exact_headerLines (hs : List HeaderModel) (hc : c.Live) (ha : c.Aligned)
    (hr : c.rest = (hs.map HeaderModel.line).flatMap Token.lineTokens ++ us)
    (hend : AtSectionEnd us ∨ Lookahead.isBlankLine us) :
    Exact ((hs.map HeaderModel.line).flatMap Token.lineTokens) (hs.map HeaderModel.tree) c
      c.headerLines := by
  induction hs generalizing c with
  | nil =>
      obtain rfl : c.rest = us := hr
      rw [headerLines_of_end hc hend]
      exact .refl hc
  | cons h hs ih =>
      rw [List.map_cons, List.flatMap_cons, List.append_assoc] at hr
      rw [List.map_cons, List.map_cons, List.flatMap_cons]
      have hline := exact_headerLine h hc hr
      obtain ⟨t, ts, ht, hk⟩ := head_headerLine h
      have hfirst := hr
      rw [ht, List.cons_append] at hfirst
      rw [headerLines_of_name hc ha hfirst hk]
      exact hline.trans (ih hline.live (hline.aligned rfl) (hline.rest_eq hr))

end Cursor

/-! ### Bodies -/

namespace Lookahead

variable {us : List Token} (j : JsonModel)

lemma splitLines_lineTokens {l : String} (hl : OneLine l) (us : List Token) :
    splitLines (Token.lineTokens l ++ us) = Token.lineTokens l :: splitLines us := by
  have hlength : lineLength (Token.lineTokens l ++ us) + 1 = (Token.lineTokens l).length := by
    rw [lineLength, Token.lineTokens, List.append_assoc,
      List.takeWhile_append_of_pos (by simpa [Token.scan] using Token.newline_of_oneLine hl true)]
    simp [Token.lineFeed]
  rw [splitLines_eq (by simp [Token.lineTokens]), hlength, List.take_left, List.drop_left]

lemma splitLines_flatMap {ls : List String} (h : ∀ l ∈ ls, OneLine l) (us : List Token) :
    splitLines (ls.flatMap Token.lineTokens ++ us) = ls.map Token.lineTokens ++ splitLines us := by
  induction ls with
  | nil => rfl
  | cons l ls ih =>
      obtain ⟨hl, hls⟩ := List.forall_mem_cons.mp h
      rw [List.flatMap_cons, List.append_assoc, splitLines_lineTokens hl, ih hls]
      rfl

lemma total_map_lineTokens (ls : List String) :
    total List.length (ls.map Token.lineTokens) = (ls.flatMap Token.lineTokens).length := by
  induction ls with
  | nil => rfl
  | cons l ls ih => rw [List.map_cons, total_cons, ih, List.flatMap_cons, List.length_append]

/-- Lines of which the last is not blank count whole. -/
lemma contentLength_map {ls : List String}
    (h : ∀ l ∈ ls.getLast?, isBlankLine (Token.lineTokens l) = false) :
    contentLength (ls.map Token.lineTokens) = (ls.flatMap Token.lineTokens).length := by
  rw [← total_map_lineTokens, contentLength, ← List.map_reverse, ← total_reverse]
  cases hrev : ls.reverse with
  | nil =>
      obtain rfl := List.reverse_eq_nil_iff.mp hrev
      rfl
  | cons l rs =>
      have hlast : ls.getLast? = some l := by rw [← List.head?_reverse, hrev]; rfl
      rw [List.map_cons, List.dropWhile_cons_of_neg (by simp [h l hlast]), ← List.map_cons, ← hrev,
        List.map_reverse, List.reverse_reverse]

/-- A JSON text goes on to its last line. -/
lemma textLength_json (hend : us = [] ∨ startsWith .separatorMarker us) :
    textLength isBodyStop (j.lines.flatMap Token.lineTokens ++ us)
      = (j.lines.flatMap Token.lineTokens).length := by
  obtain ⟨hfirst, hothers⟩ := List.forall_mem_cons.mp j.oneLine
  have hstop : (splitLines us).takeWhile (fun l => !isBodyStop l) = [] := by
    rcases hend with rfl | hsep
    · rfl
    · obtain ⟨t, ts, rfl, hk⟩ := exists_of_startsWith hsep
      rw [splitLines_eq (List.cons_ne_nil t ts), List.take_succ_cons]
      simp [isBodyStop, hk]
  have hgo : ∀ l ∈ j.others.map Token.lineTokens, (!isBodyStop l) = true := by
    simpa using fun l hl => Token.not_isBodyStop_lineTokens j hl
  have hlast : ∀ l ∈ j.others.getLast?, isBlankLine (Token.lineTokens l) = false := fun l hl =>
    Token.not_isBlankLine_lineTokens (hothers l (List.mem_of_getLast? hl)) (j.last l hl)
  rw [textLength, JsonModel.lines, List.flatMap_cons, List.append_assoc,
    splitLines_lineTokens hfirst, splitLines_flatMap hothers]
  dsimp only
  rw [List.takeWhile_append_of_pos hgo, hstop, List.append_nil, contentLength_map hlast,
    List.length_append]

end Lookahead

namespace Cursor

variable {us : List Token} {c : Cursor} (m : RequestModel) (j : JsonModel)

/-- **JSON texts.** -/
lemma exact_textBody (hc : c.Live) (ha : c.Aligned)
    (hr : c.rest = j.lines.flatMap Token.lineTokens ++ us) (hend : AtSectionEnd us) :
    ∃ body, Exact (j.lines.flatMap Token.lineTokens) [.node .jsonBody body] c
      (c.textBody .jsonBody) := by
  have hne : c.rest ≠ [] := by simp [hr, JsonModel.lines, Token.lineTokens]
  have hlength := Lookahead.textLength_json j hend
  rw [← hr] at hlength
  have hread : (c.textBody .jsonBody).read
      = c.read + (j.lines.flatMap Token.lineTokens).length := by
    rw [textBody, ← hlength]
    exact (run_textNode (e := true) hc ha (Lookahead.lineBreak_textLength ..)).2.1
  obtain ⟨_, ⟨body, _, rfl⟩, hexact⟩ := (run_textBody (e := true) (K := .jsonBody) hc ha hne).exact
    (textLines_reports _ c.opened) hr hread
  exact ⟨body, hexact⟩

/-- The tokens of the body with the empty line in front of it. -/
lemma bodyTokens_eq : m.bodyLines.flatMap Token.lineTokens
    = m.body.elim [] fun j => Token.lineFeed :: j.lines.flatMap Token.lineTokens := by
  rw [RequestModel.bodyLines]
  cases m.body <;> rfl

/-- A JSON text begins a line that is told by its first token. -/
lemma ofTokens_json (us : List Token) :
    ∃ t ts, j.lines.flatMap Token.lineTokens ++ us = t :: ts ∧ t.kind ≠ .separatorMarker ∧
      BodyLine.ofTokens (t :: ts) = .json := by
  obtain ⟨t, ts, hscan, hk⟩ := Token.scan_first j
  refine ⟨t, ts ++ Token.lineFeed :: (j.others.flatMap Token.lineTokens ++ us), ?_, ?_, ?_⟩
  · simp [JsonModel.lines, Token.lineTokens, hscan]
  · rcases hk with hk | hk <;> simp [hk]
  · rcases hk with hk | hk <;> simp [BodyLine.ofTokens, Lookahead.isBlankLine_cons, hk]

/-- **Body sections** of an empty line and one thing after it. -/
lemma exact_bodySection {ts : List Token} {line : BodyLine} {P : List Tree → Prop} (hc : c.Live)
    (ha : c.Aligned) (hr : c.rest = Token.lineFeed :: (ts ++ us)) (hend : AtSectionEnd us)
    (hfirst : ∃ t ts', ts ++ us = t :: ts' ∧ t.kind ≠ .separatorMarker ∧
      BodyLine.ofTokens (t :: ts') = line)
    (hitem : ∀ d : Cursor, d.Live → d.Aligned → d.rest = ts ++ us →
      ∃ new, P new ∧ Exact ts new d (d.bodyItem line)) :
    ∃ new, P new ∧ Exact (Token.lineFeed :: ts) (.leaf .newline "\n" :: new) c c.bodySection := by
  let turn : Cursor → Cursor := fun c => c.bodyItem (BodyLine.ofTokens c.rest)
  have hd := hc.lowered
  have had : c.lowered.Aligned := ha
  replace hr : c.lowered.rest = Token.lineFeed :: (ts ++ us) := hr
  suffices h : ∃ new, P new ∧ Exact (Token.lineFeed :: ts) (.leaf .newline "\n" :: new) c.lowered
      (c.lowered.loopWhile (fun c => !c.stopped && !c.atSeparator) turn) from
    h.imp fun new hnew => ⟨hnew.1, .nested hc hnew.2⟩
  generalize c.lowered = d at *
  -- the empty line
  have hblank : turn d = d.eatBlankLine := by
    have htokens : BodyLine.ofTokens d.rest = .blank := by
      simp [BodyLine.ofTokens, hr, Lookahead.isBlankLine_cons, Token.lineFeed]
    simp only [turn, htokens, bodyItem]
  have hskip := exact_eatBlank_skip hd (by simp [sees, hr, Token.lineFeed])
  have hempty := hskip.trans (exact_eatNewline hskip.live (hskip.rest_eq hr))
  have ha' := hempty.aligned rfl
  rw [← eatBlankLine, ← hblank] at hempty ha'
  rw [List.nil_append, List.nil_append] at hempty
  have hrest' : (turn d).rest = ts ++ us := hempty.rest_eq hr
  -- what follows it
  obtain ⟨t, ts', hsplit, hsep, htold⟩ := hfirst
  obtain ⟨new, hnew, hexact⟩ := hitem (turn d) hempty.live ha' hrest'
  have hbody : turn (turn d) = (turn d).bodyItem line := by
    rw [← hsplit, ← hrest'] at htold
    change (turn d).bodyItem (BodyLine.ofTokens (turn d).rest) = _
    rw [htold]
  rw [← hbody] at hexact
  -- nothing more
  have hdone := hend.not_more hexact.live (hexact.rest_eq hrest')
  have hloop : loopWhile (fun c => !c.stopped && !c.atSeparator) turn d = turn (turn d) := by
    rw [loopWhile_eq (e := true) run_bodyItem_turn hd had (more_of_kind hd hr (by decide)),
      loopWhile_eq (e := true) run_bodyItem_turn hempty.live ha'
        (more_of_kind hempty.live (hrest'.trans hsplit) hsep), loopWhile_of_not hdone]
  refine ⟨new, hnew, ?_⟩
  rw [hloop]
  exact hempty.trans hexact

/-- **Headers and one body**, which an empty line stands in front of. -/
lemma exact_messageWithBody {hs : List HeaderModel} {ts : List Token} {line : BodyLine}
    {P : List Tree → Prop} (hc : c.Live) (ha : c.Aligned)
    (hr : c.rest = (hs.map HeaderModel.line).flatMap Token.lineTokens
      ++ Token.lineFeed :: (ts ++ us))
    (hend : AtSectionEnd us)
    (hfirst : ∃ t ts', ts ++ us = t :: ts' ∧ t.kind ≠ .separatorMarker ∧
      BodyLine.ofTokens (t :: ts') = line)
    (hitem : ∀ d : Cursor, d.Live → d.Aligned → d.rest = ts ++ us →
      ∃ new, P new ∧ Exact ts new d (d.bodyItem line)) :
    ∃ new, P new ∧
      Exact ((hs.map HeaderModel.line).flatMap Token.lineTokens ++ Token.lineFeed :: ts)
        (hs.map HeaderModel.tree ++ .leaf .newline "\n" :: new) c c.message := by
  have hblank : Lookahead.isBlankLine (Token.lineFeed :: (ts ++ us)) := by
    simp [Lookahead.isBlankLine_cons, Token.lineFeed]
  have hheaders := exact_headerLines hs hc ha hr (Or.inr hblank)
  have hrest := hheaders.rest_eq hr
  have ha' := (run_headerLines (e := true) hc ha).2.1
  simp only [message]
  generalize c.headerLines = d at *
  have hmore : (!d.stopped && !d.atSeparator && d.atBlankLine) = true := by
    rw [more_of_kind hheaders.live hrest (by decide), Bool.true_and, atBlankLine, hrest]
    exact hblank
  obtain ⟨new, hnew, hbody⟩ := exact_bodySection hheaders.live ha' hrest hend hfirst hitem
  simp only [hmore]
  exact ⟨new, hnew, hheaders.trans hbody⟩

/-- Where the section ends behind the headers there is no body. -/
lemma message_of_end (hlive : c.headerLines.Live) (hend : AtSectionEnd c.headerLines.rest) :
    c.message = c.headerLines := by
  have hnone := hend.not_more hlive rfl
  simp only [message, hnone, Bool.false_and]
  rfl

/-- **Headers alone**, behind which the section ends. -/
lemma exact_messageWithoutBody (hs : List HeaderModel) (hc : c.Live) (ha : c.Aligned)
    (hr : c.rest = (hs.map HeaderModel.line).flatMap Token.lineTokens ++ us)
    (hend : AtSectionEnd us) :
    Exact ((hs.map HeaderModel.line).flatMap Token.lineTokens) (hs.map HeaderModel.tree) c
      c.message := by
  have hheaders := exact_headerLines hs hc ha hr (Or.inl hend)
  rw [message_of_end hheaders.live (by rwa [hheaders.rest_eq hr])]
  exact hheaders

/-- **Headers and body.** -/
lemma exact_message (hc : c.Live) (ha : c.Aligned)
    (hr : c.rest = (m.headers.map HeaderModel.line ++ m.bodyLines).flatMap Token.lineTokens ++ us)
    (hend : AtSectionEnd us) :
    ∃ body, Exact ((m.headers.map HeaderModel.line ++ m.bodyLines).flatMap Token.lineTokens)
      (m.headers.map HeaderModel.tree ++ m.bodyTrees body) c c.message := by
  rw [List.flatMap_append, List.append_assoc, bodyTokens_eq] at hr
  rw [List.flatMap_append, bodyTokens_eq]
  simp only [RequestModel.bodyTrees]
  cases hb : m.body with
  | none =>
      rw [hb] at hr
      simp only [Option.elim_none, List.append_nil]
      exact ⟨[], exact_messageWithoutBody m.headers hc ha hr hend⟩
  | some j =>
      rw [hb] at hr
      obtain ⟨_, ⟨body, rfl⟩, hexact⟩ := exact_messageWithBody
        (P := fun new => ∃ body, new = [.node .jsonBody body]) hc ha hr hend (ofTokens_json j us)
        fun d hd had hrest => by
          obtain ⟨body, htext⟩ := exact_textBody j hd had hrest hend
          exact ⟨_, ⟨body, rfl⟩, htext⟩
      exact ⟨body, hexact⟩

end Cursor

end RequestFile
