import RequestFile.Proofs.Canonical.Message

/-!
Parsing printed sections.

A printed request line is read as its method, its URL and its version (`exact_requestLine`), a
printed request as its line and its message (`exact_request`). A section is one request
(`exact_fullSection`), and the sections of a printed list are its requests (`exact_sections`).
-/

namespace RequestFile

/-! ### Request lines -/

namespace Lookahead

/-- A line that does not end with a blank and a version has none. -/
lemma splitVersion_eq_none {ts : List Token} (hlast : ∀ t ∈ ts.getLast?, t.kind ≠ .whitespace)
    (h : startsWith .whitespace (ts.drop (ts.length - 4)) = false ∨
      isVersion (ts.drop (ts.length - 3)) = false) : splitVersion ts = (ts.length, none) := by
  rcases h with h | h <;> simp [splitVersion, trimmedLength_eq hlast, h]

/-- A line without blanks has no version. -/
lemma splitVersion_of_solid {ts : List Token} (h : ∀ t ∈ ts, t.kind ≠ .whitespace) :
    splitVersion ts = (ts.length, none) := by
  refine splitVersion_eq_none (fun t ht => h t (List.mem_of_getLast? ht)) (.inl ?_)
  by_contra hblank
  obtain ⟨t, us, ht, hk⟩ := exists_of_startsWith (by simpa using hblank)
  exact h t (List.mem_of_mem_drop (by rw [ht]; exact List.mem_cons_self)) hk

/-- A line has no version if two tokens at its end cannot be the last of one. -/
lemma splitVersion_of_suffix {ts us : List Token} (hsuffix : us <:+ ts) (hlen : 2 ≤ us.length)
    (hlast : ∀ t ∈ us.getLast?, t.kind ≠ .whitespace)
    (h : (∀ t ∈ us, t.kind ≠ .slash) ∨ ∀ t ∈ us.getLast?, t.kind ≠ .word) :
    splitVersion ts = (ts.length, none) := by
  have hne : us ≠ [] := List.ne_nil_of_length_pos (by omega)
  obtain ⟨front, rfl⟩ := hsuffix
  refine splitVersion_eq_none ?_ (.inr (Bool.eq_false_iff.mpr fun hversion => ?_))
  · rwa [List.getLast?_append_of_ne_nil _ hne]
  obtain ⟨a, b, c, vs, hdrop, _, _, hb, hc, _⟩ := isVersion_iff.mp hversion
  have hlength := congrArg List.length hdrop
  rw [List.length_drop] at hlength
  simp only [List.length_cons] at hlength
  obtain rfl : vs = [] := List.eq_nil_of_length_eq_zero (by omega)
  have htwo : [b, c] <:+ us := List.suffix_of_suffix_length_le
    ((List.suffix_cons a [b, c]).trans (hdrop ▸ List.drop_suffix _ _)) (List.suffix_append _ _) hlen
  obtain ⟨ws, rfl⟩ := htwo
  rcases h with h | h
  · exact h b (by simp) hb
  · exact h c (by simp) hc

variable (m : RequestModel)

/-- The version stands apart from the URL. -/
lemma splitVersion_eq : splitVersion (m.urlTokens ++ m.versionTokens)
    = (m.urlTokens.length, m.version.map fun _ => m.urlTokens.length + 1) := by
  have hlast : ∀ t ∈ m.urlTokens.getLast?, t.kind ≠ .whitespace := fun t ht =>
    (Token.kind_of_urlTokens m (List.mem_of_getLast? ht)).2.1
  have htrim := trimmedLength_eq hlast
  rw [RequestModel.versionTokens]
  cases hv : m.version with
  | none =>
      rw [Option.elim_none, List.append_nil]
      exact splitVersion_of_solid fun t ht => (Token.kind_of_urlTokens m ht).2.1
  | some v =>
      have hnumber := m.version_number v hv
      -- a version is the last three tokens of the line, and the blank before them is the fourth
      have hall : trimmedLength
          (m.urlTokens ++ [Token.blank, ⟨.word, "HTTP"⟩, ⟨.slash, "/"⟩, ⟨.word, v⟩])
          = m.urlTokens.length + 4 := by
        rw [trimmedLength_eq (by simp)]
        simp
      have hurl : trimmedLength (m.urlTokens ++ [Token.blank]) = m.urlTokens.length :=
        (trimmedLength_concat m.urlTokens rfl).trans htrim
      have hfour : m.urlTokens.length + 4 - 4 = m.urlTokens.length := by omega
      have hthree : m.urlTokens.length + 4 - 3 = (m.urlTokens ++ [Token.blank]).length := by
        rw [List.length_append, List.length_singleton]
        omega
      have hcut : m.urlTokens ++ [Token.blank, ⟨.word, "HTTP"⟩, ⟨.slash, "/"⟩, ⟨.word, v⟩]
          = (m.urlTokens ++ [Token.blank]) ++ [⟨.word, "HTTP"⟩, ⟨.slash, "/"⟩, ⟨.word, v⟩] := by
        simp
      have hversion : isVersion [⟨.word, "HTTP"⟩, ⟨.slash, "/"⟩, ⟨.word, v⟩] = true := by
        simp [isVersion, headText, hnumber]
      have hspace : startsWith .whitespace
          [Token.blank, ⟨.word, "HTTP"⟩, ⟨.slash, "/"⟩, ⟨.word, v⟩] = true := rfl
      simp only [splitVersion, Option.elim_some, hall, hfour, List.drop_left, hspace]
      rw [hthree, hcut, List.drop_left, List.take_left, hversion, hurl]
      simp

end Lookahead

namespace Cursor

variable {us : List Token} {c : Cursor} (m : RequestModel)

/-- A URL begins with neither a blank nor the end of a line. -/
lemma head_urlTokens : ∃ t ts, m.urlTokens = t :: ts ∧ t.kind ≠ .newline ∧ t.kind ≠ .whitespace := by
  obtain ⟨t, ts, ht⟩ := List.exists_cons_of_ne_nil (Token.urlTokens_ne_nil m)
  have hkind := Token.kind_of_urlTokens m (t := t) (by rw [ht]; exact List.mem_cons_self)
  exact ⟨t, ts, ht, hkind.1, hkind.2.1⟩

/-- A method in front of something on its line. -/
lemma exact_methodOf {s : String} {t : Token} (hs : s ∈ Lookahead.methods) (hn : t.kind ≠ .newline)
    (hb : t.kind ≠ .whitespace) (hc : c.Live)
    (hr : c.rest = ⟨.word, s⟩ :: Token.blank :: t :: us) :
    Exact [⟨.word, s⟩, Token.blank] [.node .method [.leaf .text s], .leaf .whitespace " "] c
      c.method := by
  have hlook := exact_look hc
  have hr' : c.look.rest = [⟨.word, s⟩] ++ Token.blank :: t :: us := (look_rest c).trans hr
  have hleaf := hlook.trans (exact_leaf (K := .method) hlook.live hr' (by simp) rfl)
  have hblank := exact_eatBlank hleaf.live (hleaf.rest_eq hr)
  have hmethod : Lookahead.methods.contains (Lookahead.headText c.look.rest) = true := by
    rw [hr']
    exact List.contains_iff_mem.mpr hs
  have hword : (c.look.sees .word && Lookahead.startsWith .whitespace (c.look.rest.drop 1)
      && !Lookahead.isBlankLine (c.look.rest.drop 1)) = true := by
    simp [sees, hr, Token.blank, Lookahead.isBlankLine_cons, hn, hb]
  simp only [method, hword, hmethod, if_true]
  simpa using hleaf.trans hblank

/-- **Methods.** -/
lemma exact_method (hc : c.Live)
    (hr : c.rest = ⟨.word, m.method⟩ :: Token.blank :: (m.urlTokens ++ us)) :
    Exact [⟨.word, m.method⟩, Token.blank]
      [.node .method [.leaf .text m.method], .leaf .whitespace " "] c c.method := by
  obtain ⟨t, ts, ht, hn, hb⟩ := head_urlTokens m
  rw [ht, List.cons_append] at hr
  exact exact_methodOf m.method_known hn hb hc hr

lemma newline_of_versionTokens : ∀ t ∈ m.versionTokens, t.kind ≠ .newline := by
  rw [RequestModel.versionTokens]
  cases m.version <;> simp [Token.blank]

/-- The content of the URL on its line. -/
lemma exact_urlLine (hc : c.Live) (hr : c.rest = m.urlTokens ++ us) :
    ∃ url, Exact m.urlTokens url c (c.urlLine (c.read + m.urlTokens.length)) := by
  have hkind := fun t (ht : t ∈ m.urlTokens) => Token.kind_of_urlTokens m ht
  have hw : WithinLine (c.read + m.urlTokens.length) c :=
    ⟨Nat.le_add_right _ _, le_lineEnd hr fun t ht => (hkind t ht).1⟩
  have hplain : Plain (c.read + m.urlTokens.length) c := fun t ht => by
    rw [segment, Nat.add_sub_cancel_left, hr, List.take_left] at ht
    exact (hkind t ht).2.2
  obtain ⟨hrun, hread⟩ := run_urlLine (e := true) hc hw
  obtain ⟨url, _, hexact⟩ := hrun.exact (urlLine_reports hc hw hplain) hr hread
  exact ⟨url, hexact⟩

/-- A URL on one line, by its content and what is taken for a version behind it. -/
lemma exact_targetUrlOf {uts vts : List Token} {v : Option Nat} {url : List Tree}
    (hr : c.rest = uts ++ (vts ++ us)) (hurl : c.HasUrl)
    (hkinds : ∀ t ∈ uts ++ vts, t.kind ≠ .newline)
    (hend : us = [] ∨ Lookahead.startsWith .newline us)
    (hsplit : Lookahead.splitVersion (uts ++ vts) = (uts.length, v))
    (hnext : v = none → Lookahead.nextLineIsIndented (vts ++ us) = false)
    (hexact : Exact uts url c.opened (c.opened.urlLine (c.opened.read + uts.length))) :
    Exact uts [.node .targetUrl url] c c.targetUrl.1 ∧
      c.targetUrl.2 = v.map (c.read + ·) := by
  have hline : Lookahead.line c.rest = uts ++ vts := by
    rw [hr, ← List.append_assoc, Lookahead.line,
      List.takeWhile_append_of_pos (by simpa using hkinds)]
    rcases hend with rfl | hnl
    · simp
    · obtain ⟨t, ts, rfl, hk⟩ := Lookahead.exists_of_startsWith hnl
      simp [hk]
  rw [← hline] at hsplit
  -- the next line is not indented, so the URL ends here
  have hdone : ((v.map (c.read + ·)).isNone && Lookahead.nextLineIsIndented
      (c.opened.urlLine (c.opened.read + uts.length)).rest) = false := by
    rw [hexact.rest_eq hr]
    cases v with
    | none => exact hnext rfl
    | some v => rfl
  have hlines : c.opened.urlLines
      = (c.opened.urlLine (c.opened.read + uts.length), v.map (c.read + ·)) := by
    have hsplit' : Lookahead.splitVersion (Lookahead.line c.opened.rest) = _ := hsplit
    have hposition : v.map (c.opened.read + ·) = v.map (c.read + ·) := rfl
    simp only [urlLines, hsplit', hposition, urlNextLines, hdone]
    rfl
  rw [targetUrl_eq hurl, hlines]
  exact ⟨hexact.node, rfl⟩

/-- **URLs.** -/
lemma exact_targetUrl (hc : c.Live)
    (hr : c.rest = m.urlTokens ++ (m.versionTokens ++ Token.lineFeed :: us))
    (hus : ¬Lookahead.startsWith .whitespace us) :
    ∃ url, Tree.textOf url = m.url ∧ Exact m.urlTokens [.node .targetUrl url] c c.targetUrl.1 ∧
      c.targetUrl.2 = m.version.map fun _ => c.read + m.urlTokens.length + 1 := by
  obtain ⟨t, ts, ht, hn, hb⟩ := head_urlTokens m
  have hurl : c.HasUrl :=
    ⟨t, ts ++ (m.versionTokens ++ Token.lineFeed :: us), by rw [hr, ht]; rfl, hn, hb⟩
  have hkinds : ∀ t ∈ m.urlTokens ++ m.versionTokens, t.kind ≠ .newline := fun t ht =>
    (List.mem_append.mp ht).elim (fun h => (Token.kind_of_urlTokens m h).1)
      (newline_of_versionTokens m t)
  have hnext : (m.version.map fun _ => m.urlTokens.length + 1) = none →
      Lookahead.nextLineIsIndented (m.versionTokens ++ Token.lineFeed :: us) = false := by
    rw [RequestModel.versionTokens]
    cases m.version with
    | none => simp [Lookahead.nextLineIsIndented, Lookahead.lineLength_cons, Token.lineFeed, hus]
    | some v => exact fun h => by cases h
  obtain ⟨url, hexact⟩ := exact_urlLine m hc.opened hr
  obtain ⟨htarget, hposition⟩ := exact_targetUrlOf hr hurl hkinds (.inr (by simp [Token.lineFeed]))
    (Lookahead.splitVersion_eq m) hnext hexact
  refine ⟨url, hexact.text.trans (Token.textOf_urlTokens m), htarget, hposition.trans ?_⟩
  cases m.version <;> rfl

/-- **Versions.** -/
lemma exact_version (hc : c.Live) (hr : c.rest = m.versionTokens ++ us) :
    Exact m.versionTokens m.versionTrees c (c.version (m.version.map fun _ => c.read + 1)) := by
  rw [RequestModel.versionTokens] at hr ⊢
  rw [RequestModel.versionTrees]
  cases hv : m.version with
  | none => exact .refl hc
  | some v =>
      rw [hv] at hr
      have hblank := exact_eatBlank hc hr
      have hread : c.eatBlank.read = c.read + 1 := hblank.read
      have hrest : c.eatBlank.rest = [⟨.word, "HTTP"⟩, ⟨.slash, "/"⟩, ⟨.word, v⟩] ++ us :=
        hblank.rest_eq hr
      have hstop : c.read + 1 + 3 = c.eatBlank.read + 3 := by rw [hread]
      have hleaf := exact_leaf (K := .httpVersion) hblank.live hrest (List.cons_ne_nil _ _) hstop
      have htext : Token.textOf [⟨.word, "HTTP"⟩, ⟨.slash, "/"⟩, ⟨.word, v⟩] = "HTTP/" ++ v := by
        simp [← String.append_assoc]
      rw [htext] at hleaf
      simp only [Option.map_some, version, hread, if_true]
      exact hblank.trans hleaf

/-- **Request lines.** -/
lemma exact_requestLine (hc : c.Live) (hr : c.rest = Token.lineTokens m.requestLine ++ us)
    (hus : ¬Lookahead.startsWith .whitespace us) :
    ∃ url, Tree.textOf url = m.url ∧
      Exact (Token.lineTokens m.requestLine) (m.requestLineTrees url) c c.requestLine := by
  have htokens : Token.lineTokens m.requestLine = [⟨.word, m.method⟩, Token.blank]
      ++ m.urlTokens ++ m.versionTokens ++ [Token.lineFeed] := by
    rw [Token.lineTokens, Token.scan_requestLine]
    simp
  have hr' : c.rest = ⟨.word, m.method⟩ :: Token.blank ::
      (m.urlTokens ++ (m.versionTokens ++ Token.lineFeed :: us)) := by
    rw [hr, htokens]
    simp
  have hmethod := exact_method m hc hr'
  have hrest := hmethod.rest_eq hr'
  obtain ⟨url, htext, hurl, hposition⟩ := exact_targetUrl m hmethod.live hrest hus
  have hrest' := hurl.rest_eq hrest
  rw [← hurl.read] at hposition
  have hversion := exact_version m hurl.live hrest'
  rw [← hposition] at hversion
  have hend := exact_endLine hversion.live (hversion.rest_eq hrest') "unexpected text after the URL"
  refine ⟨url, htext, ?_⟩
  rw [htokens]
  exact ((hmethod.trans hurl).trans hversion).trans hend

/-! ### Sections -/

/-- The tokens after a request line. -/
abbrev messageTokens : List Token :=
  (m.headers.map HeaderModel.line ++ m.bodyLines).flatMap Token.lineTokens

/-- The line after a request line is not indented. -/
lemma not_blank_message (hend : AtSectionEnd us) :
    ¬Lookahead.startsWith .whitespace (messageTokens m ++ us) := by
  rw [messageTokens, List.flatMap_append, bodyTokens_eq]
  cases hh : m.headers with
  | cons h hs =>
      obtain ⟨t, ts, ht, hk⟩ := head_headerLine h
      rcases hk with hk | hk | hk <;> simp [ht, hk]
  | nil =>
      cases m.body with
      | some j => simp [Token.lineFeed]
      | none =>
          rcases hend with rfl | hmarker
          · simp
          · obtain ⟨t, ts, rfl, hk⟩ := Lookahead.exists_of_startsWith hmarker
            simp [hk]

/-- A request, by its line and its message. -/
lemma exact_requestOf {lts ts : List Token} {P Q : List Tree → Prop} (hc : c.Live)
    (hr : c.rest = lts ++ (ts ++ us))
    (hline : ∀ d : Cursor, d.Live → d.rest = lts ++ (ts ++ us) →
      ∃ new, P new ∧ Exact lts new d d.requestLine ∧ d.requestLine.Aligned)
    (hmessage : ∀ d : Cursor, d.Live → d.Aligned → d.rest = ts ++ us →
      ∃ new, Q new ∧ Exact ts new d d.message) :
    ∃ line new, P line ∧ Q new ∧ Exact (lts ++ ts) [.node .request (line ++ new)] c c.request := by
  obtain ⟨line, hp, hlexact, halign⟩ := hline _ hc.lowered.opened hr
  obtain ⟨new, hq, hexact⟩ := hmessage _ hlexact.live halign (hlexact.rest_eq hr)
  exact ⟨line, new, hp, hq, .nested hc (hlexact.trans hexact).node⟩

/-- **Requests** with any message. -/
lemma exact_requestWith {ts : List Token} {P : List Tree → Prop} (hc : c.Live)
    (hr : c.rest = Token.lineTokens m.requestLine ++ (ts ++ us))
    (hnext : ¬Lookahead.startsWith .whitespace (ts ++ us))
    (hmessage : ∀ d : Cursor, d.Live → d.Aligned → d.rest = ts ++ us →
      ∃ new, P new ∧ Exact ts new d d.message) :
    ∃ url new, Tree.textOf url = m.url ∧ P new ∧ Exact (Token.lineTokens m.requestLine ++ ts)
      [.node .request (m.requestLineTrees url ++ new)] c c.request := by
  obtain ⟨_, new, ⟨url, htext, rfl⟩, hnew, hexact⟩ := exact_requestOf
    (P := fun line => ∃ url, Tree.textOf url = m.url ∧ line = m.requestLineTrees url) hc hr
    (fun d hd hrest => by
      obtain ⟨url, htext, hline⟩ := exact_requestLine m hd hrest hnext
      exact ⟨_, ⟨url, htext, rfl⟩, hline, hline.aligned rfl⟩) hmessage
  exact ⟨url, new, htext, hnew, hexact⟩

/-- **Requests.** -/
lemma exact_request (hc : c.Live)
    (hr : c.rest = Token.lineTokens m.requestLine ++ (messageTokens m ++ us))
    (hend : AtSectionEnd us) :
    ∃ url body, Tree.textOf url = m.url ∧ Exact (Token.lineTokens m.requestLine ++ messageTokens m)
      [.node .request (m.requestTrees url body)] c c.request := by
  obtain ⟨url, _, htext, ⟨body, rfl⟩, hexact⟩ := exact_requestWith m
    (P := fun new => ∃ body, new = m.headers.map HeaderModel.tree ++ m.bodyTrees body) hc hr
    (not_blank_message m hend) fun d hd had hrest => by
      obtain ⟨body, hmessage⟩ := exact_message m hd had hrest hend
      exact ⟨_, ⟨body, rfl⟩, hmessage⟩
  rw [← List.append_assoc] at hexact
  exact ⟨url, body, htext, hexact⟩

/-- A method begins a request. -/
lemma preambleTurn_of_method {s : String} (hs : s ∈ Lookahead.methods) (hc : c.Live)
    (hr : c.rest = ⟨.word, s⟩ :: Token.blank :: us) : c.preambleTurn = .done c.eatBlank.request := by
  have hnames : s ∉ Lookahead.commandNames ∧ s ≠ "HTTP" := by
    revert hs
    generalize s = w
    revert w
    decide
  have hline : PreambleLine.ofTokens (Lookahead.skipBlanks c.rest) = .request := by
    rw [hr, Lookahead.skipBlanks_cons, if_neg (by simp)]
    simp [PreambleLine.ofTokens, Lookahead.isCommand, Lookahead.isVersion, Lookahead.headText, hnames]
  have hmore : (c.stopped || c.atSeparator) = false := by
    simp [hc.stopped_eq, atEnd, atSeparator, Lookahead.isSeparatorLine, hr]
  simp only [preambleTurn, hline, hmore]
  rfl

lemma preambleTurn_eq_request (hc : c.Live) (hr : c.rest = Token.lineTokens m.requestLine ++ us) :
    c.preambleTurn = .done c.eatBlank.request := by
  have hr' : c.rest = ⟨.word, m.method⟩ :: Token.blank ::
      (m.urlTokens ++ m.versionTokens ++ [Token.lineFeed] ++ us) := by
    rw [hr, Token.lineTokens, Token.scan_requestLine]
    rfl
  exact preambleTurn_of_method m.method_known hc hr'

/-- **Sections.** -/
lemma exact_fullSection (hc : c.Live) (hr : c.rest = m.lines.flatMap Token.lineTokens ++ us)
    (hend : AtSectionEnd us) :
    ∃ url body, Tree.textOf url = m.url ∧
      Exact (m.lines.flatMap Token.lineTokens) [m.tree url body] c c.fullSection := by
  have htokens : m.lines.flatMap Token.lineTokens = Token.lineTokens m.separatorLine
      ++ (Token.lineTokens m.requestLine ++ messageTokens m) := rfl
  have hd := hc.lowered.opened
  rw [htokens, List.append_assoc, List.append_assoc] at hr
  have hopened : c.lowered.opened.rest = _ := hr
  have hsep := exact_separator m hd hr
  have hrest' := hsep.rest_eq hr
  have hblank := exact_eatBlank_skip hsep.live
    (by simp [sees, hrest', Token.lineTokens, Token.scan_requestLine])
  obtain ⟨url, body, htext, hrequest⟩ := exact_request m hblank.live (hblank.rest_eq hrest') hend
  have hat : c.lowered.opened.atSeparator = true := by
    simp [atSeparator, Lookahead.isSeparatorLine, hopened, Token.lineTokens, Token.scan_separatorLine,
      Token.marker]
  have hnode := (hsep.trans (hblank.trans hrequest)).node (K := .section)
  rw [← loop_of_done (preambleTurn_eq_request m hsep.live hrest')] at hnode
  refine ⟨url, body, htext, .nested hc ?_⟩
  rw [node, hat]
  exact hnode

end Cursor

/-- Trees of the sections of printed requests: the URLs hold their texts, and the sections what was
printed. -/
inductive RequestModel.TreesOf : List RequestModel → List Tree → Prop
  | nil : TreesOf [] []
  | cons {m : RequestModel} {ms : List RequestModel} {ts : List Tree} {url body : List Tree}
      (text : (m.tree url body).text = unlines m.lines) (url_text : Tree.textOf url = m.url)
      (tail : TreesOf ms ts) : TreesOf (m :: ms) (m.tree url body :: ts)

namespace Cursor

variable {c : Cursor}

/-- **Printed requests** are parsed to their trees. -/
lemma exact_sections (ms : List RequestModel) (hc : c.Live) (ha : c.Aligned)
    (hr : c.rest = (ms.flatMap RequestModel.lines).flatMap Token.lineTokens) :
    ∃ new, RequestModel.TreesOf ms new ∧
      Exact ((ms.flatMap RequestModel.lines).flatMap Token.lineTokens) new c c.sections := by
  induction ms generalizing c with
  | nil =>
      rw [sections_of_nil hr]
      exact ⟨[], .nil, .refl hc⟩
  | cons m ms ih =>
      rw [List.flatMap_cons, List.flatMap_append] at hr ⊢
      have hend : AtSectionEnd ((ms.flatMap RequestModel.lines).flatMap Token.lineTokens) := by
        cases ms with
        | nil => exact Or.inl rfl
        | cons m' ms =>
            right
            simp [RequestModel.lines, Token.lineTokens, Token.scan_separatorLine, Token.marker]
      obtain ⟨url, body, hurl, hsection⟩ := exact_fullSection m hc hr hend
      have hne : c.rest ≠ [] := by
        simp [hr, RequestModel.lines, Token.lineTokens]
      obtain ⟨new, htrees, hnew⟩ := ih hsection.live (run_fullSection (e := true) hc ha).2.1.1
        (hsection.rest_eq hr)
      refine ⟨m.tree url body :: new, .cons ?_ hurl htrees, ?_⟩
      · rw [← Tree.textOf_singleton, hsection.text, ← Token.scan_unlines (oneLine_of_mem_lines m),
          Token.textOf_scan]
      · rw [sections_eq hc ha hne]
        exact hsection.trans hnew

end Cursor

end RequestFile
