import RequestFile.Document
import RequestFile.Proofs.Canonical.Roundtrip

/-!
Documents of one request in front of which no separator stands.

* **Request lines.** `Cursor.ReadsUrl` says what the tokens of a URL have to be, to be all of what
  follows the method on a line (`Cursor.exact_urlRequestLine`). The line may be the last of the
  source and lack its terminator.
* **Documents.** A source that is read as one request is one section with it
  (`Cursor.exact_sectionOf`), and the document has that request and no diagnostics
  (`Document.exists_of_request`).
-/

namespace RequestFile

/-- The end of a line, which the last line of a source may lack. -/
def endText (terminated : Bool) : String :=
  if terminated then "\n" else ""

/-- The tokens of the end of a line. -/
def Token.ending (terminated : Bool) : List Token :=
  if terminated then [lineFeed] else []

lemma Token.scanFrom_ending {cs : List Char} (h : ∀ c ∈ cs.getLast?, c ≠ '\r') (terminated b : Bool) :
    scanFrom b 0 (cs ++ (endText terminated).toList) = scanFrom b 0 cs ++ ending terminated := by
  cases terminated with
  | true =>
      exact scanFrom_stop (fun c hc => ⟨Or.inl rfl, h c hc, by simp⟩) (Or.inl rfl) b []
  | false => simp [ending, endText]

namespace Cursor

variable {ts uts us : List Token} {url : List Tree} {s : String} {b : Bool} {c : Cursor}

/-! ### Request lines -/

/-- The trees of the end of a line. -/
def endTrees (terminated : Bool) : List Tree :=
  if terminated then [.leaf .newline "\n"] else []

/-- The end of a line on which nothing is left, be it terminated or not. -/
lemma exact_ending (hc : c.Live) (hr : c.rest = Token.ending b ++ us) (hus : b = false → us = [])
    (s : String) : Exact (Token.ending b) (endTrees b) c ((c.eatBlank.finishLine s).eatNewline) := by
  cases b with
  | true => exact exact_endLine hc hr s
  | false =>
      rw [hus rfl] at hr
      have hend : c.atEnd := by simp [atEnd, hr, Token.ending]
      have heq : (c.eatBlank.finishLine s).eatNewline = c := by
        simp [eatBlank, eatNewline, eat, finishLine, hend]
      rw [heq]
      exact .refl hc

/-- A line ends where its terminator stands, or with the source. -/
lemma lineEnd_ending (hr : c.rest = ts ++ (Token.ending b ++ us)) (hus : b = false → us = [])
    (hl : ∀ t ∈ ts, t.kind ≠ .newline) : c.lineEnd = c.read + ts.length := by
  cases b with
  | true => exact lineEnd_eq (t := Token.lineFeed) hr hl rfl
  | false =>
      rw [hus rfl, Token.ending, if_neg Bool.false_ne_true, List.append_nil, List.append_nil] at hr
      rw [lineEnd, Lookahead.lineLength, hr, List.takeWhile_eq_self_iff.mpr (by simpa using hl)]

/-- Tokens of a URL: they stand on one line, the end of which is not taken for a version, and are read
as these trees. -/
structure ReadsUrl (uts : List Token) (url : List Tree) : Prop where
  first : ∃ t ts, uts = t :: ts ∧ t.kind ≠ .newline ∧ t.kind ≠ .whitespace
  newline : ∀ t ∈ uts, t.kind ≠ .newline
  version : Lookahead.splitVersion uts = (uts.length, none)
  exact : ∀ {c : Cursor} {us : List Token}, c.Live → c.rest = uts ++ us →
    Exact uts url c (c.urlLine (c.read + uts.length))

/-- The tokens of a request line without a version. -/
def urlRequestTokens (s : String) (uts : List Token) (b : Bool) : List Token :=
  ⟨.word, s⟩ :: Token.blank :: (uts ++ Token.ending b)

/-- The trees of a request line without a version. -/
def urlRequestTrees (s : String) (url : List Tree) (b : Bool) : List Tree :=
  [.node .method [.leaf .text s], .leaf .whitespace " ", .node .targetUrl url] ++ endTrees b

/-- **Request lines without a version.** -/
lemma exact_urlRequestLine (hs : s ∈ Lookahead.methods) (h : ReadsUrl uts url) (hc : c.Live)
    (hr : c.rest = urlRequestTokens s uts b ++ us) (hus : b = false → us = [])
    (hnext : ¬Lookahead.startsWith .whitespace us) :
    Exact (urlRequestTokens s uts b) (urlRequestTrees s url b) c c.requestLine := by
  obtain ⟨t, ts, ht, hn, hb⟩ := h.first
  have hr' : c.rest = [⟨.word, s⟩, Token.blank] ++ (uts ++ (Token.ending b ++ us)) := by
    rw [hr, urlRequestTokens]
    simp
  have hfirst : c.rest = ⟨.word, s⟩ :: Token.blank :: t :: (ts ++ (Token.ending b ++ us)) := by
    rw [hr', ht]
    rfl
  have hmethod := exact_methodOf hs hn hb hc hfirst
  have hrest : c.method.rest = uts ++ ([] ++ (Token.ending b ++ us)) := hmethod.rest_eq hr'
  have hend : Token.ending b ++ us = [] ∨ Lookahead.startsWith .newline (Token.ending b ++ us) := by
    cases b with
    | true => exact .inr rfl
    | false => exact .inl (hus rfl)
  -- the URL does not go on, since the next line is not indented
  have hindent : Lookahead.nextLineIsIndented (Token.ending b ++ us) = false := by
    cases b with
    | true => simp [Lookahead.nextLineIsIndented, Lookahead.lineLength_cons, Token.ending,
        Token.lineFeed, hnext]
    | false =>
        rw [hus rfl]
        rfl
  obtain ⟨hurl, hposition⟩ := exact_targetUrlOf hrest
    ⟨t, ts ++ (Token.ending b ++ us), by rw [hrest, ht]; rfl, hn, hb⟩ (by simpa using h.newline) hend
    (by simpa using h.version) (fun _ => hindent) (h.exact hmethod.live.opened hrest)
  have hline := exact_ending hurl.live (hurl.rest_eq hrest) hus "unexpected text after the URL"
  have hwhole := (hmethod.trans hurl).trans hline
  have htokens : urlRequestTokens s uts b = [⟨.word, s⟩, Token.blank] ++ uts ++ Token.ending b := by
    rw [urlRequestTokens]
    simp
  simp only [requestLine, hposition]
  rw [htokens]
  exact hwhole

/-- After a request line a line begins, or nothing follows. -/
lemma aligned_urlRequestLine {c' : Cursor} {new : List Tree}
    (h : Exact (urlRequestTokens s uts b) new c c') (hr : c.rest = urlRequestTokens s uts b ++ us)
    (hus : b = false → us = []) : c'.Aligned := by
  cases b with
  | true =>
      have htokens : urlRequestTokens s uts true
          = ⟨.word, s⟩ :: Token.blank :: uts ++ [Token.lineFeed] := rfl
      rw [htokens] at h
      exact h.aligned rfl
  | false => exact .inl ((h.rest_eq hr).trans (hus rfl))

/-! ### Sections -/

/-- A section without a separator, by its lines. -/
lemma exact_linesSection {new : List Tree} (hc : c.Live) (ha : c.Aligned)
    (hat : c.atSeparator = false)
    (hlines : ∀ d : Cursor, d.Live → d.Aligned → d.rest = c.rest →
      Exact ts new d (d.loop preambleTurn)) :
    Exact ts [.node .section new] c c.fullSection := by
  have hsection := (hlines c.lowered.opened hc.lowered.opened ha rfl).node (K := .section)
  refine .nested hc ?_
  rw [node, show c.lowered.opened.atSeparator = false from hat]
  exact hsection

/-- A section without a separator that is one request. -/
lemma exact_sectionOf {P : Tree → Prop} (hs : s ∈ Lookahead.methods) (hc : c.Live)
    (hr : c.rest = ⟨.word, s⟩ :: Token.blank :: ts)
    (hrequest : ∀ d : Cursor, d.Live → d.rest = c.rest → ∃ t, P t ∧ Exact c.rest [t] d d.request) :
    ∃ t, P t ∧ Exact c.rest [.node .section [t]] c c.fullSection := by
  have hd := hc.lowered.opened
  have hr' : c.lowered.opened.rest = ⟨.word, s⟩ :: Token.blank :: ts := hr
  have hblank := exact_eatBlank_skip hd (by simp [sees, hr'])
  obtain ⟨t, hp, hexact⟩ := hrequest _ hblank.live
    (hblank.rest_eq (List.nil_append c.lowered.opened.rest).symm)
  have hat : c.lowered.opened.atSeparator = false := by
    simp [atSeparator, Lookahead.isSeparatorLine, hr']
  have hnode := (hblank.trans hexact).node (K := .section)
  rw [← loop_of_done (preambleTurn_of_method hs hd hr')] at hnode
  refine ⟨t, hp, .nested hc ?_⟩
  rw [node, hat]
  exact hnode

end Cursor

/-! ### Documents -/

/-- A source that is read as one section. -/
lemma Parsed.ofSource_of_section {source : String} {t : Tree} (hne : Token.scan source ≠ [])
    (h : Cursor.Exact (Token.scan source) [t] (.start .unlimited (Token.scan source))
      (Cursor.start .unlimited (Token.scan source)).fullSection) :
    ∃ p, Parsed.ofSource Document.defaultLimits source = .ok p ∧ p.tree = .node .document [t] ∧
      p.reports = [] ∧ [p.tree] ∈ Form.document true := by
  rw [← Cursor.sections_start_of_single hne (h.rest_eq (List.append_nil _).symm)] at h
  exact Parsed.ofSource_of_exact h

/-- **Documents of one request** have that request, and no diagnostics. -/
lemma Document.exists_of_request {source s : String} {ts : List Token} {children : List Tree}
    (hs : s ∈ Lookahead.methods) (hscan : Token.scan source = ⟨.word, s⟩ :: Token.blank :: ts)
    (h : ∀ d : Cursor, d.Live → d.rest = Token.scan source →
      Cursor.Exact (Token.scan source) [.node .request children] d d.request) :
    ∃ d, Document.parse Document.defaultLimits source = .ok d ∧ d.diagnostics = [] ∧
      d.tree = .node .document [.node .section [.node .request children]] ∧
      d.requests = [Request.ofTree ⟨0, .node .request children⟩] := by
  obtain ⟨_, rfl, hsection⟩ := Cursor.exact_sectionOf (P := (· = .node .request children)) hs
    (Cursor.live_start source) hscan fun d hd hrest => ⟨_, rfl, h d hd hrest⟩
  obtain ⟨p, hp, htree, hreports, _⟩ :=
    Parsed.ofSource_of_section (by rw [hscan]; exact List.cons_ne_nil _ _) hsection
  have hparse := Document.parse_of_single hp hreports (congrArg Document.sectionsOf htree) rfl
  rw [htree] at hparse
  exact ⟨_, hparse, rfl, rfl, rfl⟩

end RequestFile
