import RequestFile.Parse
import RequestFile.Proofs.Body

/-!
Runs of sections, and of whole parses.

A section begins with its separator, except that the first one may lack it, and ends in front of the
next one (`run_fullSection`). What a turn over its lines can be is said once (`preambleTurn_cases`).

Without limits a parse therefore takes all tokens, breaks no promise and ends with a tree of the form
`document` that holds the source (`Parsed.ofSource_lossless`).
-/

namespace RequestFile

open scoped Computability

namespace Cursor

variable {e : Bool} {c : Cursor}

/-! ### Requests and responses -/

/-- **Headers and bodies** run to the end of the section. -/
lemma run_message (hc : c.Live) (ha : c.Aligned) :
    Run e 32 (Form.message e) c c.message ∧ SectionEnd c.message := by
  obtain ⟨hhead, ha', hstop⟩ := run_headerLines (e := e) hc ha
  simp only [message]
  generalize c.headerLines = d at *
  by_cases hmore : (!d.stopped && !d.atSeparator && d.atBlankLine) = true
  · rw [if_pos hmore]
    obtain ⟨hbody, hend⟩ := run_bodySection (e := e) hhead.live ha'
    exact ⟨hhead.trans hbody, hend⟩
  · rw [if_neg hmore]
    have hnone : Run e 0 (Form.bodyItem e)∗ d d :=
      (Run.refl hhead.live).weaken le_rfl one_le_kstar
    refine ⟨hhead.trans hnone, ha', ?_⟩
    rcases hstop with hend | hsep | hblank
    · exact Or.inl (by simpa [atEnd] using hend)
    · exact Or.inr hsep
    · rw [or_iff_not_imp_left]
      intro hne
      by_contra hsep
      simp [hhead.live.stopped_eq, atEnd, hne, hsep, hblank] at hmore

/-- **Requests** run to the end of the section. -/
lemma run_request (hc : c.Live) (hurl : c.HasUrl) :
    Run e 0 (Form.request e) c c.request ∧ SectionEnd c.request := by
  have hline := run_requestLine (e := e) hc.lowered.opened hurl
  obtain ⟨hmsg, hend⟩ := run_message (e := e) hline.live hline.aligned
  rw [request, hc.nested_eq]
  exact ⟨(hline.toRun.trans hmsg).node.raised (by decide), (hend.closed _ _).raised⟩

/-- **Responses** run to the end of the section. -/
lemma run_response (hc : c.Live) (hv : Lookahead.isVersion c.rest) :
    Run e 0 (Form.response e) c c.response ∧ SectionEnd c.response := by
  have hline := run_responseLine (e := e) hc.lowered.opened hv
  obtain ⟨hmsg, hend⟩ := run_message (e := e) hline.live hline.aligned
  rw [response, hc.nested_eq]
  exact ⟨(hline.toRun.trans hmsg).node.raised (by decide), (hend.closed _ _).raised⟩

/-! ### Sections -/

/-- A line that is not blank has URL content after its indentation. -/
lemma hasUrl_eatBlank {t : Token} {us : List Token} (hc : c.Live) (hr : c.eatBlank.rest = t :: us)
    (hk : t.kind ≠ .newline) : c.eatBlank.HasUrl := by
  refine ⟨t, us, hr, hk, fun hb => ?_⟩
  rw [rest_eatBlank hc] at hr
  have hnot := List.head?_dropWhile_not (fun t : Token => decide (t.kind = .whitespace)) c.rest
  rw [← Lookahead.skipBlanks, hr] at hnot
  simp [hb] at hnot

/-- What a line in front of a request begins, or the request itself. -/
def preambleItem (line : PreambleLine) (c : Cursor) : Turn :=
  match line with
  | .blank => .again c.eatNewline
  | .comment => .again c.comment
  | .metadata => .again c.metadata
  | .variableDeclaration => .again c.variableDeclaration
  | .command => .again c.command
  | .preRequestScript => .again c.preRequestScript
  | .response => .done c.response
  | .request => .done c.request

lemma preambleTurn_eq (c : Cursor) :
    preambleTurn c = if c.stopped || c.atSeparator then .done c
      else preambleItem (PreambleLine.ofTokens (Lookahead.skipBlanks c.rest)) c.eatBlank := rfl

/-- A turn over the lines of a section is the last one, or takes blanks and then what the tokens behind
them begin. -/
lemma preambleTurn_cases (hc : c.Live) :
    (c.rest = [] ∨ c.atSeparator) ∧ preambleTurn c = .done c ∨
      c.rest ≠ [] ∧ ∃ line, PreambleLine.Begins c.eatBlank.rest line ∧
        preambleTurn c = preambleItem line c.eatBlank := by
  rw [preambleTurn_eq, rest_eatBlank hc]
  by_cases hstop : (c.stopped || c.atSeparator) = true
  · rw [if_pos hstop]
    simp only [hc.stopped_eq, atEnd, Bool.or_eq_true, List.isEmpty_iff] at hstop
    exact Or.inl ⟨hstop, rfl⟩
  · rw [if_neg hstop]
    simp only [hc.stopped_eq, atEnd, Bool.or_eq_true, not_or, List.isEmpty_iff] at hstop
    exact Or.inr ⟨hstop.1, _, PreambleLine.begins_ofTokens _, rfl⟩

/-- Behind its blanks a blank line begins with its end. -/
lemma atBlankLine_of_begins (hc : c.Live) (h : PreambleLine.Begins c.eatBlank.rest .blank) :
    c.atBlankLine := by
  rw [atBlankLine, Lookahead.isBlankLine, ← rest_eatBlank hc]
  split
  · rfl
  · next hr => simpa [PreambleLine.Begins, hr] using h

/-- **Lines in front of a request** each end where a line begins; a request ends the section. -/
lemma run_preambleTurn (hc : c.Live) (ha : c.Aligned) :
    Turning e 55 (Form.preambleLine e)
      (Form.opt (Form.blank * (Form.request e + Form.response e))) Aligned SectionEnd c
      (preambleTurn c) := by
  rcases preambleTurn_cases hc with ⟨hend, heq⟩ | ⟨hne, line, hbegins, heq⟩
  · rw [heq]
    exact ⟨((Run.refl hc).weaken (Nat.zero_le _) le_rfl).absent, ha, hend⟩
  rw [heq]
  obtain ⟨hblank, _⟩ := run_eatBlank (e := e) hc
  have hle := hblank.read_le
  -- a line that is neither blank nor a message goes on, whatever blanks stand in front of it
  have hagain : ∀ {k : Nat} {L : TreeLanguage} {d : Cursor}, k ≤ 54 →
      L ≤ Form.lineEnd + Form.comment + Form.metadata e + Form.variableDeclaration e
        + Form.command e + Form.preRequestScript e →
      LineRun e k L c.eatBlank d → Run e 55 (Form.preambleLine e) c d ∧ c.read < d.read ∧
        d.Aligned := fun hk hL h =>
    ⟨(hblank.trans (h.toRun.weaken hk hL)).weaken (by omega) le_rfl, hle.trans_lt h.moved,
      h.aligned⟩
  cases line with
  | blank =>
      have hrun := run_blankLine (e := e) hc (atBlankLine_of_begins hc hbegins) hne
      refine ⟨hrun.toRun.weaken (by omega) (mul_le_mul_right ?_ Form.blank), hrun.moved,
        hrun.aligned⟩
      exact fun _ h => Or.inl (Or.inl (Or.inl (Or.inl (Or.inl h))))
  | comment =>
      exact hagain (by omega) (fun _ h => Or.inl (Or.inl (Or.inl (Or.inl (Or.inr h)))))
        (run_comment hblank.live hbegins)
  | metadata =>
      exact hagain (by omega) (fun _ h => Or.inl (Or.inl (Or.inl (Or.inr h))))
        (run_metadata hblank.live hbegins.1 hbegins.2)
  | variableDeclaration =>
      exact hagain (by omega) (fun _ h => Or.inl (Or.inl (Or.inr h)))
        (run_variableDeclaration hblank.live hbegins)
  | command =>
      exact hagain (by omega) (fun _ h => Or.inl (Or.inr h)) (run_command hblank.live hbegins)
  | preRequestScript =>
      exact hagain (by omega) (fun _ h => Or.inr h) (run_preRequestScript hblank.live hbegins)
  | response =>
      obtain ⟨hrun, hend⟩ := run_response (e := e) hblank.live hbegins
      exact ⟨((hblank.trans hrun.inr).weaken (by omega) le_rfl).present, hend⟩
  | request =>
      obtain ⟨t, us, hr, hk⟩ := hbegins
      obtain ⟨hrun, hend⟩ := run_request (e := e) hblank.live (hasUrl_eatBlank hc hr hk)
      exact ⟨((hblank.trans hrun.inl).weaken (by omega) le_rfl).present, hend⟩

lemma run_optSeparator (hc : c.Live) (ha : c.Aligned) :
    Run e 14 (Form.opt (Form.separator e)) c (if c.atSeparator then c.separator else c) ∧
      (if c.atSeparator then c.separator else c).Aligned := by
  split_ifs with hs
  · have hrun := run_separator (e := e) hc hs
    exact ⟨hrun.toRun.present, hrun.aligned⟩
  · exact ⟨((Run.refl hc).weaken (Nat.zero_le _) le_rfl).absent, ha⟩

/-- A section that has not moved would end where it began, and there it goes on. -/
lemma read_lt_of_sectionEnd {k : Nat} {L : TreeLanguage} {c' : Cursor} (h : Run e k L c c')
    (hend : SectionEnd c') (hne : c.rest ≠ []) (hs : ¬c.atSeparator) : c.read < c'.read := by
  rcases h.read_le.lt_or_eq with hlt | heq
  · exact hlt
  · have hrest := (h.still heq.symm).1
    rcases hend.2 with hnil | hsep
    · exact absurd (hrest.symm.trans hnil) hne
    · rw [atSeparator, hrest] at hsep
      exact absurd hsep hs

/-- **Sections** end at a separator or at the end, where a line begins. -/
lemma run_fullSection (hc : c.Live) (ha : c.Aligned) :
    Run e 0 (Form.fullSection e) c c.fullSection ∧ SectionEnd c.fullSection ∧
      (c.rest ≠ [] → c.read < c.fullSection.read) := by
  have hd := hc.lowered.opened
  obtain ⟨hsep, hasep⟩ := run_optSeparator (e := e) hd (show c.lowered.opened.Aligned from ha)
  obtain ⟨hloop, hend⟩ := Run.loop (by decide) (fun f hf haf => run_preambleTurn (e := e) hf haf)
    hsep.live hasep
  rw [fullSection, hc.nested_eq]
  refine ⟨(hsep.trans hloop).node.raised (by decide), (hend.closed _ _).raised, fun hne => ?_⟩
  change c.lowered.opened.read < (loop preambleTurn (if c.lowered.opened.atSeparator
    then c.lowered.opened.separator else c.lowered.opened)).read
  split_ifs at hloop hend ⊢ with hs
  · exact (run_separator (e := e) hd hs).moved.trans_le hloop.read_le
  · exact read_lt_of_sectionEnd hloop hend hne hs

/-- The turns of `sections`. -/
lemma run_section_turn (d : Cursor) (hd : d.Live) (ha : d.Aligned) (hmore : !d.stopped) :
    Run e 0 (Form.fullSection e) d d.fullSection ∧ d.read < d.fullSection.read ∧
      d.fullSection.Aligned := by
  simp only [hd.stopped_eq, atEnd, Bool.not_eq_true', List.isEmpty_eq_false_iff] at hmore
  obtain ⟨hrun, hend, hgt⟩ := run_fullSection (e := e) hd ha
  exact ⟨hrun, hgt hmore, hend.1⟩

/-- **All sections** take all tokens. -/
lemma run_sections (hc : c.Live) (ha : c.Aligned) :
    Run e 0 (Form.sections e) c c.sections ∧ c.sections.rest = [] := by
  obtain ⟨hrun, _, hdone⟩ : Run e 0 (Form.sections e) c c.sections ∧ c.sections.Aligned ∧
      (!c.sections.stopped) = false := Run.loopWhile (by decide) run_section_turn hc ha
  refine ⟨hrun, ?_⟩
  simpa [hrun.live.stopped_eq, atEnd] using hdone

lemma sections_of_nil (hr : c.rest = []) : c.sections = c := by
  have hstop : c.stopped := by simp [stopped, atEnd, hr]
  rw [sections, loopWhile, loop, iterate, if_neg (by simp [hstop])]

/-- The sections are the first one and those after it. -/
lemma sections_eq (hc : c.Live) (ha : c.Aligned) (hne : c.rest ≠ []) :
    c.sections = c.fullSection.sections :=
  loopWhile_eq (e := true) run_section_turn hc ha (by simp [hc.stopped_eq, atEnd, hne])

end Cursor

/-! ### Whole parses -/

/-- What a parse without limits gives. -/
structure Parsed.Complete (source : String) (p : Parsed) : Prop where
  lossless : p.tree.text = source
  leaves : Tree.Over (Token.scan source) p.tree.leaves
  form : ∀ e : Bool, (p.reports.any Diagnostic.isError → e) → [p.tree] ∈ Form.document e
  tokens : p.tokens = (Token.scan source).length

lemma Cursor.live_start (source : String) :
    (Cursor.start .unlimited (Token.scan source)).Live :=
  ⟨⟨rfl, rfl, rfl, Token.lexed_scan source, fun _ h => by simp [Cursor.start] at h⟩,
    fun h => by simp [Cursor.start] at h⟩

/-- A parse without limits takes all tokens. -/
lemma Cursor.sections_start (source : String) :
    (start .unlimited (Token.scan source)).sections.offset = source.utf8ByteSize ∧
      (start .unlimited (Token.scan source)).sections.read = (Token.scan source).length := by
  obtain ⟨hrun, hnil⟩ := run_sections (e := true) (live_start source) (Or.inr rfl)
  obtain ⟨ts, _, htook, _⟩ := hrun.grew
  obtain rfl : Token.scan source = ts := by
    have := htook.rest
    rwa [hnil, List.append_nil] at this
  have hoffset := htook.offset
  have hread := htook.read
  rw [Token.sizeOf_scan] at hoffset
  exact ⟨hoffset.trans (Nat.zero_add _), hread.trans (Nat.zero_add _)⟩

/-- A source that one section takes as a whole has no other. -/
lemma Cursor.sections_start_of_single {source : String} (hne : Token.scan source ≠ [])
    (hnil : (start .unlimited (Token.scan source)).fullSection.rest = []) :
    (start .unlimited (Token.scan source)).sections
      = (start .unlimited (Token.scan source)).fullSection := by
  rw [sections_eq (live_start source) (Or.inr rfl) hne, sections_of_nil hnil]

/-- A parse succeeds where its cursor has neither a fault nor reached a limit. -/
lemma Parsed.ofSource_eq_ok {limits : Limits} {source : String} {p : Parsed} :
    ofSource limits source = .ok p ↔
      p = ⟨.node .document (Cursor.start limits (Token.scan source)).sections.built.toList,
        (Cursor.start limits (Token.scan source)).sections.reports.toList,
        (Cursor.start limits (Token.scan source)).sections.budget.tokens⟩ ∧
      (Cursor.start limits (Token.scan source)).sections.fault = none ∧
      (Cursor.start limits (Token.scan source)).sections.exceeded = none := by
  rw [ofSource]
  generalize (Cursor.start limits (Token.scan source)).sections = c
  rw [ofCursor]
  cases hf : c.fault with
  | some f => simp
  | none =>
      cases hx : c.exceeded with
      | some l => simp
      | none => simp [eq_comm]

/-- **Every source has a tree**: without limits a parse breaks no promise and holds the source. -/
lemma Parsed.ofSource_unlimited (source : String) :
    ∃ p, Parsed.ofSource .unlimited source = .ok p ∧ p.Complete source := by
  have hlive := Cursor.live_start source
  have hrun := fun e => Cursor.run_sections (e := e) hlive (Or.inr rfl)
  obtain ⟨hsafe, hnil⟩ := hrun true
  obtain ⟨_, hread⟩ := Cursor.sections_start source
  obtain ⟨ts, new, htook, hbuilt, hover, _⟩ := hsafe.grew
  have hts : Token.scan source = ts := by
    have := htook.rest
    rwa [hnil, List.append_nil] at this
  -- the form depends on whether errors are allowed, so the run is taken once for each case
  have hform : ∀ e : Bool, ((Cursor.start .unlimited (Token.scan source)).sections.failed → e) →
      (Cursor.start .unlimited (Token.scan source)).sections.built.toList ∈ Form.sections e := by
    intro e he
    obtain ⟨_, new, _, hb, _, hn⟩ := (hrun e).1.grew
    have hnew : (Cursor.start .unlimited (Token.scan source)).sections.built.toList = new := hb
    rw [hnew]
    exact hn he
  refine ⟨_, Parsed.ofSource_eq_ok.mpr ⟨rfl, hsafe.safe (Nat.zero_le _) rfl, hsafe.live.exceeded⟩,
    ?_, ?_, fun e he => ⟨_, hform e he, rfl⟩, hsafe.live.charged.trans hread⟩
  · rw [Tree.text_node, hbuilt]
    exact hover.textOf_eq.trans (by rw [← hts, Token.textOf_scan])
  · rw [Tree.leaves, hbuilt, hts]
    exact hover

/-- **Parsing is total and lossless**: whatever the source is, a parse without limits breaks no
promise, and the leaves of its document put together are the source. -/
theorem Parsed.ofSource_lossless (source : String) :
    ∃ p, Parsed.ofSource .unlimited source = .ok p ∧ p.tree.kind = .document ∧
      String.join (p.tree.leaves.map Prod.snd) = source := by
  obtain ⟨p, hp, hcomplete⟩ := Parsed.ofSource_unlimited source
  obtain ⟨ts, _, hdoc⟩ := hcomplete.form true fun _ => rfl
  refine ⟨p, hp, ?_, hcomplete.lossless⟩
  rw [List.singleton_inj.mp hdoc]
  rfl

end RequestFile
