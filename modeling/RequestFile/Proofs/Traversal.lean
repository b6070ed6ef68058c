import RequestFile.Proofs.Entered.Basic

/-!
What holds wherever a line is entered.

A document is read line by line: the lines of a section, the lines of a head and the items of a body
section each build a few nodes, and sections, requests and responses only lead from one to the next.
So a property of nodes at their places holds everywhere if it holds of what single lines build.

* **Lines.** `Cursor.OnLines P all` says what has to be shown of the lines on which a script, a body
  or a request is built. Of all other nodes nothing has to be known but their form.
* **Documents.** The property then holds of what a whole document builds (`OnLines.builds_sections`),
  and at every site of a parse (`Parsed.forall_sites`).
-/

namespace RequestFile

open scoped Computability

namespace Tree

/-- The kinds of the nodes that a property of lines may be about, and of those around them. -/
def enteredKinds : List Kind :=
  [.document, .section, .request, .response, .multipartFormData, .externalBody, .xmlBody, .jsonBody,
   .graphqlBody, .formUrlencodedBody, .rawBody, .preRequestScript, .resHandlerScript, .script]

end Tree

namespace Cursor

variable {P : Tree.Site → Prop} {all : List Token} {around : List Kind} {k : Nat}
  {L : TreeLanguage} {c c' : Cursor}

/-- A property of sites holds of what single lines build. -/
structure OnLines (P : Tree.Site → Prop) (all : List Token) : Prop where
  /-- It holds of rows without the nodes that it may be about. -/
  quiet : ∀ {around front ts s}, Tree.EveryOf (fun t => [t] ∈ Form.production true true t.kind) ts →
    (∀ t ∈ ts, t.isNode → t.kind ∉ Tree.enteredKinds) → s ∈ Tree.sitesOf around front ts → P s
  outer : ∀ s : Tree.Site, s.tree.kind ∈ [.document, .section, .response] → P s
  request : ∀ {around front c t}, c.Live → c.HasUrl → Reached all front c →
    c.request.built.toList = c.built.toList ++ [t] → t.kind = .request → P ⟨around, front, t⟩
  preRequestScript : ∀ {around c}, c.Live → c.sees .angleOpen →
    Builds P all around c c.preRequestScript
  bodyItem : ∀ {around c}, c.Live → c.Aligned → !c.stopped && !c.atSeparator →
    Builds P all around c (c.bodyItem (BodyLine.ofTokens c.rest))

/-- A request is a node over its first line and what is below. -/
lemma request_built (hc : c.Live) : c.request.built.toList
    = c.built.toList ++ [.node .request c.lowered.opened.requestLine.message.built.toList] := by
  rw [request, hc.nested_eq]
  exact Array.toList_push

namespace OnLines

/-- A run over a row without such nodes. -/
lemma of_none [hw : Form.Whole true true L] [hL : Form.Tallied Tree.enteredKinds.contains L]
    (h : OnLines P all) (hrun : Run true k L c c') (hx : hL.tally.all (·.most = some 0)) :
    Builds P all around c c' := by
  intro front hr
  obtain ⟨ts, new, ht, hb, hover, hn⟩ := hrun.grew
  have hmem := hn fun _ => rfl
  refine ⟨new, hb, hr.took ht hover, fun s hs =>
    h.quiet (hw.every new hmem) (fun t ht hnode => ?_) hs⟩
  simpa using Form.none_of_tally hx hmem t ht hnode

/-- **Body sections.** -/
lemma builds_bodySection (h : OnLines P all) (hc : c.Live) (ha : c.Aligned) :
    Builds P all around c c.bodySection := by
  have hloop : Builds P all around c.lowered _ :=
    Builds.loopWhile (by decide) run_bodyItem_turn (fun d hd ha hmore => h.bodyItem hd ha hmore)
      hc.lowered ha
  exact fun front hr => BuildsAt.nested hc (hloop front hr)

/-- **Headers and bodies.** -/
lemma builds_message (h : OnLines P all) (hc : c.Live) (ha : c.Aligned) :
    Builds P all around c c.message := by
  obtain ⟨hhead, ha', _⟩ := run_headerLines (e := true) hc ha
  have hnone : Builds P all around c c.headerLines := h.of_none hhead (by decide)
  simp only [message]
  split_ifs
  · exact hnone.trans (h.builds_bodySection hhead.live ha')
  · exact hnone

/-- **Requests.** -/
lemma builds_request (h : OnLines P all) (hc : c.Live) (hurl : c.HasUrl) :
    Builds P all around c c.request := by
  intro front hr
  have hline := run_requestLine (e := true) hc.lowered.opened hurl
  have hbelow : Builds P all (.request :: around) c.lowered.opened
      c.lowered.opened.requestLine.message :=
    (h.of_none hline.toRun (by decide)).trans (h.builds_message hline.live hline.aligned)
  refine BuildsAt.nested hc (BuildsAt.node (hbelow front hr) fun _ ts _ _ hts => ?_)
  exact h.request hc hurl hr (hts ▸ request_built hc) rfl

/-- **Responses.** -/
lemma builds_response (h : OnLines P all) (hc : c.Live) (hv : Lookahead.isVersion c.rest) :
    Builds P all around c c.response := by
  intro front hr
  have hline := run_responseLine (e := true) hc.lowered.opened hv
  have hbelow : Builds P all (.response :: around) c.lowered.opened
      c.lowered.opened.responseLine.message :=
    (h.of_none hline.toRun (by decide)).trans (h.builds_message hline.live hline.aligned)
  exact BuildsAt.nested hc (BuildsAt.node (hbelow front hr) fun _ _ _ _ _ =>
    h.outer _ (show Kind.response ∈ _ by decide))

/-- **Lines of a section.** -/
lemma builds_preambleTurn (h : OnLines P all) (hc : c.Live) :
    Builds P all around c (preambleTurn c).cursor := by
  rcases preambleTurn_cases hc with ⟨_, heq⟩ | ⟨_, line, hbegins, heq⟩
  · rw [heq]
    exact .refl c
  rw [heq]
  obtain ⟨hblank, _⟩ := run_eatBlank (e := true) hc
  have hindent : Builds P all around c c.eatBlank := h.of_none hblank (by decide)
  refine hindent.trans ?_
  cases line with
  | blank => exact h.of_none (run_eatNewline hblank.live).1 (by decide)
  | comment => exact h.of_none (run_comment hblank.live hbegins).toRun (by decide)
  | metadata => exact h.of_none (run_metadata hblank.live hbegins.1 hbegins.2).toRun (by decide)
  | variableDeclaration =>
      exact h.of_none (run_variableDeclaration hblank.live hbegins).toRun (by decide)
  | command => exact h.of_none (run_command hblank.live hbegins).toRun (by decide)
  | preRequestScript => exact h.preRequestScript hblank.live hbegins
  | response => exact h.builds_response hblank.live hbegins
  | request =>
      obtain ⟨t, us, hrest, hk⟩ := hbegins
      exact h.builds_request hblank.live (hasUrl_eatBlank hc hrest hk)

/-- **Sections.** -/
lemma builds_fullSection (h : OnLines P all) (hc : c.Live) (ha : c.Aligned) :
    Builds P all around c c.fullSection := by
  have hd := hc.lowered.opened
  obtain ⟨hsep, hasep⟩ := run_optSeparator (e := true) hd ha
  have hfirst : Builds P all (.section :: around) _ _ := h.of_none hsep (by decide)
  have hlines := hfirst.trans (Builds.loop (by decide) (fun f hf haf => run_preambleTurn hf haf)
    (fun f hf _ => h.builds_preambleTurn hf) hsep.live hasep)
  exact fun front hr => BuildsAt.nested hc (BuildsAt.node (hlines front hr) fun _ _ _ _ _ =>
    h.outer _ (show Kind.section ∈ _ by decide))

/-- **All sections.** -/
lemma builds_sections (h : OnLines P all) (hc : c.Live) (ha : c.Aligned) :
    Builds P all around c c.sections :=
  Builds.loopWhile (by decide) run_section_turn (fun _ hd ha _ => h.builds_fullSection hd ha) hc ha

end OnLines

end Cursor

/-- **What holds of single lines** holds at every site, whatever the source is. -/
lemma Parsed.forall_sites {P : Tree.Site → Prop} {source : String} {p : Parsed}
    (h : Cursor.OnLines P (Token.scan source)) (hp : Parsed.ofSource .unlimited source = .ok p) :
    ∀ s ∈ p.tree.sites [] [], P s := by
  have hstart : Cursor.Reached (Token.scan source) [] (.start .unlimited (Token.scan source)) :=
    ⟨[], rfl, Tree.over_nil, rfl⟩
  have hsections : Cursor.Builds P _ [.document] _ _ :=
    h.builds_sections (Cursor.live_start source) (Or.inr rfl)
  obtain ⟨new, hb, _, hs⟩ := hsections [] hstart
  obtain ⟨rfl, _⟩ := Parsed.ofSource_eq_ok.mp hp
  have hnew : (Cursor.start .unlimited (Token.scan source)).sections.built.toList = new := hb
  rw [Tree.sites, hnew]
  exact List.forall_mem_cons.mpr ⟨h.outer _ (show Kind.document ∈ _ by decide), hs⟩

end RequestFile
