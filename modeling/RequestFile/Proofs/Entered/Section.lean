import RequestFile.Proofs.Entered.Body

/-!
Where sections and their lines are entered.

The lines of a section may be indented: each is entered behind the blank in front of it
(`lays_indented`). A request or a response is such a line too, and within it lines begin where they
begin. Put together, every node of a document is proper (`Parsed.ofSource_proper`).
-/

namespace RequestFile

open scoped Computability

namespace Cursor

variable {all : List Token} {around : List Kind} {front : List (Kind × String)} {k : Nat} {K : Kind}
  {L M : TreeLanguage} {c c' : Cursor}

/-! ### Requests and responses -/

/-- **Headers and bodies.** -/
lemma lays_message (hc : c.Live) (ha : c.Aligned) : Lays all around c c.message := by
  obtain ⟨hhead, ha', _⟩ := run_headerLines (e := true) hc ha
  simp only [message]
  split_ifs
  · exact (lays_headerLines hc ha).trans (lays_bodySection hhead.live ha')
  · exact lays_headerLines hc ha

/-- **Requests.** -/
lemma lays_request (hc : c.Live) (hurl : c.HasUrl) (hr : Reached all front c)
    (hfront : Tree.Indented front) : LaysAt all around front c c.request := by
  have hline := run_requestLine (e := true) hc.lowered.opened hurl
  have hlays : Lays all (.request :: around) c.lowered.opened
      c.lowered.opened.requestLine.message :=
    (lays_requestLine hc.lowered.opened hurl).trans (lays_message hline.live hline.aligned)
  exact LaysAt.nested hc (LaysAt.node (hlays front hr) fun _ _ =>
    Tree.Site.claim_of_indented hfront (by decide))

/-- **Responses.** -/
lemma lays_response (hc : c.Live) (hv : Lookahead.isVersion c.rest) (hr : Reached all front c)
    (hfront : Tree.Indented front) : LaysAt all around front c c.response := by
  have hline := run_responseLine (e := true) hc.lowered.opened hv
  have hlays : Lays all (.response :: around) c.lowered.opened
      c.lowered.opened.responseLine.message :=
    (lays_responseLine hc.lowered.opened hv).trans (lays_message hline.live hline.aligned)
  exact LaysAt.nested hc (LaysAt.node (hlays front hr) fun _ _ =>
    Tree.Site.claim_of_indented hfront (by decide))

/-! ### Lines of a section -/

/-- What is entered behind the blank at the start of a line. -/
lemma lays_indented (hc : c.Live) (hl : c.lineStart = true)
    (h : ∀ front, Reached all front c.eatBlank → Tree.Indented front →
      LaysAt all around front c.eatBlank c') : Lays all around c c' := by
  intro front hr
  refine (Lays.eatBlank hc front hr).bind fun new hb hr' => h _ hr' ⟨front, hr.atLineStart hl, ?_⟩
  obtain ⟨_, built, _, hb', _, hn⟩ := (run_eatBlank (e := true) hc).1.grew
  obtain rfl : new = built := List.append_cancel_left (hb.symm.trans hb')
  rcases hn fun _ => rfl with hnone | ⟨t, _, hleaf⟩
  · obtain rfl := (Language.mem_one new).mp hnone
    exact .inl (List.append_nil front)
  · refine .inr ⟨t.text, ?_⟩
    rw [hleaf, Tree.leavesOf, Tree.leaves, Tree.leavesOf, List.append_nil]

/-- A node that begins a line of a section. -/
lemma lays_preambleNode [Form.Whole true true M] (hc : c.Live) (hl : c.lineStart = true)
    (h : Run true k M c.eatBlank c') (hM : M = Form.node K L) (hK : K ∈ Tree.preambleKinds)
    (hcontainer : K ∉ Tree.containerKinds) : Lays all around c c' :=
  lays_indented hc hl fun _ hr hfront => LaysAt.atom hr h hM hcontainer fun _ _ _ _ _ =>
    Tree.Site.claim_of_indented hfront hK

/-- **Lines of a section.** -/
lemma lays_preambleTurn (hc : c.Live) (ha : c.Aligned) :
    Lays all [.section, .document] c (preambleTurn c).cursor := by
  rcases preambleTurn_cases hc with ⟨_, heq⟩ | ⟨hne, line, hbegins, heq⟩
  · rw [heq]
    exact .refl c
  rw [heq]
  have hl := ha.lineStart hne
  have hblank := (run_eatBlank (e := true) hc).1
  -- all lines but blank ones are nodes behind their indentation; messages are entered
  cases line with
  | blank => exact (Lays.eatBlank hc).trans (Lays.eatNewline hblank.live)
  | comment =>
      have hrun := (run_comment (e := true) hblank.live hbegins).toRun
      exact lays_indented hc hl fun _ hr hfront => LaysAt.atom hr hrun rfl (by decide)
        fun _ _ _ _ _ => Or.inr ⟨rfl, hfront⟩
  | metadata =>
      have hrun := (run_metadata (e := true) hblank.live hbegins.1 hbegins.2).toRun
      exact lays_preambleNode hc hl hrun rfl (by decide) (by decide)
  | variableDeclaration =>
      have hrun := (run_variableDeclaration (e := true) hblank.live hbegins).toRun
      exact lays_preambleNode hc hl hrun rfl (by decide) (by decide)
  | command =>
      have hrun := (run_command (e := true) hblank.live hbegins).toRun
      exact lays_preambleNode hc hl hrun rfl (by decide) (by decide)
  | preRequestScript =>
      have hrun := (run_preRequestScript (e := true) hblank.live hbegins).toRun
      exact lays_preambleNode hc hl hrun rfl (by decide) (by decide)
  | response =>
      exact lays_indented hc hl fun _ hr hfront => lays_response hblank.live hbegins hr hfront
  | request =>
      obtain ⟨t, us, hrest, hk⟩ := hbegins
      exact lays_indented hc hl fun _ hr hfront =>
        lays_request hblank.live (hasUrl_eatBlank hc hrest hk) hr hfront

/-! ### Sections -/

lemma lays_optSeparator (hc : c.Live) (ha : c.Aligned) :
    Lays all around c (if c.atSeparator then c.separator else c) := by
  split_ifs with hs
  · have hne : c.rest ≠ [] := by
      obtain ⟨t, us, hr, _⟩ := exists_of_sees hs
      rw [hr]
      exact List.cons_ne_nil t us
    exact Lays.line (run_separator hc hs).toRun rfl (ha.lineStart hne) (by decide)
  · exact .refl c

/-- **Sections.** -/
lemma lays_fullSection (hc : c.Live) (ha : c.Aligned) :
    Lays all [.document] c c.fullSection := by
  have hd := hc.lowered.opened
  obtain ⟨hsep, hasep⟩ := run_optSeparator (e := true) hd ha
  have hfirst : Lays all [.section, .document] _ _ := lays_optSeparator hd ha
  have hlays := hfirst.trans (Lays.loop (by decide) (fun f hf haf => run_preambleTurn hf haf)
    (fun f hf haf => lays_preambleTurn hf haf) hsep.live hasep)
  exact fun front hr => LaysAt.nested hc (LaysAt.node (hlays front hr) fun _ _ =>
    ⟨fun h => absurd h (by decide), fun h => absurd h (by decide)⟩)

/-- **All sections.** -/
lemma lays_sections (hc : c.Live) (ha : c.Aligned) : Lays all [.document] c c.sections :=
  Lays.loopWhile (by decide) run_section_turn (fun _ hd ha _ => lays_fullSection hd ha) hc ha

end Cursor

/-! ### Whole parses -/

/-- **Every node is where and what its line has been taken for**, whatever the source is. -/
lemma Parsed.ofSource_proper (source : String) :
    ∃ p, Parsed.ofSource .unlimited source = .ok p ∧ p.Complete source ∧
      ∀ s ∈ p.tree.sites [] [], s.Proper (Token.scan source) := by
  obtain ⟨p, hp, hcomplete⟩ := Parsed.ofSource_unlimited source
  refine ⟨p, hp, hcomplete, ?_⟩
  obtain ⟨rfl, _⟩ := Parsed.ofSource_eq_ok.mp hp
  have hstart : Cursor.Reached (Token.scan source) [] (.start .unlimited (Token.scan source)) :=
    ⟨[], rfl, Tree.over_nil, rfl⟩
  obtain ⟨new, hb, _, hs⟩ :=
    Cursor.lays_sections (Cursor.live_start source) (Or.inr rfl) [] hstart
  have hnew : (Cursor.start .unlimited (Token.scan source)).sections.built.toList = new := hb
  rw [Tree.sites, hnew]
  refine List.forall_mem_cons.mpr ⟨⟨Token.scan source, fun _ ht => ht, ?_, ?_⟩, hs⟩
  · rw [← hnew]
    exact hcomplete.leaves
  · show Tree.Site.Claim _ _ .document
    exact ⟨fun h => absurd h (by decide), fun h => absurd h (by decide)⟩

/-- **Lines stand where lines begin**, whatever the source is. Separators, headers, bodies and their
lines, and what handles a response begin a line, as does a comment in a request or a response. What
stands directly below a section begins a line too, but for a blank in front of it. -/
theorem Parsed.ofSource_aligned (source : String) :
    ∃ p, Parsed.ofSource .unlimited source = .ok p ∧ ∀ s ∈ p.tree.sites [] [],
      (s.tree.kind ∈ Tree.lineKinds → Tree.AtLineStart s.front) ∧
      (s.tree.kind = .comment → (.request ∈ s.around ∨ .response ∈ s.around) →
        Tree.AtLineStart s.front) ∧
      (s.around.head? = some .section → s.tree.kind ∈ .comment :: Tree.preambleKinds →
        Tree.Indented s.front) := by
  obtain ⟨p, hp, _, hproper⟩ := Parsed.ofSource_proper source
  refine ⟨p, hp, fun s hs => ?_⟩
  obtain ⟨here, _, _, hclaim⟩ := hproper s hs
  refine ⟨hclaim.atLineStart, fun hk hin => ?_, fun _ hk => ?_⟩
  · rw [hk] at hclaim
    rcases hclaim with hline | ⟨haround, _⟩
    · exact hline
    · rw [haround] at hin
      exact absurd hin (by decide)
  · rcases List.mem_cons.mp hk with hcomment | hk
    · rw [hcomment] at hclaim
      exact hclaim.elim Tree.AtLineStart.indented And.right
    · exact hclaim.indented hk

end RequestFile
