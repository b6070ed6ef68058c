import RequestFile.Proofs.Entered.Head

/-!
Where bodies are entered.

* **Lines.** A body is entered where a line begins, and so are the lines of a multipart body and the
  parts of a GraphQL body: each ends where the next one may begin.
* **Classification.** A line is taken for a form by the equals sign of its first parameter
  (`lays_formBody`), and for a query by its first word (`lays_graphqlBody`).
-/

namespace RequestFile

open scoped Computability

/-- A query begins with one of the words for it. -/
lemma BodyLine.headText_of_graphql {ts : List Token} (h : ofTokens ts = .graphql) :
    Lookahead.headText ts ∈ Lookahead.graphqlWords := by
  have hother : formOrRaw ts ≠ .graphql := by
    rw [formOrRaw]
    split_ifs <;> decide
  rw [ofTokens] at h
  by_cases hblank : Lookahead.isBlankLine ts
  · rw [if_pos hblank] at h
    cases h
  rw [if_neg hblank] at h
  dsimp only at h
  split at h
  case h_9 =>
    split_ifs at h with hword
    · exact List.contains_iff_mem.mp (Bool.and_eq_true_iff.mp hword).1
    · exact absurd h hother
  case h_10 => exact absurd h hother
  all_goals first
    | cases h
    | (split_ifs at h; all_goals exact absurd h hother)

namespace Cursor

variable {all : List Token} {around : List Kind} {stop : Nat} {c c' : Cursor}

/-! ### Text and files -/

/-- Text over whole lines. -/
lemma lays_textNode {K : Kind} {n : Nat} [Form.Whole true true (Form.textBody K)] (hc : c.Live)
    (hl : c.lineStart = true) (hb : Lookahead.LineBreak c.rest n) (hK : K ∈ Tree.plainLineKinds) :
    Lays all around c (c.textNode K (c.read + n)) :=
  Lays.line (run_textNode hc (Or.inr hl) hb).1 rfl hl hK

lemma lays_externalBody (hc : c.Live) (hl : c.lineStart = true) (hs : c.sees .angleOpen) :
    Lays all around c c.externalBody := by
  have hrun := (run_external (e := true) hc.opened hs).1.node (K := .externalBody)
  exact (Lays.line hrun rfl hl (by decide)).trans (Lays.endLine hrun.live _)

/-! ### Multipart bodies -/

lemma lays_multipartTurn (opener : Span) (hc : c.Live) (ha : c.Aligned) :
    Lays all around c (multipartTurn opener c).cursor := by
  have hlook := run_look (e := true) hc
  have hlooked : Lays all around c c.look := Lays.look hc
  have hl : c.rest ≠ [] → c.look.lineStart = true := fun hne =>
    (look_lineStart c).trans (ha.lineStart hne)
  have hstep := multipartTurn_step opener hc
  generalize multipartTurn opener c = turn at hstep ⊢
  cases hstep with
  | unclosed =>
      exact Lays.of_unmarked (run_reportUnclosed (e := true) (p := .unclosedMultipart) hc rfl
        "expected a closing boundary" "multipart body starts here" opener) (by decide)
  | blank hne hblank => exact Lays.of_unmarked (run_blankLine hc hblank hne).toRun (by decide)
  | last hne hs hb =>
      have hline := (run_lastBoundary (e := true) hlook.live hs (boundaryTextEnd_bounds hs).2 hb).toRun
      exact hlooked.trans (Lays.line hline rfl (hl hne) (by decide))
  | inner hne hs _ =>
      have hline : Run true 13 (Form.innerBoundary true) c.look (c.look.boundaryLine .inner _) :=
        (run_openBoundary (b := .inner) hlook.live hs (by decide) (boundaryTextEnd_bounds hs).2).toRun
      exact hlooked.trans (Lays.line hline rfl (hl hne) (by decide))
  | external hne hs =>
      have hline := (run_multipartExternal (e := true) hlook.live hs).toRun
      exact hlooked.trans (Lays.line hline rfl (hl hne) (by decide))
  | header hne hs =>
      have hline := (run_header (e := true) hlook.live hs).toRun
      exact hlooked.trans (Lays.line hline rfl (hl hne) (by decide))
  | content hne =>
      have hne' : c.look.rest ≠ [] := by rwa [look_rest]
      have hline := (run_multipartContent (e := true) hlook.live hne').toRun
      exact hlooked.trans (Lays.line hline rfl (hl hne) (by decide))

/-- **Multipart bodies**, closed or not. -/
lemma lays_multipart (hc : c.Live) (hl : c.lineStart = true)
    (hb : Lookahead.OpensMultipart c.rest) : Lays all around c c.multipart := by
  have hfirst := run_firstBoundary (e := true) hc.opened hb.1
    (lt_boundaryTextEnd (c := c.opened) hb)
  have hline : Lays all (.multipartFormData :: around) c.opened
      (c.opened.boundaryLine .first c.opened.boundaryTextEnd) :=
    Lays.line hfirst.toRun rfl hl (by decide)
  have hloop : Lays all (.multipartFormData :: around)
      (c.opened.boundaryLine .first c.opened.boundaryTextEnd)
      ((c.opened.boundaryLine .first c.opened.boundaryTextEnd).loop (multipartTurn c.span)) :=
    Lays.loop (by decide) (fun d hd ha => run_multipartTurn c.span hd ha)
      (fun d hd ha => lays_multipartTurn c.span hd ha) hfirst.live hfirst.aligned
  exact fun front hr => LaysAt.node ((hline.trans hloop) front hr) fun _ _ =>
    ⟨fun _ => hr.atLineStart hl, fun h => absurd h (by decide)⟩

/-! ### Forms -/

/-- **Form bodies** begin with a parameter that has a name and a value. -/
lemma lays_formBody (hc : c.Live) (hl : c.lineStart = true) (hform : Lookahead.isForm c.rest) :
    Lays all around c c.formBody := by
  have hfirst := run_valuedParam (e := true) hc.opened rfl (read_lt_of_isForm (c := c.opened) hform)
    (startsWith_equals_of_isForm (c := c.opened) hform)
  intro front hr
  refine LaysAt.atom hr (run_formBody_of_first hform hfirst).toRun rfl (by decide)
    fun _ ts hts _ _ => ⟨hr.atLineStart hl, ?_⟩
  obtain ⟨_, ⟨_, hparam, rows, _, rfl⟩, tail, _, rfl⟩ := hts
  obtain ⟨us, hus, rfl⟩ := hparam
  exact ⟨_, rows ++ tail, rfl, us, hus, rfl⟩

/-! ### GraphQL -/

/-- What follows a query behind blank lines. -/
lemma lays_graphqlVariables (hc : c.Live) (ha : c.Aligned) :
    Lays all around c c.graphqlVariables := by
  simp only [graphqlVariables]
  split_ifs with hjson
  · obtain ⟨hskip, ha', hrest⟩ := run_skipBlankLines (e := true) hc ha
    refine (Lays.of_unmarked hskip (by decide)).trans ?_
    refine lays_textNode hskip.live (ha'.lineStart ?_)
      (Lookahead.lineBreak_lengthBeforeTail Lookahead.isExternal _) (by decide)
    intro hnil
    rw [← hrest, hnil] at hjson
    cases hjson
  · exact .refl c

lemma lays_graphqlFile (hc : c.Live) (ha : c.Aligned) : Lays all around c c.graphqlFile := by
  simp only [graphqlFile]
  split_ifs with hext
  · obtain ⟨hskip, ha', hrest⟩ := run_skipBlankLines (e := true) hc ha
    refine (Lays.of_unmarked hskip (by decide)).trans ?_
    rw [← hrest] at hext
    have hsees := Lookahead.startsWith_of_isExternal hext
    exact lays_externalBody hskip.live (ha'.lineStart (ne_nil_of_sees hsees)) hsees
  · exact .refl c

/-- The text of a query begins with the word it has been told by. -/
lemma lays_graphqlData {n : Nat} (hc : c.Live) (hl : c.lineStart = true)
    (hb : Lookahead.LineBreak c.rest (n + 1)) (hne : c.rest ≠ [])
    (hword : Lookahead.headText c.rest ∈ Lookahead.graphqlWords) :
    Lays all around c (c.textNode .graphqlData (c.read + (n + 1))) := by
  obtain ⟨hrun, hread, _⟩ := run_textNode (e := true) (K := .graphqlData) hc (Or.inr hl) hb
  intro front hr
  refine LaysAt.atom hr hrun rfl (by decide) fun here _ _ ht _ => ⟨hr.atLineStart hl, ?_⟩
  obtain ⟨t, us, hrest⟩ := List.exists_cons_of_ne_nil hne
  have hhere : here = t :: us.take n := by
    rw [ht.eq_take hread, hrest, List.take_succ_cons]
  rw [hrest] at hword
  rw [hhere]
  exact hword

/-- **GraphQL bodies** begin with the query. -/
lemma lays_graphqlBody (hc : c.Live) (hl : c.lineStart = true) (hne : c.rest ≠ [])
    (hword : Lookahead.headText c.rest ∈ Lookahead.graphqlWords) :
    Lays all around c c.graphqlBody := by
  have hb := Lookahead.lineBreak_lengthBeforeTail Lookahead.isGraphqlTail c.rest
  obtain ⟨n, hn⟩ := Nat.exists_eq_add_of_le'
    (Lookahead.lengthBeforeTail_pos Lookahead.isGraphqlTail hne)
  rw [hn] at hb
  obtain ⟨hdata, _, ha⟩ := run_textNode (e := true) (K := .graphqlData) hc.opened (Or.inr hl) hb
  obtain ⟨hvars, ha'⟩ := run_graphqlVariables (e := true) hdata.live ha
  have hparts : Lays all (.graphqlBody :: around) c.opened
      (c.opened.textNode .graphqlData (c.read + (n + 1))).graphqlVariables.graphqlFile :=
    ((lays_graphqlData (c := c.opened) hc.opened hl hb hne hword).trans
      (lays_graphqlVariables hdata.live ha)).trans (lays_graphqlFile hvars.live ha')
  rw [← hn] at hparts
  exact fun front hr => LaysAt.node (hparts front hr) fun _ _ =>
    ⟨fun _ => hr.atLineStart hl, fun h => absurd h (by decide)⟩

/-! ### Body sections -/

/-- **Items of a body section.** -/
lemma lays_bodyItem (hc : c.Live) (hl : c.lineStart = true) (hne : c.rest ≠ []) :
    Lays all around c (c.bodyItem (BodyLine.ofTokens c.rest)) := by
  have hb := BodyLine.begins_ofTokens c.rest
  have hgraphql : BodyLine.ofTokens c.rest = .graphql →
      Lookahead.headText c.rest ∈ Lookahead.graphqlWords := BodyLine.headText_of_graphql
  generalize BodyLine.ofTokens c.rest = line at *
  cases line with
  | blank => exact Lays.of_unmarked (run_blankLine hc hb hne).toRun (by decide)
  | comment => exact lays_comment hc hl hb
  | responseHandler => exact Lays.line (run_responseHandler hc hb).toRun rfl hl (by decide)
  | redirect => exact Lays.line (run_responseRedirect hc hb).toRun rfl hl (by decide)
  | multipart => exact lays_multipart hc hl hb
  | external => exact lays_externalBody hc hl hb
  | xml =>
      have hrun := (run_textBody (e := true) (K := .xmlBody) hc (Or.inr hl) hne).toRun
      exact Lays.line hrun rfl hl (by decide)
  | json =>
      have hrun := (run_textBody (e := true) (K := .jsonBody) hc (Or.inr hl) hne).toRun
      exact Lays.line hrun rfl hl (by decide)
  | graphql => exact lays_graphqlBody hc hl hne (hgraphql rfl)
  | form => exact lays_formBody hc hl hb
  | raw => exact Lays.line (run_rawBody hc (Or.inr hl) hne).toRun rfl hl (by decide)

/-- **Body sections.** -/
lemma lays_bodySection (hc : c.Live) (ha : c.Aligned) : Lays all around c c.bodySection := by
  have hloop : Lays all around c.lowered _ :=
    Lays.loopWhile (by decide) run_bodyItem_turn (fun d hd ha hmore => by
      simp only [hd.stopped_eq, atEnd, Bool.and_eq_true, Bool.not_eq_true',
        List.isEmpty_eq_false_iff] at hmore
      exact lays_bodyItem hd (ha.lineStart hmore.1) hmore.1) hc.lowered ha
  exact fun front hr => LaysAt.nested hc (hloop front hr)

end Cursor

end RequestFile
