import RequestFile.Proofs.Body
import RequestFile.Proofs.LastLine.Head

/-!
Bodies, without and with the line feed at the end.

* **Bounds.** A text that goes on to the end goes on to the line feed in the longer source; every
  other bound is the same in both (`Bounds`). So a text either ends in front of the last line or
  takes it whole (`Beside.textLines`).
* **Parts.** Of a GraphQL body each part begins behind blank lines, where something is left.
* **The exception.** A lone opening angle bracket on the last line is XML for the shorter parse and
  plain text for the longer one (`Abreast.loneBracket`); all other lines begin the same in both.
-/

namespace RequestFile

open Token (lineFeed)

namespace Cursor

open Lookahead

variable {ts : List Token} {s : Stage} {c d : Cursor} {k : Kind} {stop stop' : Nat}
  {opener opener' : Span}

/-! ### Text and files -/

/-- The bound of a text in both sources. -/
def Bounds (ts : List Token) (stop stop' : Nat) : Prop :=
  (stop < ts.length ∧ stop' = stop) ∨ (stop = ts.length ∧ stop' = stop + 1)

lemma Abreast.bounds (h : Abreast ts c d) {n n' : Nat} (hr : Reaches c.rest n n') :
    Bounds ts (c.read + n) (d.read + n') := by
  have hfin := h.finish_eq
  rw [finish] at hfin
  rw [h.read]
  rcases hr with ⟨hlt, rfl⟩ | ⟨rfl, rfl⟩
  · exact Or.inl ⟨by omega, rfl⟩
  · exact Or.inr ⟨hfin, (Nat.add_assoc _ _ _).symm⟩

/-- A line of a text, or the part of it in front of the bound. -/
lemma Abreast.textLine (h : Abreast ts c d) (hlt : c.read < stop) (hb : Bounds ts stop stop') :
    Beside ts .ended (c.textLine stop) (d.textLine stop') := by
  have hmin : min d.lineEnd stop' = min c.lineEnd stop := by
    have hle := h.lineEnd_le
    rw [h.lineEnd_eq]
    rcases hb with ⟨_, rfl⟩ | ⟨hend, rfl⟩
    · rfl
    · rw [min_eq_left (by omega), min_eq_left (by omega)]
  have hread := c.read_textUntil_le (min c.lineEnd stop)
  rw [Cursor.textLine, Cursor.textLine, hmin]
  refine (h.beside.textUntil ((min_le_left _ _).trans h.lineEnd_le)).step
    (fun h => h.ifBefore stop h.eatNewline) fun h => ?_
  generalize c.textUntil (min c.lineEnd stop) = c' at h hread ⊢
  generalize d.textUntil (min c.lineEnd stop) = d' at h ⊢
  rcases hb with ⟨hstop, rfl⟩ | ⟨rfl, rfl⟩
  · rw [h.read]
    split_ifs
    · exact h.beside.eatNewline
    · exact h.ended (h.ne_nil (by omega))
  -- at the end only the longer parse is in front of its bound
  · have hc : (if c'.read < ts.length then c'.eatNewline else c') = c'.eatNewline := by
      split_ifs with hmore
      · rfl
      · exact (eatNewline_of_nil (of_not_not fun hne => hmore (h.read_lt hne))).symm
    have hle := h.read_le
    rw [hc, h.read, if_pos (by omega)]
    exact h.beside.eatNewline

namespace Beside

/-- **Lines of text** up to a bound. -/
lemma textLines (h : Beside ts .ended c d) (hb : Bounds ts stop stop') :
    Beside ts .ended (c.textLines stop) (d.textLines stop') := by
  refine h.loopLines (I := fun _ => True) trivial
    (fun h _ => (h.textUntil _).ifBefore stop (h.textUntil _).eatNewline) (fun _ _ => trivial)
    (fun {c d} h hne => ?_) (fun h _ _ hmore => h.textLine ?_ hb) fun hstop => by simp [hstop]
  · obtain ⟨hc, hd⟩ := h.stopped_of_ne hne
    rw [hc, hd, h.read]
    rcases hb with ⟨_, rfl⟩ | ⟨rfl, rfl⟩
    · rfl
    · have hlt := h.read_lt hne
      rw [decide_eq_true hlt, decide_eq_true (hlt.trans (Nat.lt_succ_self _))]
  · exact of_decide_eq_true (Bool.and_eq_true_iff.mp hmore).1

end Beside

namespace Abreast

lemma textNode (h : Abreast ts c d) (hne : c.rest ≠ []) (hb : Bounds ts stop stop')
    (hk : k ∉ Tree.shortKinds) : Beside ts .ended (c.textNode k stop) (d.textNode k stop') :=
  h.node (fun _ => hk) fun h => (h.ended hne).textLines hb

lemma bounds_text (h : Abreast ts c d) (hne : c.rest ≠ []) {p : List Token → Bool}
    (hp : LineLocal p) :
    Bounds ts (c.read + textLength p c.rest) (d.read + textLength p d.rest) := by
  refine h.bounds ?_
  rw [h.rest]
  exact reaches_textLength hne h.unended hp

lemma textBody (h : Abreast ts c d) (hne : c.rest ≠ []) (hk : k ∉ Tree.shortKinds) :
    Beside ts .ended (c.textBody k) (d.textBody k) :=
  h.textNode hne (h.bounds_text hne lineLocal_isBodyStop) hk

lemma rawBody (h : Abreast ts c d) (hne : c.rest ≠ []) : Beside ts .ended c.rawBody d.rawBody :=
  h.textNode hne (h.bounds_text hne (lineLocal_isBlankLine.or lineLocal_isBodyStop)) (by decide)

end Abreast

namespace Beside

lemma external (h : Beside ts .line c d) : Beside ts .line c.external d.external :=
  ((h.bump.eat (by decide)).eatBlank).path

lemma externalBody (h : Beside ts .line c d) : Beside ts .ended c.externalBody d.externalBody :=
  h.step (fun h => h.externalBody) fun h =>
    (h.lineNode (K := .externalBody) fun h => h.beside.external).endLine _

lemma multipartExternal (h : Beside ts .line c d) :
    Beside ts .ended c.multipartExternal d.multipartExternal :=
  h.step (fun h => h.multipartExternal) fun h =>
    h.node (by decide) fun h => h.beside.external.endLine _

/-! ### Multipart bodies -/

lemma boundaryLine {textEnd : Nat} (h : Beside ts .line c d) (b : Boundary)
    (hs : textEnd ≤ ts.length) :
    Beside ts .ended (c.boundaryLine b textEnd) (d.boundaryLine b textEnd) := by
  refine h.step (fun h => h.boundaryLine b textEnd) fun h => ?_
  refine h.node (fun _ => by cases b <;> decide) fun h => ?_
  dsimp only
  split_ifs
  · exact (h.beside.bump.part (by decide) ((Nat.sub_le _ _).trans hs)).bump.endLine _
  · exact (h.beside.bump.part (by decide) hs).endLine _

lemma multipartContent (h : Beside ts .line c d) :
    Beside ts .ended c.multipartContent d.multipartContent :=
  h.step (fun h => h.multipartContent) fun h => h.node (by decide) fun h => h.beside.lineRest

end Beside

namespace Abreast

lemma boundaryTextEnd_eq (h : Abreast ts c d) : d.boundaryTextEnd = c.boundaryTextEnd := by
  rw [boundaryTextEnd, h.lineEnd_eq, h.segment_eq h.lineEnd_le, h.read, boundaryTextEnd]

lemma boundaryTextEnd_le (h : Abreast ts c d) (hs : c.sees .doubleDash) :
    c.boundaryTextEnd ≤ ts.length :=
  (boundaryTextEnd_bounds hs).2.trans h.lineEnd_le

lemma boundaryHere_eq (h : Abreast ts c d) (textEnd : Nat) :
    d.boundaryHere textEnd = c.boundaryHere textEnd := by
  simp only [boundaryHere, h.read, h.startsWith_drop_eq (show Kind.doubleDash ≠ .newline by decide)]

/-- A line of a multipart body; one that is left open is reported behind the line feed. -/
lemma multipartTurn (h : Abreast ts c d) (hne : c.rest ≠ []) (opener opener' : Span)
    {turn : Cursor → Turn} :
    Turn.Beside ts turn .ended .ended (multipartTurn opener c) (multipartTurn opener' d) := by
  obtain ⟨hc, hd⟩ := h.stopped_of_ne hne
  have h' := h.look
  have hrest : d.look.rest = c.look.rest ++ [lineFeed] := h'.rest
  simp only [Cursor.multipartTurn, hc, hd, h.atSeparator_eq, h.atBlankLine_eq, h.rest,
    lineLocal_isHandler.concat, hrest, lineLocal_isBoundary.concat,
    lineLocal_isExternal.concat, lineLocal_isHeader.concat,
    h'.boundaryTextEnd_eq, h'.boundaryHere_eq]
  split_ifs with _ _ hb
  · exact .done ((h.ended hne).reportUnclosed rfl _ _ _ _)
  · exact .again h.beside.eatBlankLine
  · have hs : c.look.sees .doubleDash := (Bool.and_eq_true_iff.mp hb).1
    have hle := h'.boundaryTextEnd_le hs
    cases c.look.boundaryHere c.look.boundaryTextEnd with
    | last => exact .done (h'.beside.boundaryLine _ hle)
    | first => exact .again (h'.beside.boundaryLine _ hle)
    | inner => exact .again (h'.beside.boundaryLine _ hle)
  · exact .again h'.beside.multipartExternal
  · exact .again h'.beside.header
  · exact .again h'.beside.multipartContent

/-- At the end a multipart body is left open. -/
lemma multipartTurn_of_nil (hr : c.rest = []) (opener : Span) :
    Cursor.multipartTurn opener c = .done (c.reportUnclosed .unclosedMultipart
      "expected a closing boundary" "multipart body starts here" opener) := by
  rw [Cursor.multipartTurn, if_pos (by simp [stopped_of_nil hr])]

lemma multipart (h : Abreast ts c d) (hs : c.sees .doubleDash) :
    Beside ts .ended c.multipart d.multipart := by
  simp only [Cursor.multipart]
  refine h.node (by decide) fun h => ?_
  rw [h.boundaryTextEnd_eq]
  refine (h.beside.boundaryLine .first (h.boundaryTextEnd_le hs)).loop (I := fun _ => True) trivial
    (fun h => h.multipartTurn trivial) (fun _ _ => trivial)
    (fun h hne _ => h.multipartTurn (hne rfl) _ _) fun h _ => ?_
  exact ⟨_, _, multipartTurn_of_nil h.nil _, multipartTurn_of_nil h.nil' _,
    h.beside.reportUnclosed rfl _ _ _ _⟩

end Abreast

/-! ### Forms -/

namespace Beside

lemma formValue {lineEnd : Nat} (h : Beside ts .line c d) (hs : lineEnd ≤ ts.length) :
    Beside ts .line (c.formValue lineEnd) (d.formValue lineEnd) := by
  refine h.operator.eatBlank.step (fun h => h.part (by decide) _) fun h => ?_
  simp only [Cursor.formValue]
  rw [h.outsideVariables_eq _ hs, h.trimmedEnd_eq (h.outsideVariables_le _ _)]
  exact h.beside.part (by decide) (h.trimmedEnd_le _)

lemma formParam (h : Beside ts .line c d) : Beside ts .line c.formParam d.formParam := by
  refine h.step (fun h => h.formParam) fun h => ?_
  have hname := h.trimmedEnd_le (c.outsideVariables formNameEndKinds c.lineEnd)
  have hend := h.lineEnd_le
  simp only [Cursor.formParam, h.lineEnd_eq, h.outsideVariables_eq formNameEndKinds hend,
    h.trimmedEnd_eq (h.outsideVariables_le _ _), h.read,
    h.startsWith_drop_eq (show Kind.equals ≠ .newline by decide)]
  split_ifs
  · exact h.beside
  · exact h.lineNode fun h => (h.beside.part (by decide) hname).eatBlank.formValue hend
  · exact h.lineNode fun h => (h.beside.part (by decide) hname).eatBlank

/-- In front of the line feed a form does not go on. -/
lemma formBreak (h : Beside ts .line c d) : Beside ts .line c.formBreak d.formBreak := by
  refine h.step (fun h => h.on (fun h => ?_) fun h => h) fun h => ?_
  · split_ifs
    · exact h.bump
    · exact h
  have heq : ∀ c : Cursor, c.formBreak
      = c.on .newline (fun c => if formContinues (c.rest.drop 1) then c.bump else c) id :=
    fun _ => rfl
  rw [heq, heq]
  -- at the end of the shorter source the line feed stands alone, and no parameter behind it
  by_cases hnil : c.rest = []
  · have hs : d.sees .newline := by
      rw [sees, h.rest, hnil]
      rfl
    have hstop : formContinues (d.look.rest.drop 1) = false := by
      rw [look_rest, h.rest, hnil]
      rfl
    rw [on_neg (by simp [sees, hnil]), on_pos hs, hstop, if_neg Bool.false_ne_true]
    exact h.look.beside
  · have hsees := h.sees_eq_of_ne hnil .newline
    by_cases hs : c.sees .newline
    · have hmore : formContinues (d.look.rest.drop 1) = formContinues (c.look.rest.drop 1) := by
        rw [look_rest, look_rest, h.rest,
          List.drop_append_of_le_length (List.length_pos_iff.mpr hnil),
          lineLocal_formContinues.concat]
      rw [on_pos hs, on_pos (hsees.trans hs), hmore]
      split_ifs
      · exact h.look.beside.bump
      · exact h.look.beside
    · rw [on_neg hs, on_neg (by rwa [hsees])]
      exact h.look.beside

end Beside

lemma Abreast.formTurn (h : Abreast ts c d) {turn : Cursor → Turn} :
    Turn.Beside ts turn .line .line (formTurn c) (formTurn d) := by
  have hturn : ∀ c : Cursor, Cursor.formTurn c
      = if c.formParam.look.sees .ampersand then .again c.formParam.look.operator.formBreak
        else .done c.formParam.look := fun _ => rfl
  refine h.beside.formParam.look.takeTurn (fun h => ?_) fun h => ?_
  · rw [hturn]
    split_ifs
    · refine h.operator.on (fun h => ?_) fun h => h
      split_ifs
      · exact h.bump
      · exact h
    · exact h
  · rw [hturn, hturn, h.sees_eq (by decide)]
    split_ifs
    · exact .again h.beside.operator.formBreak
    · exact .done h.beside

lemma Beside.formBody (h : Beside ts .line c d) : Beside ts .ended c.formBody d.formBody :=
  h.step (fun h => h.formBody) fun h => h.node (by decide) fun h =>
    (h.beside.lineLoop (fun h => h.formTurn) fun h => h.formTurn).endLine _

/-! ### GraphQL -/

namespace Beside

lemma skipTo (h : Beside ts .ended c d) (stop : Nat) :
    Beside ts .ended (c.skipTo stop) (d.skipTo stop) := by
  refine h.loopLines (I := fun _ => True) trivial (fun h _ => h.eatBlankLine) (fun _ _ => trivial)
    (fun {c d} h hne => ?_) (fun h _ _ _ => h.beside.eatBlankLine) fun hstop => by simp [hstop]
  obtain ⟨hc, hd⟩ := h.stopped_of_ne hne
  rw [hc, hd, h.read]

end Beside

namespace Abreast

/-- What begins behind the blank lines ahead begins there in both sources, if it begins at all. -/
lemma behindBlankLines (h : Abreast ts c d) (hne : c.rest ≠ []) {p : List Token → Bool}
    (hp : LineLocal p) (hnil : p [] = false) :
    p (d.rest.drop (blankLinesLength d.rest)) = p (c.rest.drop (blankLinesLength c.rest)) ∧
      (p (c.rest.drop (blankLinesLength c.rest)) →
        blankLinesLength d.rest = blankLinesLength c.rest) := by
  have hreach := reaches_blankLinesLength hne h.unended
  rw [h.rest]
  rcases hreach with ⟨hlt, heq⟩ | ⟨hall, heq⟩
  · rw [heq, hp.drop_concat]
    exact ⟨rfl, fun _ => rfl⟩
  · have hend : c.rest.drop (blankLinesLength c.rest) = [] := List.drop_of_length_le hall.ge
    have hend' : (c.rest ++ [lineFeed]).drop (blankLinesLength c.rest + 1) = [] :=
      List.drop_of_length_le (by rw [List.length_append, hall, List.length_singleton])
    rw [heq, hend, hend', hnil]
    exact ⟨rfl, fun hcontra => absurd hcontra Bool.false_ne_true⟩

/-- In front of a part of a body something is left. -/
lemma skipBlankLines (h : Abreast ts c d) (hne : c.rest ≠ []) (hc : c.Live) (ha : c.Aligned)
    (hsame : blankLinesLength d.rest = blankLinesLength c.rest)
    (hmore : c.rest.drop (blankLinesLength c.rest) ≠ []) :
    Beside ts .line (c.skipTo (c.read + blankLinesLength c.rest))
        (d.skipTo (d.read + blankLinesLength d.rest)) ∧
      (c.skipTo (c.read + blankLinesLength c.rest)).rest ≠ [] := by
  obtain ⟨_, _, hrest⟩ := run_skipBlankLines (e := true) hc ha
  rw [← hrest] at hmore
  refine ⟨?_, hmore⟩
  rw [hsame, h.read]
  cases (h.ended hne).skipTo (c.read + blankLinesLength c.rest) with
  | fault h => exact .fault h
  | abreast h _ => exact h.beside
  | past h _ => exact absurd h.nil hmore

lemma graphqlVariables (h : Abreast ts c d) (hne : c.rest ≠ []) (hc : c.Live) (ha : c.Aligned) :
    Beside ts .ended c.graphqlVariables d.graphqlVariables := by
  obtain ⟨hsame, hlen⟩ := h.behindBlankLines hne lineLocal_isJson rfl
  simp only [Cursor.graphqlVariables, hsame]
  split_ifs with hjson
  · have hmore : c.rest.drop (blankLinesLength c.rest) ≠ [] := fun hnil => by
      rw [hnil] at hjson
      cases hjson
    obtain ⟨hskip, hne'⟩ := h.skipBlankLines hne hc ha (hlen hjson) hmore
    refine hskip.step (fun h => h.textNode (by decide) _) fun h => ?_
    refine h.textNode hne' (h.bounds ?_) (by decide)
    rw [h.rest]
    exact reaches_lengthBeforeTail hne' h.unended lineLocal_isExternal
  · exact h.ended hne

lemma graphqlFile (h : Abreast ts c d) (hne : c.rest ≠ []) (hc : c.Live) (ha : c.Aligned) :
    Beside ts .ended c.graphqlFile d.graphqlFile := by
  obtain ⟨hsame, hlen⟩ := h.behindBlankLines hne lineLocal_isExternal rfl
  simp only [Cursor.graphqlFile, hsame]
  split_ifs with hext
  · have hmore : c.rest.drop (blankLinesLength c.rest) ≠ [] := fun hnil => by
      rw [hnil] at hext
      cases hext
    exact (h.skipBlankLines hne hc ha (hlen hext) hmore).1.externalBody
  · exact h.ended hne

end Abreast

/-- At the end no part of a body follows. -/
lemma graphqlParts_of_nil (hr : c.rest = []) :
    c.graphqlVariables = c ∧ c.graphqlFile = c := by
  have hjson : isJson (([] : List Token).drop (blankLinesLength [])) = false := rfl
  have hext : isExternal (([] : List Token).drop (blankLinesLength [])) = false := rfl
  rw [graphqlVariables, graphqlFile, hr, hjson, hext]
  exact ⟨rfl, rfl⟩

lemma Abreast.graphqlBody (h : Abreast ts c d) (hne : c.rest ≠ []) (hc : c.Live)
    (ha : c.Aligned) : Beside ts .ended c.graphqlBody d.graphqlBody := by
  have hbounds : Bounds ts (c.read + lengthBeforeTail isGraphqlTail c.rest)
      (d.read + lengthBeforeTail isGraphqlTail d.rest) := by
    refine h.bounds ?_
    rw [h.rest]
    exact reaches_lengthBeforeTail hne h.unended lineLocal_isGraphqlTail
  obtain ⟨hdata, _, ha'⟩ := run_textNode (e := true) (K := .graphqlData) hc.opened ha
    (lineBreak_lengthBeforeTail isGraphqlTail c.opened.rest)
  obtain ⟨hvars, ha''⟩ := run_graphqlVariables (e := true) hdata.live ha'
  refine h.node (by decide) fun h => ?_
  have hquery := h.textNode (k := .graphqlData) hne hbounds (by decide)
  have hparts : ∀ {c d}, c.Live → c.Aligned → Beside ts .ended c d →
      Beside ts .ended c.graphqlVariables d.graphqlVariables ∧
        Beside ts .ended c.graphqlFile d.graphqlFile := fun {c d} hc ha h => by
    cases h with
    | fault h => exact ⟨.fault h.graphqlVariables, .fault h.graphqlFile⟩
    | abreast h hne =>
        exact ⟨h.graphqlVariables (hne rfl) hc ha, h.graphqlFile (hne rfl) hc ha⟩
    | past h _ =>
        obtain ⟨hv, hf⟩ := graphqlParts_of_nil h.nil
        obtain ⟨hv', hf'⟩ := graphqlParts_of_nil h.nil'
        rw [hv, hf, hv', hf']
        exact ⟨h.beside, h.beside⟩
  exact (hparts hvars.live ha'' (hparts hdata.live ha' hquery).1).2

/-! ### Body sections -/

lemma textLength_singleton (p : List Token → Bool) (t : Token) : textLength p [t] = 1 :=
  le_antisymm (lineBreak_textLength p [t]).le (textLength_pos p (List.cons_ne_nil t []))

/-- **A lone opening angle bracket** on the last line becomes another body. -/
lemma Abreast.loneBracket (h : Abreast ts c d) {t : Token} (hr : c.rest = [t])
    (hk : t.kind = .angleOpen) (hc : c.Live) (ha : c.Aligned) :
    Beside ts .ended (c.textBody .xmlBody) d.rawBody := by
  have hne : c.rest ≠ [] := by
    rw [hr]
    exact List.cons_ne_nil t []
  have hlone : LoneBracket ts := by
    obtain ⟨front, hts, _, hline⟩ := h.place
    exact ⟨front, t, by rw [hts, hr], hline ▸ ha.resolve_left hne, hk⟩
  -- the text of either body is all that is left
  have hall : ∀ p : List Token → Bool, c.read + textLength p c.rest = ts.length := fun p => by
    rw [← h.finish_eq, finish, hr, textLength_singleton, List.length_singleton]
  have hbounds := h.bounds_text hne (lineLocal_isBlankLine.or lineLocal_isBodyStop)
  rw [hall] at hbounds
  obtain ⟨_, hread⟩ := run_textLines (e := true) hc.opened
    ⟨h.opened.read_le, h.opened.finish_eq.ge⟩
  rw [Cursor.textBody, Cursor.rawBody, hall]
  have hlines := (h.opened.ended hne).textLines hbounds
  rw [Cursor.textNode, Cursor.textNode, Cursor.node, Cursor.node, h.built]
  generalize c.opened.textLines ts.length = c' at hlines hread ⊢
  cases hlines with
  | fault h' => exact .fault ⟨h'.fault, h'.finish⟩
  | abreast h' hne' =>
      exact absurd hread (h'.read_lt (hne' rfl)).ne
  | past h' hs =>
      refine .past { h' with
        here := h'.here.closed _ _
        there := h'.there.closed _ _
        built := ?_ } hs
      simp only [Cursor.closed, Array.toList_push]
      exact .lone _ hlone

/-- **Items of a body section.** -/
lemma Abreast.bodyItem (h : Abreast ts c d) (hne : c.rest ≠ []) (hc : c.Live) (ha : c.Aligned) :
    Beside ts .ended (c.bodyItem (BodyLine.ofTokens c.rest))
      (d.bodyItem (BodyLine.ofTokens d.rest)) := by
  -- a lone angle is the only line for which a terminator behind it tells another body
  by_cases hlone : ∃ t, c.rest = [t] ∧ t.kind = .angleOpen
  · obtain ⟨t, hr, hk⟩ := hlone
    obtain ⟨hxml, hraw⟩ := bodyLine_lone hk
    have hdrest : d.rest = [t, lineFeed] := by
      rw [h.rest, hr]
      rfl
    have hlone := h.loneBracket hr hk hc ha
    rw [hr, hxml, hdrest, hraw]
    exact hlone
  have hline : BodyLine.ofTokens d.rest = BodyLine.ofTokens c.rest := by
    rw [h.rest, bodyLine_lineFeed fun t hr hk => hlone ⟨t, hr, hk⟩]
  have hbegins := BodyLine.begins_ofTokens c.rest
  rw [hline]
  cases hkind : BodyLine.ofTokens c.rest with
  | blank => exact h.beside.eatBlankLine
  | comment => exact h.beside.comment
  | responseHandler => exact h.beside.responseHandler
  | redirect => exact h.beside.responseRedirect
  | multipart =>
      rw [hkind] at hbegins
      exact h.multipart hbegins.1
  | external => exact h.beside.externalBody
  | xml => exact h.textBody hne (by decide)
  | json => exact h.textBody hne (by decide)
  | graphql => exact h.graphqlBody hne hc ha
  | form => exact h.beside.formBody
  | raw => exact h.rawBody hne

lemma Alike.aligned (h : Alike c d) (ha : c.Aligned) : d.Aligned := by
  obtain ⟨_, _, _, rfl⟩ := h
  exact ha

/-- Everything from a blank line to the end of the section. -/
lemma Abreast.bodySection (h : Abreast ts c d) (hne : c.rest ≠ []) (hc : c.Live)
    (ha : c.Aligned) : Beside ts .ended c.bodySection d.bodySection := by
  refine h.nested fun c' d' hlike hlike' => ?_
  have h' := h.congr hlike hlike'
  have hne' : c'.rest ≠ [] := by
    obtain ⟨_, _, _, rfl⟩ := hlike
    exact hne
  refine (h'.ended hne').loopLines (I := fun c => c.Live ∧ c.Aligned)
    ⟨hlike.live hc, hlike.aligned ha⟩ (fun h _ => h.bodyItem _) (fun {c} hi hmore => ?_)
    (fun {c d} h hne => ?_) (fun h hne hi _ => h.bodyItem hne hi.1 hi.2)
    fun hstop => by simp [hstop]
  · obtain ⟨hrun, _, ha⟩ := run_bodyItem_turn (e := true) c hi.1 hi.2 hmore
    exact ⟨hrun.live, ha⟩
  · obtain ⟨hc, hd⟩ := h.stopped_of_ne hne
    rw [hc, hd, h.atSeparator_eq]

end Cursor

end RequestFile
