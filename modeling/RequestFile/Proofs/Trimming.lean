import RequestFile.Proofs.Origin

/-!
Names and values in forms are trimmed, as far as they are.

Around the equals sign of a form parameter blanks are taken apart, and so are the blanks in front of an
ampersand and at the end of a line. In front of the name they are not: a blank behind an ampersand, or
at the start of a line on which a form goes on, is taken with the name.

* **Values** neither begin nor end with a blank.
* **Names** end without one and may begin with one (`IndentedText`). The first name of a form does
  not, since a line with a blank at its start is not taken for a form.

`Parsed.ofSource_trimmed` is about all sources, and `Parsed.not_formParamName_trimmed` gives a name
with a blank in front.
-/

namespace RequestFile

open scoped Computability

/-- A trimmed text behind blanks. -/
def IndentedText (s : String) : Prop :=
  ∃ w r, s = w ++ r ∧ (∀ c ∈ w.toList, isBlank c) ∧ TrimmedText r

lemma TrimmedText.indented {s : String} (h : TrimmedText s) : IndentedText s :=
  ⟨"", s, String.empty_append.symm, fun _ hc => absurd hc List.not_mem_nil, h⟩

namespace Token

variable {source : String} {ts : List Token}

/-- A stretch of a line with no blank at its ends. -/
lemma trimmedText_of_line (hall : ∀ t ∈ ts, t ∈ scan source) (hline : ∀ t ∈ ts, t.kind ≠ .newline)
    (hlast : ∀ t ∈ ts.getLast?, t.kind ≠ .whitespace) (hne : ts ≠ [])
    (hfirst : ∀ t ∈ ts.head?, t.kind ≠ .whitespace) : TrimmedText (textOf ts) :=
  Tree.Trimmed.text ⟨hne, fun t ht => ⟨hfirst t ht, hline t (List.mem_of_head? ht)⟩,
    fun t ht => ⟨hlast t ht, hline t (List.mem_of_getLast? ht)⟩⟩ hall

/-- A stretch of a line with no blank at its end: two blanks do not follow each other, so it is
trimmed behind the first one. -/
lemma indentedText_of_line (hall : ∀ t ∈ ts, t ∈ scan source)
    (hapart : ts.IsChain fun t u => ¬(t.kind = .whitespace ∧ u.kind = .whitespace))
    (hline : ∀ t ∈ ts, t.kind ≠ .newline) (hlast : ∀ t ∈ ts.getLast?, t.kind ≠ .whitespace)
    (hne : ts ≠ []) : IndentedText (textOf ts) := by
  obtain ⟨t, us, rfl⟩ := List.exists_cons_of_ne_nil hne
  by_cases hblank : t.kind = .whitespace
  swap
  · exact (trimmedText_of_line hall hline hlast hne (by simpa using hblank)).indented
  have hus : us ≠ [] := by
    rintro rfl
    exact hlast t rfl hblank
  rw [List.getLast?_cons_of_ne_nil hus] at hlast
  refine ⟨t.text, textOf us, textOf_cons t us,
    RunKind.whitespace.forall_mem_text true source.toList t (hall t List.mem_cons_self) hblank, ?_⟩
  refine trimmedText_of_line (fun u hu => hall u (List.mem_cons_of_mem t hu))
    (fun u hu => hline u (List.mem_cons_of_mem t hu)) hlast hus fun u hu hk => ?_
  obtain ⟨vs, rfl⟩ := List.head?_eq_some_iff.mp hu
  exact (List.isChain_cons_cons.mp hapart).1 ⟨hblank, hk⟩

end Token

namespace Tree

/-- Names and values of form parameters, with a property of names. -/
def FieldText (N : String → Prop) (t : Tree) : Prop :=
  t.isNode → (t.kind = .formParamName → N t.text) ∧ (t.kind = .formParamValue → TrimmedText t.text)

/-- A form parameter with such a name and such a value. -/
def ParamTexts (N : String → Prop) (t : Tree) : Prop :=
  t.isNode → t.kind = .formParam → ∀ u ∈ t.children, FieldText N u

/-- A form body with such parameters, the first name of which is trimmed at both ends. -/
structure FormTexts (t : Tree) : Prop where
  every : ∀ u ∈ t.children, ParamTexts IndentedText u
  first : ∀ u ∈ t.children.head?, ParamTexts TrimmedText u

lemma ParamTexts.indented {t : Tree} (h : ParamTexts TrimmedText t) : ParamTexts IndentedText t :=
  fun hnode hk u hu hunode =>
    ⟨fun hname => ((h hnode hk u hu hunode).1 hname).indented, (h hnode hk u hu hunode).2⟩

end Tree

namespace Cursor

variable {source : String} {k stop : Nat} {K : Kind} {L : TreeLanguage} {N : String → Prop}
  {P : Tree → Prop} {c c' : Cursor}

/-! ### Tokens of a part -/

/-- The text of a part is that of the tokens up to its end. -/
lemma adds_part (hc : c.Live) (hl : stop ≤ c.lineEnd)
    (hP : c.read < stop → ∀ us, (Tree.node K us).text = Token.textOf (c.segment stop) →
      P (.node K us)) : Adds P c (c.part K stop) := by
  by_cases h : c.read < stop
  · obtain ⟨hrun, hread⟩ := run_part_of_lt (e := true) (K := K) hc hl h
    obtain ⟨ts, new, ht, hb, hover, hn⟩ := hrun.grew
    obtain ⟨us, _, rfl⟩ := hn fun _ => rfl
    have hts : ts = c.segment stop := ht.eq_take (by omega)
    refine ⟨_, hb, ⟨ts, ht.rest.symm⟩, fun t hmem => ?_⟩
    obtain rfl := List.mem_singleton.mp hmem
    have htext := hover.textOf_eq
    rw [Tree.textOf_singleton, hts] at htext
    exact hP h us htext
  · rw [part, if_neg h]
    exact .refl c

/-- In front of a trimmed end stand tokens of one line, the last of which is no blank. -/
lemma kinds_segment_trimmedEnd (hl : stop ≤ c.lineEnd) :
    (∀ t ∈ c.segment (c.trimmedEnd stop), t.kind ≠ .newline) ∧
      ∀ t ∈ (c.segment (c.trimmedEnd stop)).getLast?, t.kind ≠ .whitespace := by
  have hcut : c.segment (c.trimmedEnd stop)
      = (c.segment stop).take (Lookahead.trimmedLength (c.segment stop)) := by
    have hle : Lookahead.trimmedLength (c.segment stop) ≤ stop - c.read :=
      (Lookahead.trimmedLength_le _).trans (List.length_take_le _ _)
    rw [trimmedEnd, segment, Nat.add_sub_cancel_left]
    conv_rhs => rw [segment, List.take_take, ← segment, min_eq_left hle]
  rw [hcut]
  refine ⟨fun t ht => ?_, fun t ht => Lookahead.getLast_take_trimmedLength ht⟩
  exact Lookahead.kind_of_mem_take (by rw [lineEnd] at hl; omega) (List.mem_of_mem_take ht)

/-- Something stands in front of a trimmed end behind the cursor. -/
lemma exists_of_lt_trimmedEnd (h : c.read < c.trimmedEnd stop) : ∃ t us, c.rest = t :: us ∧
    c.segment (c.trimmedEnd stop) = t :: us.take (c.trimmedEnd stop - c.read - 1) := by
  have hne : c.rest ≠ [] := fun hnil => by
    have hzero : Lookahead.trimmedLength [] = 0 := rfl
    rw [trimmedEnd, segment, hnil, List.take_nil, hzero, Nat.add_zero] at h
    exact lt_irrefl _ h
  obtain ⟨t, us, hr⟩ := List.exists_cons_of_ne_nil hne
  exact ⟨t, us, hr, segment_cons hr h⟩

/-- The text in front of a trimmed end, where no blank is ahead. -/
lemma trimmedText_segment (hr : c.rest <:+ Token.scan source) (hl : stop ≤ c.lineEnd)
    (h : c.read < c.trimmedEnd stop) (hfirst : ¬c.sees .whitespace) :
    TrimmedText (Token.textOf (c.segment (c.trimmedEnd stop))) := by
  obtain ⟨hline, hlast⟩ := kinds_segment_trimmedEnd hl
  obtain ⟨t, us, hrest, hsegment⟩ := exists_of_lt_trimmedEnd h
  have hblank : t.kind ≠ .whitespace := by simpa [sees, hrest] using hfirst
  refine Token.trimmedText_of_line (fun u hu => hr.subset (List.mem_of_mem_take hu)) hline hlast ?_
    fun u hu => ?_
  · rw [hsegment]
    exact List.cons_ne_nil _ _
  · rw [hsegment] at hu
    obtain rfl := Option.some.inj hu
    exact hblank

/-- The text in front of a trimmed end, which may begin with a blank. -/
lemma indentedText_segment (hc : c.Live) (hr : c.rest <:+ Token.scan source)
    (hl : stop ≤ c.lineEnd) (h : c.read < c.trimmedEnd stop) :
    IndentedText (Token.textOf (c.segment (c.trimmedEnd stop))) := by
  obtain ⟨hline, hlast⟩ := kinds_segment_trimmedEnd hl
  obtain ⟨t, us, hrest, hsegment⟩ := exists_of_lt_trimmedEnd h
  refine Token.indentedText_of_line (fun u hu => hr.subset (List.mem_of_mem_take hu))
    (hc.lexed.take _).blanksApart hline hlast ?_
  rw [hsegment]
  exact List.cons_ne_nil _ _

/-! ### Parameters -/

lemma fieldText_of_not (t : Tree)
    (h : t.isNode → [Kind.formParamName, .formParamValue].contains t.kind = false) :
    t.FieldText N := fun hnode =>
  have hnone := Tree.not_mem_of_contains h hnode
  ⟨fun hk => absurd (by rw [hk]; decide) hnone, fun hk => absurd (by rw [hk]; decide) hnone⟩

lemma paramTexts_of_not (t : Tree) (h : t.isNode → [Kind.formParam].contains t.kind = false) :
    t.ParamTexts N :=
  fun hnode hk => absurd (List.mem_singleton.mpr hk) (Tree.not_mem_of_contains h hnode)

lemma not_sees_whitespace_eatBlank (hc : c.Live) : ¬c.eatBlank.sees .whitespace := by
  rw [sees, rest_eatBlank hc]
  have hnot := List.head?_dropWhile_not (fun t : Token => decide (t.kind = .whitespace)) c.rest
  rw [← Lookahead.skipBlanks] at hnot
  intro hs
  obtain ⟨t, us, hrest, hk⟩ := Lookahead.exists_of_startsWith hs
  rw [hrest] at hnot
  simp [hk] at hnot

/-- The value behind an equals sign. -/
lemma adds_formValue {line : Nat} (hc : c.Live) (hr : c.rest <:+ Token.scan source)
    (hs : c.sees .equals) (hl : c.lineEnd = line) :
    Adds (Tree.FieldText N) c (c.formValue line) := by
  simp only [formValue]
  obtain ⟨hequals, hstay, hline⟩ := run_equals (e := true) hc hs
  have hfirst : Adds (Tree.FieldText N) c c.operator.eatBlank :=
    .of_none (by decide) hequals fieldText_of_not
  have hnone := not_sees_whitespace_eatBlank (run_operator (e := true) hc hs).1.live
  have hr' := hfirst.suffix hr
  refine hfirst.trans ?_
  generalize c.operator.eatBlank = d at *
  have ho := outsideVariables_bounds (c := d) paramValueEndKinds (show d.read ≤ line by omega)
  have hle : d.outsideVariables paramValueEndKinds line ≤ d.lineEnd := by omega
  have hb := trimmedEnd_bounds ho.1
  refine adds_part hequals.live (hb.2.trans hle) fun h us htext _ => ⟨fun hk => ?_, fun _ => ?_⟩
  · cases hk
  · rw [htext]
    exact trimmedText_segment hr' hle h hnone

/-- **Parameters**: what is known of the text in front of a trimmed end is known of the name. -/
lemma adds_formParam (hc : c.Live) (hr : c.rest <:+ Token.scan source)
    (hN : ∀ stop ≤ c.lineEnd, c.read < c.trimmedEnd stop →
      N (Token.textOf (c.segment (c.trimmedEnd stop)))) :
    Adds (Tree.ParamTexts N) c c.formParam := by
  have ho := outsideVariables_bounds formNameEndKinds c.read_le_lineEnd
  have hb := trimmedEnd_bounds ho.1
  have hsees := sees_formValue hc ho.1 ho.2
  simp only [formParam]
  generalize c.outsideVariables formNameEndKinds c.lineEnd = stop at *
  have hname : Adds (Tree.FieldText N) c.opened (c.opened.part .formParamName (c.trimmedEnd stop)) :=
    adds_part hc.opened (hb.2.trans ho.2) fun h us htext _ =>
      ⟨fun _ => htext ▸ hN stop ho.2 h, fun hk => by cases hk⟩
  obtain ⟨hpart, _⟩ := run_part (e := true) (K := .formParamName) hc.opened (hb.2.trans ho.2)
  obtain ⟨hblank, _⟩ := run_eatBlank (e := true) hpart.live
  have hfront := hname.trans (.of_none (by decide) hblank fieldText_of_not)
  split_ifs with hnone hvalue
  · exact .refl c
  · obtain ⟨hs, hline⟩ := hsees hvalue
    have hboth := hfront.trans (adds_formValue hblank.live (hfront.suffix hr) hs hline)
    exact hboth.node fun new _ hn _ _ => hn
  · exact hfront.node fun new _ hn _ _ => hn

/-- What follows a parameter in its turn: an ampersand, and the end of the line. -/
lemma adds_formTail (hc : c.Live) (hm : c.Midway) :
    Adds (Tree.ParamTexts N) c.formParam (formTurn c).cursor := by
  obtain ⟨hparam, hle⟩ := run_formParam (e := true) hc
  have hlook := run_look (e := true) hparam.live
  simp only [formTurn]
  split_ifs with hs
  · obtain ⟨hop, hread⟩ := run_operator (e := true) hlook.live hs
    have hmid := (hparam.quiet hlook).midway (by rwa [look_read]) hm
    have hlt := read_lt_lineEnd_of_sees hs (by decide)
    obtain ⟨hbreak, _⟩ := run_formBreak (e := true) hop.live (hop.midway (hread.trans_le hlt) hmid)
    exact .of_none (by decide) ((hlook.trans hop).trans hbreak) paramTexts_of_not
  · exact .of_none (by decide) hlook paramTexts_of_not

/-- The parameters behind the first one. -/
lemma adds_formLoop (hc : c.Live) (hr : c.rest <:+ Token.scan source) (hm : c.Midway) :
    Adds (Tree.ParamTexts IndentedText) c (c.loop formTurn) :=
  Adds.loop (by decide) (fun _ hd hm => run_formTurn hd hm)
    (fun _ hd hm hr => (adds_formParam hd hr fun _ hl h => indentedText_segment hd hr hl h).trans
      (adds_formTail hd hm)) hc hm hr

/-- What follows the first parameter of a form. -/
lemma adds_formParams (hc : c.Live) (hr : c.rest <:+ Token.scan source) (hm : c.Midway) :
    Adds (Tree.ParamTexts IndentedText) c.formParam (c.loop formTurn) := by
  obtain ⟨hparam, _⟩ := run_formParam (e := true) hc
  have htail : Adds (Tree.ParamTexts IndentedText) c.formParam (formTurn c).cursor :=
    adds_formTail hc hm
  have hturn := run_formTurn (e := true) hc hm
  have hrest : c.formParam.rest <:+ Token.scan source := by
    rw [hparam.rest_eq]
    exact (List.drop_suffix _ _).trans hr
  cases ht : formTurn c with
  | done d =>
      rw [ht] at htail
      rw [loop_of_done ht]
      exact htail
  | again d =>
      rw [ht] at htail hturn
      rw [loop_eq (fun _ hd hm => run_formTurn (e := true) hd hm) hc hm ht]
      exact htail.trans (adds_formLoop hturn.1.live (htail.suffix hrest) hturn.2.2)

/-- **Forms.** -/
lemma adds_formBody (hc : c.Live) (hr : c.rest <:+ Token.scan source)
    (hform : Lookahead.isForm c.rest) : Adds Tree.FormTexts c c.formBody := by
  obtain ⟨t, us, hrest, hk, hforbidden⟩ := Lookahead.exists_of_isForm hform
  have hblank : ¬c.opened.sees .whitespace := fun hs => by
    have hw : t.kind = .whitespace := by simpa [sees, opened, hrest] using hs
    rw [hw] at hforbidden
    exact absurd hforbidden (by decide)
  obtain ⟨hfirst, _⟩ := run_valuedParam (e := true) hc.opened rfl
    (read_lt_of_isForm (c := c.opened) hform) (startsWith_equals_of_isForm (c := c.opened) hform)
  have hparam : Adds (Tree.ParamTexts TrimmedText) c.opened c.opened.formParam :=
    adds_formParam hc.opened hr fun _ hl h => trimmedText_segment hr hl h hblank
  have hm : c.opened.Midway := .inl (hrest ▸ List.cons_ne_nil t us)
  have hparams := adds_formParams hc.opened hr hm
  obtain ⟨hloop, _⟩ := Run.loop (by decide) (fun _ hd hm => run_formTurn (e := true) hd hm)
    hc.opened hm
  obtain ⟨hend, _⟩ := run_endLine (e := true) hloop.live "unexpected text in form body"
  -- the first parameter is the head of the row, and no blank stands in front of its name
  obtain ⟨more, hb', hr', hmore⟩ := hparams.trans (.of_none (by decide) hend paramTexts_of_not)
  obtain ⟨_, _, _, hb, _, hn⟩ := hfirst.grew
  obtain ⟨ws, _, rfl⟩ := hn fun _ => rfl
  obtain ⟨_, hb'', _, hp⟩ := hparam
  obtain rfl := List.append_cancel_left (hb.symm.trans hb'')
  have hp := hp _ (List.mem_singleton_self _)
  have hchildren : ((c.opened.loop formTurn).eatBlank.finishLine
      "unexpected text in form body").eatNewline.built.toList = .node .formParam ws :: more := by
    rw [hb', hb]
    rfl
  refine ⟨[.node .formUrlencodedBody (.node .formParam ws :: more)], ?_, ?_, ?_⟩
  · rw [formBody, node, closed, Array.toList_push, hchildren]
  · obtain ⟨ts, _, ht, _⟩ := hfirst.grew
    exact hr'.trans ⟨ts, ht.rest.symm⟩
  · rintro _ ht
    obtain rfl := List.mem_singleton.mp ht
    refine ⟨List.forall_mem_cons.mpr ⟨hp.indented, hmore⟩, fun u hu => ?_⟩
    obtain rfl := Option.some.inj hu
    exact hp

end Cursor

/-! ### Whole documents -/

section Document

variable {source : String} {p : Parsed} {k : Kind} {t : Tree} (hcomplete : p.Complete source)
  (hp : Parsed.ofSource .unlimited source = .ok p)

include hp in
/-- Every form has texts that are trimmed. -/
lemma Parsed.formTexts (ht : t ∈ p.tree.nodesOf .formUrlencodedBody) : t.FormTexts :=
  of_adds hp (by decide) .form rfl
    (fun _ hc hr hform => Cursor.adds_formBody hc hr hform) ht

/-- Names and values stand below form parameters only, and these below forms. -/
lemma Tree.kind_of_field_slot : ∀ k ∈ Kind.nodes, ∀ s ∈ (Shape.ofKind k).slots,
    (.formParamName ∈ s.types ∨ .formParamValue ∈ s.types → k = .formParam) ∧
      (.formParam ∈ s.types → k = .formUrlencodedBody) := by
  decide +kernel

include hcomplete hp in
/-- Every name and every value has a text that is trimmed. -/
lemma Parsed.fieldText (ht : t ∈ p.tree.nodesOf k)
    (hk : k = .formParamName ∨ k = .formParamValue) : t.FieldText IndentedText := by
  have hother : k ≠ .document ∧ k ≠ .error := by rcases hk with rfl | rfl <;> decide
  obtain ⟨u, hu, hunode, hmem, hnodes, s, hs, htype⟩ :=
    hcomplete.exists_parent ht hother.1 hother.2
  have hparam : u.kind = .formParam :=
    (Tree.kind_of_field_slot _ hnodes s hs).1 (by rcases hk with rfl | rfl <;> simp [htype])
  rw [hparam] at hu
  obtain ⟨b, hb, _, hmem', hnodes', s', hs', htype'⟩ :=
    hcomplete.exists_parent hu (by decide) (by decide)
  rw [(Tree.kind_of_field_slot _ hnodes' s' hs').2 htype'] at hb
  exact (formTexts hp hb).every u hmem' hunode hparam t hmem

end Document

/-- **Names and values of form parameters**, whatever the source is: values have no blanks at their
ends, names none at their end, and the first name of a form none at its start either. -/
theorem Parsed.ofSource_trimmed (source : String) :
    ∃ p, Parsed.ofSource .unlimited source = .ok p ∧
      (∀ v ∈ p.tree.nodesOf .formParamValue, TrimmedText v.text) ∧
      (∀ n ∈ p.tree.nodesOf .formParamName, IndentedText n.text) ∧
      ∀ b ∈ p.tree.nodesOf .formUrlencodedBody, ∃ u us n, b.children = u :: us ∧
        u.kind = .formParam ∧ u.childrenOf .formParamName = [n] ∧ TrimmedText n.text := by
  obtain ⟨p, hp, hcomplete, hproper⟩ := Parsed.ofSource_proper source
  refine ⟨p, hp, fun v hv => ?_, fun n hn => ?_, fun b hb => ?_⟩
  · obtain ⟨hnode, hkind⟩ := Tree.isNode_of_mem_nodesOf hv
    exact (Parsed.fieldText hcomplete hp hv (.inr rfl) hnode).2 hkind
  · obtain ⟨hnode, hkind⟩ := Tree.isNode_of_mem_nodesOf hn
    exact (Parsed.fieldText hcomplete hp hn (.inl rfl) hnode).1 hkind
  · obtain ⟨s, _, rfl, _, _, _, u, us, hchildren, hparam⟩ := Parsed.exists_claim hproper hb
    obtain ⟨n, hn, hchild, hnode, hkind⟩ :=
      Form.exists_childrenOf_eq (k := .formParamName) hparam rfl
    have hfirst := (Parsed.formTexts hp hb).first u (by rw [hchildren]; rfl)
    obtain ⟨ws, _, heq⟩ := hparam
    obtain rfl := List.singleton_inj.mp heq
    exact ⟨_, us, n, hchildren, rfl, hn, (hfirst rfl rfl n hchild hnode).1 hkind⟩

/-- A name behind an ampersand and a blank begins with that blank, and so does one at the start of a
line on which a form goes on. -/
theorem Parsed.not_formParamName_trimmed :
    (∃ p n, Parsed.ofSource .unlimited "POST /f\n\na=b& c=d\n" = .ok p ∧ p.reports = [] ∧
      n ∈ p.tree.nodesOf .formParamName ∧ n.text = " c") ∧
    ∃ p n, Parsed.ofSource .unlimited "POST /f\n\na=b&\n  c=d\n" = .ok p ∧ p.reports = [] ∧
      n ∈ p.tree.nodesOf .formParamName ∧ n.text = "  c" := by
  have hname : ∀ {source w : String},
      ((Parsed.ofSource .unlimited source).toOption.any fun p => p.reports.isEmpty &&
        (p.tree.nodesOf .formParamName).any (·.text == w)) →
      ∃ p n, Parsed.ofSource .unlimited source = .ok p ∧ p.reports = [] ∧
        n ∈ p.tree.nodesOf .formParamName ∧ n.text = w := by
    intro source w hany
    obtain ⟨p, hp, hany⟩ := Document.exists_ok_of_any hany
    obtain ⟨hempty, hany⟩ := Bool.and_eq_true_iff.mp hany
    obtain ⟨n, hn, htext⟩ := List.any_eq_true.mp hany
    exact ⟨p, n, hp, List.isEmpty_iff.mp hempty, hn, eq_of_beq htext⟩
  exact ⟨hname (by decide +kernel), hname (by decide +kernel)⟩

end RequestFile
