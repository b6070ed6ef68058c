import RequestFile.Proofs.Limits.Basic
import RequestFile.Proofs.Nodes

/-!
Blanks at the start of a line.

Directly below a request or a response, a blank or a line terminator stands at the start of a line
only where a body section begins.

* **Trees.** `Tree.Calm b ts` says that none of the trees `ts` is a blank or a terminator at the start
  of a line, if `b` says whether a line begins in front of them.
* **Request and response lines, and headers** build calm trees (`calm_requestLine`,
  `calm_responseLine`, `calm_headerLines`): they take a blank or a terminator by itself only after
  something else on its line.
* **Body sections** begin with a blank line (`not_calm_bodySection`).
-/

namespace RequestFile

open scoped Computability

namespace Tree

/-- A blank or a line terminator. -/
def IsBlank (t : Tree) : Prop :=
  t.IsLeafOf .newline ∨ t.IsLeafOf .whitespace

/-- No blank and no terminator among neighbouring trees stands at the start of a line. -/
def Calm : Bool → List Tree → Prop
  | _, [] => True
  | b, t :: ts => (t.IsBlank → b = false) ∧ Calm (lineBegins b t.text) ts

variable {b : Bool} {t : Tree} {ts us : List Tree}

lemma calm_append : Calm b (ts ++ us) ↔ Calm b ts ∧ Calm (lineBegins b (textOf ts)) us := by
  induction ts generalizing b with
  | nil => simp [Calm]
  | cons t ts ih =>
      rw [List.cons_append, Calm, Calm, ih, textOf_cons, lineBegins_append, and_assoc]

/-- Where no tree is a blank or a terminator, none stands at the start of a line. -/
lemma calm_of_forall (h : ∀ t ∈ ts, ¬t.IsBlank) : Calm b ts := by
  induction ts generalizing b with
  | nil => trivial
  | cons t ts ih =>
      exact ⟨fun ht => absurd ht (h t List.mem_cons_self),
        ih fun u hu => h u (List.mem_cons_of_mem t hu)⟩

/-- A single tree within a line. -/
lemma calm_singleton (t : Tree) : Calm false [t] :=
  ⟨fun _ => rfl, trivial⟩

/-- The first tree that is not calm stands somewhere in the row. -/
lemma not_calm_iff : ¬Calm b ts ↔
    ∃ us t vs, ts = us ++ t :: vs ∧ t.IsBlank ∧ lineBegins b (textOf us) = true := by
  induction ts generalizing b with
  | nil => simp [Calm]
  | cons t ts ih =>
      rw [Calm, not_and_or, ih, Classical.not_imp, Bool.not_eq_false]
      constructor
      · rintro (⟨ht, hb⟩ | ⟨us, u, vs, rfl, hu, hb⟩)
        · exact ⟨[], t, ts, rfl, ht, hb⟩
        · exact ⟨t :: us, u, vs, rfl, hu, by rwa [textOf_cons, lineBegins_append]⟩
      · rintro ⟨us, u, vs, heq, hu, hb⟩
        cases us with
        | nil =>
            obtain ⟨rfl, rfl⟩ := List.cons.inj heq
            exact Or.inl ⟨hu, hb⟩
        | cons x us =>
            obtain ⟨rfl, rfl⟩ := List.cons.inj heq
            exact Or.inr ⟨us, u, vs, rfl, hu, by rwa [textOf_cons, lineBegins_append] at hb⟩

end Tree

namespace Form

variable {k K : Kind} {L : TreeLanguage} {e : Bool}

lemma not_isBlank_node (ts : List Tree) : ¬(Tree.node k ts).IsBlank := by
  rintro (⟨h, _⟩ | ⟨h, _⟩) <;> cases h

lemma bars_isBlank_node : Bars Tree.IsBlank (node k L) := by
  rintro _ ⟨ts, _, rfl⟩ t ht
  rw [List.mem_singleton.mp ht]
  exact not_isBlank_node ts

lemma bars_isBlank_rejected : Bars Tree.IsBlank (rejected e) :=
  (bars_lapse e).mul bars_isBlank_node.opt

end Form

namespace Cursor

variable {e : Bool} {k : Nat} {K : Kind} {L : TreeLanguage} {c c' c'' : Cursor}

/-- From `c` to `c'` no blank and no terminator is built at the start of a line. -/
def Calm (c c' : Cursor) : Prop :=
  ∃ new, c'.built.toList = c.built.toList ++ new ∧
    c'.lineStart = lineBegins c.lineStart (Tree.textOf new) ∧ Tree.Calm c.lineStart new

namespace Calm

protected lemma refl (c : Cursor) : Calm c c :=
  ⟨[], (List.append_nil _).symm, rfl, trivial⟩

lemma trans (h : Calm c c') (h' : Calm c' c'') : Calm c c'' := by
  obtain ⟨new, hb, hl, hn⟩ := h
  obtain ⟨new', hb', hl', hn'⟩ := h'
  refine ⟨new ++ new', ?_, ?_, ?_⟩
  · rw [hb', hb, List.append_assoc]
  · rw [hl', hl, Tree.textOf_append, lineBegins_append]
  · rw [hl] at hn'
    exact Tree.calm_append.mpr ⟨hn, hn'⟩

/-- A run over trees that are calm where it begins. -/
lemma of_run (hc : c.Live) (h : Run true k L c c')
    (hL : ∀ w ∈ L, Tree.Calm c.lineStart w) : Calm c c' := by
  obtain ⟨ts, new, ht, hb, hx, hn⟩ := h.grew
  have hlexed := hc.lexed
  rw [ht.rest] at hlexed
  exact ⟨new, hb, by rw [ht.lineStart, hx.textOf_eq, hlexed.left.lineBegins_textOf],
    hL new (hn fun _ => rfl)⟩

/-- A run that builds neither a blank nor a terminator by itself. -/
lemma of_bars (hc : c.Live) (h : Run true k L c c') (hL : Form.Bars Tree.IsBlank L) : Calm c c' :=
  of_run hc h fun w hw => Tree.calm_of_forall (hL w hw)

/-- A blank or a terminator within a line. -/
lemma of_midline (hc : c.Live) (h : Run true k (Form.opt (Form.leaf K)) c c')
    (hm : c.lineStart = false) : Calm c c' := by
  refine of_run hc h fun w hw => ?_
  rcases hw with hw | ⟨t, _, rfl⟩
  · obtain rfl := (Language.mem_one w).mp hw
    trivial
  · rw [hm]
    exact Tree.calm_singleton _

lemma eatBlank (hc : c.Live) (hm : c.lineStart = false) : Calm c c.eatBlank :=
  of_midline hc (run_eatBlank hc).1 hm

lemma eatNewline (hc : c.Live) (hm : c.lineStart = false) : Calm c c.eatNewline :=
  of_midline hc (run_eatNewline hc).1 hm

end Calm

lemma midline_eatBlank (hc : c.Live) (hm : c.lineStart = false) : c.eatBlank.lineStart = false :=
  (run_eatBlank (e := true) hc).1.midline (eatBlank_le_lineEnd hc) (Or.inl hm)

/-! ### Request lines -/

lemma calm_look (c : Cursor) : Calm c c.look :=
  ⟨[], by simp, by simp, trivial⟩

/-- What a request line begins with are nodes, and the blank between them is within the line. -/
lemma calm_target (hc : c.Live) (hurl : c.HasUrl) : Calm c c.method.targetUrl.1 := by
  have hlook := run_look (e := true) hc
  have hurl' : c.look.HasUrl := by rwa [HasUrl, look_rest]
  refine (calm_look c).trans ?_
  have hstep := method_step c
  generalize c.look = d at *
  generalize c.method = m at hstep ⊢
  cases hstep with
  | method hs _ hmore _ =>
      have hlt := read_lt_lineEnd_of_sees hs (by decide)
      obtain ⟨hleaf, hread⟩ := run_leaf (e := true) (K := .method) hlook.live
        (Nat.lt_succ_self d.read) hlt
      have hmid := hleaf.midline (hread.trans_le hlt) (Or.inr (by omega))
      have hblank := run_eatBlank (e := true) hleaf.live
      obtain ⟨hrun, _⟩ := run_targetUrl (e := true) hblank.1.live
        (hasUrl_after_method hlook.live.lexed hs hmore)
      exact ((Calm.of_bars hlook.live hleaf Form.bars_isBlank_node).trans
        (Calm.eatBlank hleaf.live hmid)).trans
          (Calm.of_bars hblank.1.live hrun Form.bars_isBlank_node)
  | warned hs =>
      obtain ⟨hrun, _⟩ := run_targetUrl_warned (e := true) hlook.live hs hurl'
      exact Calm.of_bars hlook.live hrun Form.bars_isBlank_node
  | bare =>
      obtain ⟨hrun, _⟩ := run_targetUrl (e := true) hlook.live hurl'
      exact Calm.of_bars hlook.live hrun Form.bars_isBlank_node

lemma calm_version {v : Option Nat} (hc : c.Live) (ha : AfterUrl c v) :
    Calm c (c.version v) ∧ (c.version v).lineStart = false := by
  rw [version.eq_def]
  cases v with
  | none => exact ⟨.refl c, ha.midline⟩
  | some v =>
      obtain ⟨hblank, _⟩ := run_eatBlank (e := true) hc
      have hmid := midline_eatBlank hc ha.midline
      have hcalm := Calm.eatBlank hc ha.midline
      have hline := hblank.lineEnd_eq (eatBlank_le_lineEnd hc)
      have hle := ha.version v rfl
      dsimp only
      split_ifs with hv
      · obtain ⟨hrun, hread⟩ := run_leaf (e := true) (K := .httpVersion) hblank.live
          (show c.eatBlank.read < v + 3 by omega) (by omega)
        exact ⟨hcalm.trans (Calm.of_bars hblank.live hrun Form.bars_isBlank_node),
          hrun.midline (by omega) (Or.inl hmid)⟩
      · exact ⟨hcalm, hmid⟩

/-- The end of a line of which something has been taken. -/
lemma calm_endLine (hc : c.Live) (hm : c.lineStart = false) (s : String) :
    Calm c ((c.eatBlank.finishLine s).eatNewline) := by
  obtain ⟨hblank, _⟩ := run_eatBlank (e := true) hc
  obtain ⟨hrest, hread⟩ := run_finishLine (e := true) hblank.live s
  have hmid := hrest.midline hread.le (Or.inl (midline_eatBlank hc hm))
  exact ((Calm.eatBlank hc hm).trans
    (Calm.of_bars hblank.live hrest Form.bars_isBlank_rejected.opt)).trans
      (Calm.eatNewline hrest.live hmid)

/-- **Request lines** are calm. -/
lemma calm_requestLine (hc : c.Live) (hurl : c.HasUrl) : Calm c c.requestLine := by
  obtain ⟨htarget, _, hafter⟩ := run_target (e := true) hc hurl
  obtain ⟨hcalm, hmid⟩ := calm_version htarget.live hafter
  exact ((calm_target hc hurl).trans hcalm).trans
    (calm_endLine (run_version (e := true) htarget.live hafter).live hmid _)

/-! ### Response lines -/

lemma calm_statusText (hc : c.Live) (hm : c.lineStart = false) :
    Calm c (if c.read < c.trimmedEnd c.lineEnd then c.leaf .statusText (c.trimmedEnd c.lineEnd)
      else c).eatBlank := by
  have hb := trimmedEnd_bounds c.read_le_lineEnd
  split_ifs with h
  · obtain ⟨hrun, hread⟩ := run_leaf (e := true) (K := .statusText) hc h hb.2
    exact (Calm.of_bars hc hrun Form.bars_isBlank_node).trans
      (Calm.eatBlank hrun.live (hrun.midline (hread.trans_le hb.2) (Or.inl hm)))
  · exact Calm.eatBlank hc hm

lemma calm_status (hc : c.Live) (hm : c.lineStart = false) :
    Calm c c.status ∧ c.status.lineStart = false := by
  obtain ⟨hstatus, hend⟩ := run_status (e := true) hc
  refine ⟨?_, hstatus.midline hend.le (Or.inl hm)⟩
  have hlook := run_look (e := true) hc
  rw [← look_lineStart] at hm
  refine (calm_look c).trans ?_
  simp only [status]
  generalize c.look = d at *
  by_cases hs : d.sees .word && Lookahead.isStatusCode (Lookahead.headText d.rest)
  · rw [if_pos hs]
    simp only [Bool.and_eq_true] at hs
    have hlt := read_lt_lineEnd_of_sees hs.1 (by decide)
    obtain ⟨hcode, hread⟩ := run_leaf (e := true) (K := .statusCode) hlook.live
      (Nat.lt_succ_self d.read) hlt
    have hmid := hcode.midline (hread.trans_le hlt) (Or.inl hm)
    exact ((Calm.of_bars hlook.live hcode Form.bars_isBlank_node).trans
      (Calm.eatBlank hcode.live hmid)).trans
        (calm_statusText (run_eatBlank (e := true) hcode.live).1.live
          (midline_eatBlank hcode.live hmid))
  · rw [if_neg hs]
    obtain ⟨hrun, _⟩ := run_rejectLine (e := true) (p := .expectedStatusCode) hlook.live rfl
      "expected a status code"
    exact Calm.of_bars hlook.live hrun Form.bars_isBlank_rejected

/-- **Response lines** are calm. -/
lemma calm_responseLine (hc : c.Live) (hv : Lookahead.isVersion c.rest) :
    Calm c c.responseLine := by
  have hlen := Lookahead.isVersion_le hv
  obtain ⟨hversion, hread⟩ := run_leaf (e := true) (K := .httpVersion) hc
    (show c.read < c.read + 3 by omega) (Nat.add_le_add_left hlen _)
  have hmid := hversion.midline (hread.trans_le (Nat.add_le_add_left hlen _)) (Or.inr (by omega))
  obtain ⟨hblank, _⟩ := run_eatBlank (e := true) hversion.live
  obtain ⟨hcalm, hmid'⟩ := calm_status hblank.live (midline_eatBlank hversion.live hmid)
  exact (((Calm.of_bars hc hversion Form.bars_isBlank_node).trans
    (Calm.eatBlank hversion.live hmid)).trans hcalm).trans
      (Calm.eatNewline (run_status (e := true) hblank.live).1.live hmid')

/-! ### Headers -/

/-- **A line among the headers** is calm. -/
lemma calm_headerLine (hc : c.Live) (hb : ¬c.atBlankLine) : Calm c c.headerLine := by
  have hlook := run_look (e := true) hc
  have hb' : ¬c.look.atBlankLine := by rwa [atBlankLine, look_rest]
  refine (calm_look c).trans ?_
  simp only [headerLine]
  generalize c.look = d at *
  split_ifs with hcomment hname
  · exact Calm.of_bars hlook.live
      (run_comment (e := true) hlook.live (sees_of_seesIn_commentKinds hcomment)).toRun
      Form.bars_isBlank_node
  · exact Calm.of_bars hlook.live (run_header (e := true) hlook.live hname).toRun
      Form.bars_isBlank_node
  · obtain ⟨t, us, hr, hk⟩ := Lookahead.exists_of_not_isBlankLine hb'
    have hlt := read_lt_lineEnd hr hk
    obtain ⟨hrej, hend⟩ := run_strayContent (e := true) hlook.live
    exact (Calm.of_bars hlook.live hrej Form.bars_isBlank_rejected).trans
      (Calm.eatNewline hrej.live (hrej.midline hend.le (Or.inr (by omega))))

/-- **Header lines** are calm. -/
lemma calm_headerLines (hc : c.Live) (ha : c.Aligned) : Calm c c.headerLines := by
  have hturn : ∀ d : Cursor, d.Live → d.Aligned ∧ Calm c d →
      !d.stopped && !d.atSeparator && !d.atBlankLine →
      Run true 16 (Form.headerLine true) d d.headerLine ∧ d.read < d.headerLine.read ∧
        d.headerLine.Aligned ∧ Calm c d.headerLine := by
    intro d hd hi hmore
    obtain ⟨hrun, hgt, ha'⟩ := run_headerLine_turn (e := true) d hd hi.1 hmore
    simp only [Bool.and_eq_true, Bool.not_eq_true'] at hmore
    exact ⟨hrun, hgt, ha', hi.2.trans (calm_headerLine hd (by rw [hmore.2]; decide))⟩
  obtain ⟨_, ⟨_, hcalm⟩, _⟩ := Run.loopWhile (by decide) hturn hc ⟨ha, .refl c⟩
  exact hcalm

/-! ### Body sections -/

/-- A blank line that is not empty begins with a blank or a terminator. -/
lemma exists_isBlank_eatBlankLine (hc : c.Live) (hb : c.atBlankLine) (hne : c.rest ≠ []) :
    ∃ t new, c.eatBlankLine.built.toList = c.built.toList ++ t :: new ∧ t.IsBlank := by
  rw [eatBlankLine]
  by_cases hs : c.sees .whitespace
  · obtain ⟨hblank, _⟩ : Run true 1 (Form.leaf .whitespace) c c.eatBlank ∧
        c.eatBlank.read = c.read + 1 := run_eat_of_sees hc hs
    obtain ⟨_, _, _, hb, _, hn⟩ := hblank.grew
    obtain ⟨_, new', _, hb', _⟩ := (run_eatNewline (e := true) hblank.live).1.grew
    obtain ⟨t, hk, rfl⟩ := hn fun _ => rfl
    exact ⟨_, new', by rw [hb', hb, List.append_assoc]; rfl, Or.inr ⟨rfl, rfl⟩⟩
  · have heq : c.eatBlank = c.look := by
      rw [eatBlank, eat, if_neg (by simpa [atEnd] using hne), on_neg hs]
      rfl
    have hnl := eatBlank_of_blankLine hc hb
    rw [heq, look_rest] at hnl
    rw [heq]
    obtain ⟨hrun, _⟩ : Run true 1 (Form.leaf .newline) c.look c.look.eatNewline ∧
        c.look.eatNewline.read = c.look.read + 1 :=
      run_eat_of_sees (run_look (e := true) hc).live (hnl.resolve_left hne)
    obtain ⟨_, _, _, hb, _, hn⟩ := hrun.grew
    obtain ⟨t, hk, rfl⟩ := hn fun _ => rfl
    exact ⟨_, [], by rw [hb, look_built], Or.inl ⟨rfl, rfl⟩⟩

/-- Whether a body section follows. -/
def atBody (c : Cursor) : Bool :=
  !c.stopped && !c.atSeparator && c.atBlankLine

/-- **Body sections** are not calm. -/
lemma exists_isBlank_bodySection (hc : c.Live) (ha : c.Aligned) (hb : c.atBody) :
    ∃ t new, c.bodySection.built.toList = c.built.toList ++ t :: new ∧ t.IsBlank := by
  simp only [atBody, Bool.and_eq_true] at hb
  have hne : c.rest ≠ [] := by
    have hstop := hb.1.1
    rw [hc.stopped_eq] at hstop
    simpa [atEnd] using hstop
  have hfirst : c.lowered.bodyItem (BodyLine.ofTokens c.lowered.rest) = c.lowered.eatBlankLine := by
    have hline : BodyLine.ofTokens c.lowered.rest = .blank := by
      rw [BodyLine.ofTokens]
      exact if_pos hb.2
    rw [hline]
    rfl
  have hmore : (!c.lowered.stopped && !c.lowered.atSeparator) = true := by
    rw [Bool.and_eq_true]
    exact hb.1
  -- a body section begins at an empty line, so its first item is that line
  obtain ⟨hblank, _, ha'⟩ := run_bodyItem_turn (e := true) _ hc.lowered ha hmore
  rw [bodySection, hc.nested_eq,
    loopWhile_eq (e := true) run_bodyItem_turn hc.lowered ha hmore]
  obtain ⟨hrun, _⟩ := Run.loopWhile (e := true) (by decide) run_bodyItem_turn hblank.live ha'
  obtain ⟨_, new', _, hnew', _⟩ := hrun.grew
  obtain ⟨t, new, hnew, ht⟩ := exists_isBlank_eatBlankLine hc.lowered hb.2 hne
  rw [hfirst] at hnew' ⊢
  exact ⟨t, new ++ new', hnew'.trans (by rw [hnew, List.append_assoc]; rfl), ht⟩

/-- What a request or a response holds is calm unless it has a body section. -/
lemma calm_message (hcalm : Calm c c') (hc : c'.Live) (ha : c'.Aligned) :
    ∃ new, c'.message.built.toList = c.built.toList ++ new ∧
      (Tree.Calm c.lineStart new ↔ c'.headerLines.atBody = false) := by
  obtain ⟨hhead, ha', _⟩ := run_headerLines (e := true) hc ha
  obtain ⟨new, hb, hl, hnew⟩ := hcalm.trans (calm_headerLines hc ha)
  rw [message]
  change ∃ new, (if c'.headerLines.atBody then c'.headerLines.bodySection
    else c'.headerLines).built.toList = c.built.toList ++ new ∧ _
  by_cases hbody : c'.headerLines.atBody
  · obtain ⟨t, more, hmore, ht⟩ := exists_isBlank_bodySection hhead.live ha' hbody
    have hstart : lineBegins c.lineStart (Tree.textOf new) = true := by
      refine hl.symm.trans (ha'.resolve_left fun hnil => ?_)
      simp [atBody, stopped, atEnd, hnil] at hbody
    refine ⟨new ++ t :: more, ?_, ?_⟩
    · rw [if_pos hbody, hmore, hb, List.append_assoc]
    · rw [hbody, Tree.calm_append, Tree.Calm, hstart]
      simp [ht]
  · refine ⟨new, ?_, ?_⟩
    · rw [if_neg hbody, hb]
    · simpa [hbody] using hnew

end Cursor

end RequestFile
