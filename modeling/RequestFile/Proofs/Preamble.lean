import RequestFile.Parse.Preamble
import RequestFile.Proofs.Script

/-!
Runs of the lines in front of a request.

Each production here runs from the first token of its line to the next line.

* **Classes.** `PreambleLine.Begins` says what is known about the tokens of a line of each class, and
  `PreambleLine.begins_ofTokens` that the classification keeps to it.
* **Lines.** `run_separator`, `run_comment`, `run_metadata`, `run_variableDeclaration` and
  `run_command`.
* **Arguments.** What stands between the parentheses of a command stays on the line
  (`run_arguments`), and the search for the opening one finds it (`startsWith_argumentsOffset?`).
-/

namespace RequestFile

open scoped Computability

/-! ### Classes of lines -/

namespace PreambleLine

/-- What is known about the tokens of a line, by what the line begins. -/
def Begins (ts : List Token) : PreambleLine → Prop
  | .blank => ts = [] ∨ Lookahead.startsWith .newline ts
  | .comment => Lookahead.startsWith .hash ts ∨ Lookahead.startsWith .doubleSlash ts
  | .metadata => (Lookahead.startsWith .hash ts ∨ Lookahead.startsWith .doubleSlash ts) ∧
      Lookahead.isMetadata (ts.drop 1)
  | .variableDeclaration => Lookahead.startsWith .at ts
  | .command => Lookahead.startsWith .word ts
  | .preRequestScript => Lookahead.startsWith .angleOpen ts
  | .response => Lookahead.isVersion ts
  | .request => ∃ t us, ts = t :: us ∧ t.kind ≠ .newline

lemma begins_ofTokens (ts : List Token) : Begins ts (ofTokens ts) := by
  cases ts with
  | nil => exact Or.inl rfl
  | cons t us =>
      rw [ofTokens]
      split
      · next h => exact Or.inr (by simp [h])
      · next h =>
          split_ifs with hm
          · exact ⟨Or.inl (by simp [h]), hm⟩
          · exact Or.inl (by simp [h])
      · next h =>
          split_ifs with hm
          · exact ⟨Or.inr (by simp [h]), hm⟩
          · exact Or.inr (by simp [h])
      · next h => simp [Begins, h]
      · next h =>
          split_ifs with hs
          · simp [Begins, h]
          · exact ⟨t, us, rfl, by simp [h]⟩
      · next h =>
          split_ifs with hc hv
          · simp [Begins, h]
          · exact hv
          · exact ⟨t, us, rfl, by simp [h]⟩
      · next h _ _ _ _ _ => exact ⟨t, us, rfl, h⟩

end PreambleLine

namespace Lookahead

/-- The arguments of a command begin with a parenthesis. -/
lemma startsWith_argumentsOffset? {ts : List Token} {n : Nat} (h : argumentsOffset? ts = some n) :
    startsWith .parenOpen (ts.drop n) := by
  induction ts generalizing n with
  | nil => simp [argumentsOffset?] at h
  | cons t ts ih =>
      rw [argumentsOffset?] at h
      split_ifs at h with hp
      · obtain rfl := Option.some.inj h
        simp only [Bool.and_eq_true, decide_eq_true_eq] at hp
        simp [hp.1]
      · obtain ⟨m, hm, rfl⟩ := Option.map_eq_some_iff.mp h
        rw [List.drop_succ_cons]
        exact ih hm

/-- The first token after the blanks is not a blank. -/
lemma skipBlanks_of_lexed {ts : List Token} (h : Token.Lexed ts) :
    skipBlanks ts = if startsWith .whitespace ts then ts.drop 1 else ts := by
  match ts with
  | [] => rfl
  | [t] => by_cases ht : t.kind = .whitespace <;> simp [skipBlanks, ht]
  | t :: u :: us =>
      have hapart := (List.isChain_cons_cons.mp h.blanksApart).1
      by_cases ht : t.kind = .whitespace
      · have hu : u.kind ≠ .whitespace := fun hu => hapart ⟨ht, hu⟩
        simp [skipBlanks, ht, hu]
      · simp [skipBlanks, ht]

end Lookahead

namespace Cursor

variable {e : Bool} {stop : Nat} {c : Cursor}

lemma rest_eat (c : Cursor) (k : Kind) :
    (c.eat k).rest = if c.sees k then c.rest.drop 1 else c.rest := by
  cases hr : c.rest with
  | nil => simp [eat, atEnd, sees, hr]
  | cons t us =>
      have hmore : ¬c.atEnd := by simp [atEnd, hr]
      rw [eat, if_neg hmore]
      split_ifs with hs
      · rw [on_pos hs, bump, look_rest, hr]
        simp [take, hr]
      · rw [on_neg hs, id, look_rest, hr]

/-- Blanks in front of scanned tokens are one token. -/
lemma rest_eatBlank_of_lexed (hlex : Token.Lexed c.rest) :
    c.eatBlank.rest = Lookahead.skipBlanks c.rest := by
  rw [eatBlank, rest_eat, Lookahead.skipBlanks_of_lexed hlex, sees]

/-- Taking the blank in front of a line leads to what the line was classified by. -/
lemma rest_eatBlank (hc : c.Live) : c.eatBlank.rest = Lookahead.skipBlanks c.rest :=
  rest_eatBlank_of_lexed hc.lexed

/-! ### Separators, comments and metadata -/

/-- **Separators** end with their line. -/
lemma run_separator (hc : c.Live) (hs : c.sees .separatorMarker) :
    LineRun e 14 (Form.separator e) c c.separator := by
  have hlook := run_look (e := e) hc
  have hs' := (look_sees c _).trans hs
  simp only [separator, demand_eq hs, node]
  obtain ⟨hopen, hread⟩ := run_bump (e := e) hlook.live.opened hs'
  obtain ⟨hblank, _⟩ := run_eatBlank (e := e) hopen.live
  obtain ⟨hval, hend⟩ := run_trimmedValue (e := e) hblank.live
  obtain ⟨hnl, _⟩ := run_eatNewline (e := e) hval.live
  have hline := hend.trans (hval.lineEnd_eq hend.le).symm
  have hle := ((hblank.trans hval).trans hnl).read_le
  have hbody : LineRun e 13 _ c.look.opened _ :=
    ⟨(((hopen.trans hblank).trans hval).trans hnl).weaken (by omega) le_rfl, by omega,
      aligned_eatNewline hline⟩
  exact hbody.node.after hlook

lemma run_commentMarker (hc : c.Live) (hs : c.sees .hash ∨ c.sees .doubleSlash) :
    Run e 0 Form.commentMarker c c.bump ∧ c.bump.read = c.read + 1 := by
  rcases hs with hs | hs
  · obtain ⟨hrun, hread⟩ := run_bump (e := e) hc hs
    exact ⟨hrun.inl, hread⟩
  · obtain ⟨hrun, hread⟩ := run_bump (e := e) hc hs
    exact ⟨hrun.inr, hread⟩

lemma run_comment (hc : c.Live) (hs : c.sees .hash ∨ c.sees .doubleSlash) :
    LineRun e 1 Form.comment c c.comment := by
  simp only [comment, node]
  obtain ⟨hopen, hread⟩ := run_commentMarker (e := e) hc.opened hs
  obtain ⟨htext, hend⟩ := run_optText (e := e) hopen.live (read_le_lineEnd _) le_rfl
  obtain ⟨hnl, _⟩ := run_eatNewline (e := e) htext.live
  have hline := hend.trans (htext.lineEnd_eq hend.le).symm
  have hle := (htext.trans hnl).read_le
  exact LineRun.node ⟨(hopen.trans htext).trans hnl, by omega, aligned_eatNewline hline⟩

/-- An equals sign and a blank after it, if the sign is there. -/
lemma run_optEquals (hc : c.Live) :
    Run e 2 (Form.opt (Form.leaf .equals * Form.blank)) c
        (if c.atEnd then c else c.on .equals (fun c => c.bump.eatBlank) id) ∧
      (if c.atEnd then c else c.on .equals (fun c => c.bump.eatBlank) id).read ≤ c.lineEnd := by
  split_ifs
  · exact ⟨((Run.refl hc).weaken (Nat.zero_le _) le_rfl).absent, c.read_le_lineEnd⟩
  have hlook := run_look (e := e) hc
  have hline := look_lineEnd c
  by_cases hs : c.sees .equals
  · have hs' := (look_sees c _).trans hs
    rw [on_pos hs]
    obtain ⟨hrun, _⟩ := run_bump (e := e) hlook.live hs'
    obtain ⟨hblank, _⟩ := run_eatBlank (e := e) hrun.live
    have hle := hrun.stays (bump_le_lineEnd hs' (by decide)) (eatBlank_le_lineEnd hrun.live)
    exact ⟨((hrun.trans hblank).after hlook).present, hle.trans hline.le⟩
  · rw [on_neg hs]
    exact ⟨(hlook.weaken (by omega) le_rfl).absent, (read_le_lineEnd _).trans hline.le⟩

/-- The value of a metadata line reaches the last token of the line that is not a blank. -/
lemma run_metadataValue (hc : c.Live) :
    Run e 13 (Form.metadataValue e) c c.metadataValue ∧
      c.trimmedEnd c.lineEnd ≤ c.metadataValue.read ∧ c.metadataValue.read ≤ c.lineEnd := by
  have hb := trimmedEnd_bounds c.read_le_lineEnd
  simp only [metadataValue]
  generalize c.trimmedEnd c.lineEnd = stop at *
  by_cases hlt : c.read < stop
  · rw [if_pos hlt]
    obtain ⟨hblank, _⟩ := run_eatBlank (e := e) hc
    have hle := eatBlank_le_lineEnd hc
    obtain ⟨heq, hle'⟩ := run_optEquals (e := e) hblank.live
    have hline := hblank.lineEnd_eq hle
    have hline' := heq.lineEnd_eq hle'
    obtain ⟨hval, hread⟩ := run_optValue (e := e) heq.live (show stop ≤ _ by omega)
    exact ⟨((hblank.trans heq).trans hval).present, by omega, by omega⟩
  · rw [if_neg hlt]
    exact ⟨((Run.refl hc).weaken (Nat.zero_le _) le_rfl).absent, by omega, c.read_le_lineEnd⟩

/-- **Metadata** has its name, whatever else is wrong with it. -/
lemma run_metadata (hc : c.Live) (hs : c.sees .hash ∨ c.sees .doubleSlash)
    (hm : Lookahead.isMetadata (c.rest.drop 1)) :
    LineRun e 17 (Form.metadata e) c c.metadata := by
  simp only [metadata, node]
  obtain ⟨hopen, hread⟩ := run_commentMarker (e := e) hc.opened hs
  have hopen' : c.opened.bump.read = c.read + 1 := hread
  have hrest : c.opened.bump.rest = c.rest.drop 1 := by
    rw [hopen.rest_eq, hread, Nat.add_sub_cancel_left]
    rfl
  obtain ⟨hblank, _⟩ := run_eatBlank (e := e) hopen.live
  have hrest' := rest_eatBlank hopen.live
  rw [hrest] at hrest'
  simp only [Lookahead.isMetadata, Bool.and_eq_true, ← hrest'] at hm
  have hlook := run_look (e := e) hblank.live
  rw [demand_eq hm.1]
  have hat : c.opened.bump.eatBlank.look.sees .at := (look_sees _ _).trans hm.1
  obtain ⟨hsign, hread'⟩ := run_bump (e := e) hlook.live hat
  have hname : (Lookahead.identifierLength? c.opened.bump.eatBlank.look.bump.rest).isSome := by
    rw [hsign.rest_eq, hread', Nat.add_sub_cancel_left, look_rest]
    exact hm.2
  obtain ⟨hid, hidle⟩ := run_name (e := e) hsign.live hname
  obtain ⟨hval, hvalge, hvalle⟩ := run_metadataValue (e := e) hid.live
  obtain ⟨htail, _⟩ := run_eatBlank (e := e) hval.live
  -- the value ends where only blanks are left, so the line ends behind them
  have hend := hval.read_eatBlank hvalge hvalle (lineEnd_le_finish _) (not_blank_at_lineEnd _)
  obtain ⟨hnl, _⟩ := run_eatNewline (e := e) htail.live
  have hline := (hval.trans htail).lineEnd_eq hend.le
  have hle := ((((((hblank.quiet hlook).trans hsign).trans hid).trans hval).trans htail).trans
    hnl).read_le
  refine LineRun.node ⟨?_, by omega, aligned_eatNewline (hend.trans hline.symm)⟩
  exact ((((((hopen.trans (hblank.quiet hlook)).trans hsign).trans hid).trans hval).trans
    htail).trans hnl).weaken (by omega) le_rfl

/-! ### Declarations -/

lemma run_assignedValue (hc : c.Live) (hl : stop ≤ c.lineEnd) :
    Run e 10 (Form.value e + Form.lapse e) c (c.assignedValue stop) ∧
      (c.assignedValue stop).read = max c.read stop := by
  rw [assignedValue]
  split_ifs with h
  · exact ⟨((run_reportHere hc rfl _).weaken (Nat.zero_le _) le_rfl).inr, by
      rw [reportHere_read]; omega⟩
  · obtain ⟨hrun, hread⟩ := run_value (e := e) hc (Nat.lt_of_not_le h) hl
    exact ⟨hrun.inl, by omega⟩

/-- A declaration without its equals sign. -/
lemma run_missingEquals (hc : c.Live) (hl : stop ≤ c.lineEnd) (s : String) :
    Run e 0 (Form.rejected e) c ((c.reportHere .expectedEquals s).errorUntil stop) ∧
      ((c.reportHere .expectedEquals s).errorUntil stop).read = max c.read stop :=
  run_rejected hl (run_reportHere hc rfl _) (reportHere_read ..)

/-- The part of a declaration from its equals sign on, as `assignment` has it. -/
def assigned (stop : Nat) (c : Cursor) : Cursor :=
  let missing : Cursor → Cursor := fun c =>
    (c.reportHere .expectedEquals "expected `=` after the variable name").errorUntil stop
  if c.atEnd then missing c
  else c.on .equals (fun c => c.bump.eatBlank.assignedValue stop) missing

lemma run_assigned (hc : c.Live) (hl : stop ≤ c.lineEnd) :
    Run e 12 (Form.assigned e) c (c.assigned stop) ∧ stop ≤ (c.assigned stop).read ∧
      (c.assigned stop).read ≤ c.lineEnd := by
  have hle := c.read_le_lineEnd
  have hlook := run_look (e := e) hc
  have hline := look_lineEnd c
  have hread := look_read c
  simp only [assigned]
  split_ifs with hend
  · obtain ⟨hrun, hr⟩ := run_missingEquals (e := e) hc hl _
    exact ⟨(hrun.weaken (Nat.zero_le _) le_rfl).inr, by omega, by omega⟩
  by_cases hs : c.sees .equals
  · have hs' := (look_sees c _).trans hs
    rw [on_pos hs]
    obtain ⟨hsign, _⟩ := run_bump (e := e) hlook.live hs'
    obtain ⟨hblank, _⟩ := run_eatBlank (e := e) hsign.live
    have hbump := bump_le_lineEnd hs' (by decide)
    have heat := eatBlank_le_lineEnd hsign.live
    have hline' := (hsign.trans hblank).lineEnd_eq (hsign.stays hbump heat)
    obtain ⟨hval, hr⟩ := run_assignedValue (e := e) hblank.live (show stop ≤ _ by omega)
    have hle' := hsign.stays hbump heat
    exact ⟨(((hsign.trans hblank).trans hval).after hlook).inl, by omega, by omega⟩
  · rw [on_neg hs]
    obtain ⟨hrun, hr⟩ := run_missingEquals (e := e) hlook.live (show stop ≤ _ by omega) _
    exact ⟨((hrun.after hlook).weaken (by omega) le_rfl).inr, by omega, by omega⟩

/-- **Declarations** reach their bound and stay on the line, even when the name goes beyond it. -/
lemma run_assignment (hc : c.Live) (hs : c.sees .at) (hl : stop ≤ c.lineEnd) :
    Run e 14 (Form.assignment e) c (c.assignment stop) ∧ c.read < (c.assignment stop).read ∧
      stop ≤ (c.assignment stop).read ∧ (c.assignment stop).read ≤ c.lineEnd := by
  have hlook := run_look (e := e) hc
  have hs' := (look_sees c _).trans hs
  have hline := look_lineEnd c
  have hread := look_read c
  have heq : c.assignment stop = (c.look.bump.identifier.eatBlank).assigned stop := by
    rw [assignment, demand_eq hs]
    rfl
  rw [heq]
  obtain ⟨hsign, hr⟩ := run_bump (e := e) hlook.live hs'
  obtain ⟨hid, hidle⟩ := run_identifier (e := e) hsign.live
  obtain ⟨hblank, _⟩ := run_eatBlank (e := e) hid.live
  have hstay := hsign.stays (bump_le_lineEnd hs' (by decide))
    (hid.stays hidle (eatBlank_le_lineEnd hid.live))
  have hhead := (hsign.trans hid).trans hblank
  have hline' := hhead.lineEnd_eq hstay
  obtain ⟨hval, hge, hle⟩ := run_assigned (e := e) hblank.live (show stop ≤ _ by omega)
  have hmono := ((hid.trans hblank).trans hval).read_le
  exact ⟨((hhead.trans hval).after hlook).weaken (by omega) le_rfl, by omega, hge, by omega⟩

/-- **Variable declarations** end with their line. -/
lemma run_variableDeclaration (hc : c.Live) (hs : c.sees .at) :
    LineRun e 16 (Form.variableDeclaration e) c c.variableDeclaration := by
  have hb := trimmedEnd_bounds c.read_le_lineEnd
  simp only [variableDeclaration, node]
  obtain ⟨hrun, hgt, hge, hle⟩ := run_assignment (e := e) hc.opened hs hb.2
  obtain ⟨htail, _⟩ := run_eatBlank (e := e) hrun.live
  have hend := hrun.read_eatBlank hge hle (lineEnd_le_finish _) (not_blank_at_lineEnd _)
  obtain ⟨hnl, _⟩ := run_eatNewline (e := e) htail.live
  have hline := (hrun.trans htail).lineEnd_eq hend.le
  have hmono := (htail.trans hnl).read_le
  exact LineRun.node ⟨(hrun.trans htail).trans hnl, hgt.trans_le hmono,
    aligned_eatNewline (hend.trans hline.symm)⟩

/-! ### Commands -/

lemma run_argument (hc : c.Live) (hs : c.sees .at) :
    Run e 14 (Form.argument e) c c.argument ∧ c.read < c.argument.read ∧
      c.argument.read ≤ c.lineEnd := by
  have ho := outsideVariables_bounds argumentEndKinds c.read_le_lineEnd
  have hb := trimmedEnd_bounds ho.1
  simp only [argument, node]
  obtain ⟨hrun, hgt, _, hle⟩ := run_assignment (e := e) hc.opened hs (hb.2.trans ho.2)
  exact ⟨hrun.node, hgt, hle⟩

/-- An argument is followed by another one only after a comma, and all on one line. -/
lemma run_argumentTurn {line : Nat} (hc : c.Live) (hline : c.lineEnd = line) :
    Turning e 18 (Form.argument e * Form.blank * Form.leaf .comma * Form.blank)
      (Form.opt (Form.argument e * Form.blank)) (fun c => c.lineEnd = line)
      (fun c => c.lineEnd = line) c (argumentTurn c) := by
  have hlook := run_look (e := e) hc
  have hlook' := look_lineEnd c
  have hread := look_read c
  simp only [argumentTurn]
  generalize c.look = d at *
  by_cases hs : d.sees .at
  swap
  · rw [if_pos (by simpa using hs)]
    exact ⟨(hlook.weaken (by omega) le_rfl).absent, hlook'.trans hline⟩
  rw [if_neg (by simpa using hs)]
  obtain ⟨harg, hgt, hle⟩ := run_argument (e := e) hlook.live hs
  obtain ⟨hblank, _⟩ := run_eatBlank (e := e) harg.live
  have hrun := harg.trans hblank
  have hstay := harg.stays hle (eatBlank_le_lineEnd harg.live)
  have hend := hrun.lineEnd_eq hstay
  have hge := hblank.read_le
  generalize d.argument.eatBlank = f at *
  by_cases hf : f.atEnd
  · rw [if_pos hf]
    exact ⟨((hrun.after hlook).weaken (by omega) le_rfl).present, by omega⟩
  rw [if_neg hf]
  have hask := run_look (e := e) hrun.live
  have hask' := look_lineEnd f
  have hread' := look_read f
  generalize f.look = g at *
  -- the blanks behind a comma belong to the turn, those before the closer to the last argument
  by_cases hcomma : g.sees .comma
  · rw [if_pos hcomma]
    obtain ⟨hsign, _⟩ := run_bump (e := e) hask.live hcomma
    obtain ⟨htail, _⟩ := run_eatBlank (e := e) hsign.live
    have hstay' := hsign.stays (bump_le_lineEnd hcomma (by decide))
      (eatBlank_le_lineEnd hsign.live)
    have hend' := (hsign.trans htail).lineEnd_eq hstay'
    have hmono := (hsign.trans htail).read_le
    exact ⟨((((hrun.quiet hask).trans hsign).trans htail).after hlook).weaken (by omega) le_rfl,
      by omega, by omega⟩
  · rw [if_neg hcomma]
    exact ⟨(((hrun.quiet hask).after hlook).weaken (by omega) le_rfl).present, by omega⟩

lemma run_argumentsCloser (hc : c.Live) (opener : Span) :
    Run e 1 (Form.leaf .parenClose + Form.lapse e) c (c.argumentsCloser opener) ∧
      (c.argumentsCloser opener).read ≤ c.lineEnd := by
  have hlook := run_look (e := e) hc
  have hmissing : ∀ d : Cursor, d.Live → Run e 0 (Form.lapse e) d
      (d.file (((Diagnostic.new .expectedCloseParen d.span).saying "expected `)`").relatedTo
        "declarations start here" opener)) := by
    intro d hd
    obtain ⟨hrun, hfail⟩ := run_fileAt (e := e)
      (d := ((Diagnostic.new .expectedCloseParen d.span).saying "expected `)`").relatedTo
        "declarations start here" opener) hd (isError_saying rfl d.span "expected `)`")
    exact hrun.lapse hfail
  simp only [argumentsCloser]
  split_ifs with hend
  · exact ⟨((hmissing c hc).weaken (Nat.zero_le _) le_rfl).inr, by
      rw [file, fileAt_read]; exact c.read_le_lineEnd⟩
  by_cases hs : c.sees .parenClose
  · have hs' := (look_sees c _).trans hs
    rw [on_pos hs]
    obtain ⟨hrun, _⟩ := run_bump (e := e) hlook.live hs'
    have hle := bump_le_lineEnd hs' (by decide)
    exact ⟨(hrun.after hlook).inl, by rwa [look_lineEnd] at hle⟩
  · rw [on_neg hs]
    exact ⟨((hmissing _ hlook.live).after hlook).inr, by
      rw [file, fileAt_read, look_read]; exact c.read_le_lineEnd⟩

/-- **Arguments** stay on their line. -/
lemma run_arguments (hc : c.Live) (hs : c.sees .parenOpen) :
    Run e 39 (Form.arguments e) c c.arguments ∧ c.arguments.read ≤ c.lineEnd := by
  have hlook := run_look (e := e) hc
  have hs' := (look_sees c _).trans hs
  have hline := look_lineEnd c
  simp only [arguments, demand_eq hs]
  generalize c.look = d at *
  obtain ⟨hopen, _⟩ := run_bump (e := e) hlook.live hs'
  obtain ⟨hblank, _⟩ := run_eatBlank (e := e) hopen.live
  have hend := (hopen.trans hblank).lineEnd_eq
    (hopen.stays (bump_le_lineEnd hs' (by decide)) (eatBlank_le_lineEnd hopen.live))
  obtain ⟨hloop, hloop'⟩ := Run.loop (by decide)
    (fun f hf hl => run_argumentTurn (e := e) hf hl) hblank.live hend
  obtain ⟨hclose, hclose'⟩ := run_argumentsCloser (e := e) hloop.live d.span
  refine ⟨?_, hclose'.trans (hloop'.trans hline).le⟩
  exact ((((hopen.trans hblank).trans hloop).trans hclose).after hlook).weaken (by omega) le_rfl

lemma run_commandValue (hc : c.Live) (hl : stop ≤ c.lineEnd) :
    Run e 10 (Form.value e + Form.lapse e) c (c.commandValue stop) ∧
      (c.commandValue stop).read = max c.read stop := by
  rw [commandValue]
  split_ifs with h
  · obtain ⟨hrun, hread⟩ := run_value (e := e) hc h hl
    exact ⟨hrun.inl, by omega⟩
  · exact ⟨((run_reportHere hc rfl _).weaken (Nat.zero_le _) le_rfl).inr, by
      rw [reportHere_read]; omega⟩

/-- What stands between the name of a command and the end of its line, as `command` has it. -/
def commandContent (c : Cursor) : Cursor :=
  let lineEnd := c.lineEnd
  let opener := (Lookahead.argumentsOffset? (c.segment lineEnd)).map (c.read + ·)
  let c := c.commandValue (c.trimmedEnd (opener.getD lineEnd))
  if opener.isSome then c.eatBlank.arguments else c

lemma commandContent_alone (h : Lookahead.argumentsOffset? (c.segment c.lineEnd) = none) :
    c.commandContent = c.commandValue (c.trimmedEnd c.lineEnd) := by
  simp [commandContent, h]

lemma commandContent_arguments {n : Nat}
    (h : Lookahead.argumentsOffset? (c.segment c.lineEnd) = some n) :
    c.commandContent = (c.commandValue (c.trimmedEnd (c.read + n))).eatBlank.arguments := by
  simp [commandContent, h]

/-- The value of a command ends in front of the parenthesis, so the arguments are entered where they
begin. -/
lemma sees_arguments {n : Nat} (hc : c.Live)
    (hn : Lookahead.argumentsOffset? (c.segment c.lineEnd) = some n) :
    c.read + n ≤ c.lineEnd ∧
      (c.commandValue (c.trimmedEnd (c.read + n))).eatBlank.sees .parenOpen := by
  have hf := c.lineEnd_le_finish
  obtain ⟨hlt, hparen⟩ :=
    Lookahead.startsWith_drop_take (Lookahead.startsWith_argumentsOffset? hn)
  have hb := trimmedEnd_bounds (show c.read ≤ c.read + n by omega)
  obtain ⟨hval, hread⟩ := run_commandValue (e := true) hc (hb.2.trans (by omega))
  obtain ⟨hblank, _⟩ := run_eatBlank (e := true) hval.live
  have hcut : c.read + n - c.read = n := by omega
  have hnot : ¬Lookahead.startsWith .whitespace (c.rest.drop (c.read + n - c.read)) := by
    obtain ⟨t, us, hr, hk⟩ := Lookahead.exists_of_startsWith hparen
    simp [hcut, hr, hk]
  have hat := hval.read_eatBlank (by omega) (by omega) (by omega) hnot
  refine ⟨by omega, ?_⟩
  rw [sees, (hval.trans hblank).rest_eq, hat, hcut]
  exact hparen

lemma run_commandContent (hc : c.Live) :
    Run e 50 ((Form.value e + Form.lapse e) * Form.opt (Form.blank * Form.arguments e)) c
        c.commandContent ∧ c.commandContent.read ≤ c.lineEnd := by
  have hle := c.read_le_lineEnd
  cases hn : Lookahead.argumentsOffset? (c.segment c.lineEnd) with
  | none =>
      have hb := trimmedEnd_bounds hle
      obtain ⟨hval, hread⟩ := run_commandValue (e := e) hc hb.2
      rw [commandContent_alone hn]
      exact ⟨(hval.trans (Run.refl hval.live).absent).weaken (by omega) le_rfl, by omega⟩
  | some n =>
      obtain ⟨hlt, hsees⟩ := sees_arguments hc hn
      have hb := trimmedEnd_bounds (show c.read ≤ c.read + n by omega)
      obtain ⟨hval, hread⟩ := run_commandValue (e := e) hc (hb.2.trans hlt)
      obtain ⟨hblank, _⟩ := run_eatBlank (e := e) hval.live
      obtain ⟨hargs, hargs'⟩ := run_arguments (e := e) hblank.live hsees
      rw [commandContent_arguments hn]
      exact ⟨hval.trans (hblank.trans hargs).present,
        hval.stays (by omega) (hblank.stays (eatBlank_le_lineEnd hval.live) hargs')⟩

/-- **Commands** end with their line. -/
lemma run_command (hc : c.Live) (hs : c.sees .word) :
    LineRun e 54 (Form.command e) c c.command := by
  have hlt := read_lt_lineEnd_of_sees hs (by decide)
  have heq : c.command = c.node .command fun c =>
      ((c.leaf .commandName (c.read + 1)).eatBlank.commandContent.eatBlank.finishLine
        "unexpected text after the command").eatNewline := rfl
  rw [heq]
  simp only [node]
  obtain ⟨hname, hread⟩ := run_leaf (e := e) (K := .commandName) hc.opened
    (Nat.lt_succ_self c.read) hlt
  obtain ⟨hblank, _⟩ := run_eatBlank (e := e) hname.live
  obtain ⟨hval, _⟩ := run_commandContent (e := e) hblank.live
  obtain ⟨hend, ha, _⟩ := run_endLine (e := e) hval.live "unexpected text after the command"
  have hgt : c.read < (c.opened.leaf .commandName (c.read + 1)).read :=
    hread.symm ▸ Nat.lt_succ_self c.read
  have hmono := ((hblank.trans hval).trans hend).read_le
  have hbody := ((hname.trans hblank).trans hval).trans hend
  refine LineRun.node ⟨hbody.weaken (by omega) ?_, hgt.trans_le hmono, ha⟩
  rw [mul_assoc (Form.node _ _ * _) (Form.value e + _)]

end Cursor

end RequestFile
