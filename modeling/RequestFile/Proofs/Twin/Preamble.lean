import RequestFile.Proofs.Preamble
import RequestFile.Proofs.Twin.Value

/-!
The lines in front of a request, side by side.

Each of them ends with its line, so it is the same whatever follows behind the end. A separator is
the one production that may be entered by cursors that disagree on the report before: it takes a
token before anything is reported (`Near.separator`).
-/

namespace RequestFile

namespace Cursor

open Lookahead

variable {F : Frame} {pre : List Tree} {stop : Nat} {c d : Cursor}

/-! ### Separators, comments and metadata -/

/-- **Separators** leave the report before behind. -/
lemma Near.separator (h : Near F pre c d) (hc : c.Live) (hs : c.sees .separatorMarker) :
    Twin F pre c.separator d.separator := by
  have h := h.congr (alike_demand c .separatorMarker) (alike_demand d .separatorMarker)
  have hlook := run_look (e := true) hc
  simp only [Cursor.separator]
  rw [demand_eq hs] at h ⊢
  rw [← look_sees c .separatorMarker] at hs
  obtain ⟨t, us, hr, _⟩ := exists_of_sees hs
  have hne : c.look.rest ≠ [] := by
    rw [hr]
    exact List.cons_ne_nil t us
  obtain ⟨hopen, _⟩ := run_bump (e := true) hlook.live.opened hs
  obtain ⟨hblank, _⟩ := run_eatBlank (e := true) hopen.live
  have hi : Inside F c.look.opened := h.inside hne
  have hi' := (hi.bump hlook.live.opened hs (by decide)).eatBlank hopen.live
  exact Twin.closed h
    ((((Twin.opened h).bump hne).eatBlank.trimmedValue hblank.live hi').eatNewline)

namespace Twin

/-- Comments and metadata begin with either marker. -/
lemma commentMarker (h : Twin F pre c d) (hc : c.Live) (hs : c.sees .hash ∨ c.sees .doubleSlash) :
    Twin F pre c.bump d.bump ∧ Inside F c.bump := by
  rcases hs with hs | hs
  · exact ⟨h.bump hs, (h.inside_of_sees hs).bump hc hs (by decide)⟩
  · exact ⟨h.bump hs, (h.inside_of_sees hs).bump hc hs (by decide)⟩

lemma comment (h : Twin F pre c d) (hc : c.Live) (hs : c.sees .hash ∨ c.sees .doubleSlash) :
    Twin F pre c.comment d.comment := by
  refine h.node fun h => ?_
  obtain ⟨h, hi⟩ := h.commentMarker hc.opened hs
  dsimp only
  rw [h.lineEnd_eq hi]
  exact (h.textUntil (lineEnd_le_finish _)).eatNewline

lemma optEquals (h : Twin F pre c d) (hi : Inside F c) :
    Twin F pre (if c.atEnd then c else c.on .equals (fun c => c.bump.eatBlank) id)
      (if d.atEnd then d else d.on .equals (fun c => c.bump.eatBlank) id) := by
  rw [h.atEnd_eq hi]
  split_ifs
  · exact h
  · exact h.on (by decide) (fun hs h => (h.bump ((look_sees c _).trans hs)).eatBlank) fun _ h => h

lemma metadataValue (h : Twin F pre c d) (hc : c.Live) (hi : Inside F c) :
    Twin F pre c.metadataValue d.metadataValue := by
  have hb := trimmedEnd_bounds c.read_le_lineEnd
  have hstop := h.trimmedLineEnd_eq hi
  simp only [Cursor.metadataValue]
  rw [hstop]
  generalize c.trimmedEnd c.lineEnd = stop at *
  simp only [h.read, Nat.add_lt_add_iff_right]
  by_cases hlt : c.read < stop
  · rw [if_pos hlt, if_pos hlt]
    obtain ⟨hblank, _⟩ := run_eatBlank (e := true) hc
    have hle := eatBlank_le_lineEnd hc
    obtain ⟨heq, hle'⟩ := run_optEquals (e := true) hblank.live
    have hi' := hi.eatBlank hc
    have hline := hblank.lineEnd_eq hle
    have hline' := heq.lineEnd_eq hle'
    exact (h.eatBlank.optEquals hi').value heq.live (show stop ≤ _ by omega) (heq.inside hle' hi')
  · rw [if_neg hlt, if_neg hlt]
    exact h

/-- **Metadata** has its name on its line. -/
lemma metadata (h : Twin F pre c d) (hc : c.Live) (hs : c.sees .hash ∨ c.sees .doubleSlash)
    (hm : isMetadata (c.rest.drop 1)) : Twin F pre c.metadata d.metadata := by
  refine h.node fun h => ?_
  obtain ⟨h, hi⟩ := h.commentMarker hc.opened hs
  obtain ⟨hopen, hread⟩ := run_commentMarker (e := true) hc.opened hs
  have hrest : c.opened.bump.rest = c.rest.drop 1 := by
    rw [hopen.rest_eq, hread, Nat.add_sub_cancel_left]
    rfl
  obtain ⟨hblank, _⟩ := run_eatBlank (e := true) hopen.live
  have hat : c.opened.bump.eatBlank.sees .at := by
    rw [sees, rest_eatBlank hopen.live, hrest]
    simp only [isMetadata, Bool.and_eq_true] at hm
    exact hm.1
  have hlook := run_look (e := true) hblank.live
  have h := h.eatBlank.demand .at
  have hi := (hi.eatBlank hopen.live).look
  dsimp only
  rw [demand_eq hat] at h ⊢
  rw [← look_sees _ .at] at hat
  obtain ⟨hsign, _⟩ := run_bump (e := true) hlook.live hat
  have hi := hi.bump hlook.live hat (by decide)
  obtain ⟨hid, hle⟩ := run_identifier (e := true) hsign.live
  exact (((h.bump hat).identifier hi).metadataValue hid.live (hid.inside hle hi)).eatBlank.eatNewline

/-! ### Declarations -/

lemma assignedValue (h : Twin F pre c d) (hc : c.Live) (hl : stop ≤ c.lineEnd)
    (hi : Inside F c) : Twin F pre (c.assignedValue stop) (d.assignedValue (stop + F.read)) := by
  simp only [Cursor.assignedValue, h.read, Nat.add_le_add_iff_right]
  split_ifs
  · exact h.reportHere _ _ hi
  · exact h.value hc hl hi

lemma missingEquals (h : Twin F pre c d) (hl : stop ≤ c.lineEnd) (hi : Inside F c) (s : String) :
    Twin F pre ((c.reportHere .expectedEquals s).errorUntil stop)
      ((d.reportHere .expectedEquals s).errorUntil (stop + F.read)) := by
  refine (h.reportHere _ _ hi).errorUntil ?_
  rw [Cursor.reportHere, finish_report]
  exact hl.trans c.lineEnd_le_finish

lemma assigned (h : Twin F pre c d) (hc : c.Live) (hl : stop ≤ c.lineEnd) (hi : Inside F c) :
    Twin F pre (c.assigned stop) (d.assigned (stop + F.read)) := by
  have hlook := run_look (e := true) hc
  simp only [Cursor.assigned, h.atEnd_eq hi]
  split_ifs
  · exact h.missingEquals hl hi _
  refine h.on (by decide) (fun hs h => ?_) fun _ h => h.missingEquals ?_ hi.look _
  · rw [← look_sees c .equals] at hs
    rw [← look_lineEnd c] at hl
    obtain ⟨hsign, _⟩ := run_bump (e := true) hlook.live hs
    obtain ⟨hblank, _⟩ := run_eatBlank (e := true) hsign.live
    have hline := (hsign.trans hblank).lineEnd_eq
      (hsign.stays (bump_le_lineEnd hs (by decide)) (eatBlank_le_lineEnd hsign.live))
    exact (h.bump hs).eatBlank.assignedValue hblank.live (hl.trans hline.ge)
      ((hi.look.bump hlook.live hs (by decide)).eatBlank hsign.live)
  · rwa [look_lineEnd]

/-- **Declarations** stay on their line. -/
lemma assignment (h : Twin F pre c d) (hc : c.Live) (hs : c.sees .at) (hl : stop ≤ c.lineEnd) :
    Twin F pre (c.assignment stop) (d.assignment (stop + F.read)) := by
  have hi := (h.inside_of_sees hs).look
  have h := h.demand .at
  have hlook := run_look (e := true) hc
  have heq : ∀ (f : Cursor) (stop : Nat), f.assignment stop
      = ((f.demand .at).bump.identifier.eatBlank).assigned stop := fun _ _ => rfl
  rw [heq, heq]
  rw [demand_eq hs] at h ⊢
  rw [← look_sees c .at] at hs
  rw [← look_lineEnd c] at hl
  obtain ⟨hsign, _⟩ := run_bump (e := true) hlook.live hs
  obtain ⟨hid, hle⟩ := run_identifier (e := true) hsign.live
  obtain ⟨hblank, _⟩ := run_eatBlank (e := true) hid.live
  have hline := ((hsign.trans hid).trans hblank).lineEnd_eq
    (hsign.stays (bump_le_lineEnd hs (by decide))
      (hid.stays hle (eatBlank_le_lineEnd hid.live)))
  have hi := hi.bump hlook.live hs (by decide)
  exact ((h.bump hs).identifier hi).eatBlank.assigned hblank.live (hl.trans hline.ge)
    ((hid.inside hle hi).eatBlank hid.live)

lemma variableDeclaration (h : Twin F pre c d) (hc : c.Live) (hs : c.sees .at) :
    Twin F pre c.variableDeclaration d.variableDeclaration := by
  refine h.node fun h => ?_
  have hstop := h.trimmedLineEnd_eq (h.inside_of_sees hs)
  rw [hstop]
  exact (h.assignment hc.opened hs
    (trimmedEnd_bounds (read_le_lineEnd _)).2).eatBlank.eatNewline

/-! ### Commands -/

lemma argument (h : Twin F pre c d) (hc : c.Live) (hs : c.sees .at) :
    Twin F pre c.argument d.argument := by
  refine h.node fun h => ?_
  have hf := c.opened.lineEnd_le_finish
  have ho := outsideVariables_bounds argumentEndKinds c.opened.read_le_lineEnd
  have hb := trimmedEnd_bounds ho.1
  have hstop : d.opened.trimmedEnd (d.opened.outsideVariables argumentEndKinds d.opened.lineEnd)
      = c.opened.trimmedEnd (c.opened.outsideVariables argumentEndKinds c.opened.lineEnd)
        + F.read := by
    rw [h.lineEnd_eq (h.inside_of_sees hs), h.outsideVariables_eq _ hf,
      h.trimmedEnd_eq (ho.2.trans hf)]
  rw [hstop]
  exact h.assignment hc.opened hs (hb.2.trans ho.2)

lemma argumentTurn (h : Twin F pre c d) (hc : c.Live) :
    Turn.Twin F pre (argumentTurn c) (argumentTurn d) := by
  have hlook := run_look (e := true) hc
  have h := h.look
  simp only [Cursor.argumentTurn]
  generalize c.look = c at *
  generalize d.look = d at *
  rw [h.sees_eq (by decide)]
  by_cases hnot : (!c.sees .at) = true
  · rw [if_pos hnot, if_pos hnot]
    exact h
  rw [if_neg hnot, if_neg hnot]
  have hs : c.sees .at := by simpa using hnot
  obtain ⟨harg, _, hle⟩ := run_argument (e := true) hlook.live hs
  have hi := (harg.inside hle (h.inside_of_sees hs)).eatBlank harg.live
  have h := (h.argument hlook.live hs).eatBlank
  generalize c.argument.eatBlank = c at *
  generalize d.argument.eatBlank = d at *
  rw [h.atEnd_eq hi, h.look.sees_eq (by decide)]
  split_ifs with hend hcomma
  · exact h
  · exact (h.look.bump hcomma).eatBlank
  · exact h.look

lemma argumentsCloser {opener opener' : Span} (h : Twin F pre c d) (hi : Inside F c)
    (ho : opener' = opener.shift F.offset) :
    Twin F pre (c.argumentsCloser opener) (d.argumentsCloser opener') := by
  have hmissing : ∀ {c d : Cursor}, Twin F pre c d → Inside F c → Twin F pre
      (c.file (((Diagnostic.new .expectedCloseParen c.span).saying "expected `)`").relatedTo
        "declarations start here" opener))
      (d.file (((Diagnostic.new .expectedCloseParen d.span).saying "expected `)`").relatedTo
        "declarations start here" opener')) := by
    intro c d h hi
    refine h.file rfl ?_
    rw [h.span_eq hi, ho]
    rfl
  simp only [Cursor.argumentsCloser, h.atEnd_eq hi]
  split_ifs
  · exact hmissing h hi
  · exact h.on (by decide) (fun hs h => h.bump ((look_sees c _).trans hs))
      fun _ h => hmissing h hi.look

/-- **Arguments** stay on their line. -/
lemma arguments (h : Twin F pre c d) (hc : c.Live) (hs : c.sees .parenOpen) :
    Twin F pre c.arguments d.arguments := by
  have hi := (h.inside_of_sees hs).look
  have h := h.demand .parenOpen
  have hlook := run_look (e := true) hc
  simp only [Cursor.arguments]
  rw [demand_eq hs] at h ⊢
  rw [← look_sees c .parenOpen] at hs
  generalize c.look = c at *
  generalize d.demand .parenOpen = d at *
  obtain ⟨hopen, _⟩ := run_bump (e := true) hlook.live hs
  obtain ⟨hblank, _⟩ := run_eatBlank (e := true) hopen.live
  have hend := (hopen.trans hblank).lineEnd_eq
    (hopen.stays (bump_le_lineEnd hs (by decide)) (eatBlank_le_lineEnd hopen.live))
  have hi' := (hi.bump hlook.live hs (by decide)).eatBlank hopen.live
  obtain ⟨hloop, hline⟩ := Run.loop (by decide)
    (fun f hf hl => run_argumentTurn (e := true) hf hl) hblank.live hend
  have hle : (c.bump.eatBlank.loop Cursor.argumentTurn).read ≤ c.bump.eatBlank.lineEnd := by
    rw [hend, ← hline]
    exact read_le_lineEnd _
  have hspan := h.span_eq hi
  have h' := loop (fun f hf hl => run_argumentTurn (e := true) hf hl)
    (fun _ _ hc _ h => h.argumentTurn hc) hblank.live hend (h.bump hs).eatBlank
  exact h'.argumentsCloser (hloop.inside hle hi') hspan

lemma commandValue (h : Twin F pre c d) (hc : c.Live) (hl : stop ≤ c.lineEnd)
    (hi : Inside F c) : Twin F pre (c.commandValue stop) (d.commandValue (stop + F.read)) := by
  simp only [Cursor.commandValue, h.read, Nat.add_lt_add_iff_right]
  split_ifs
  · exact h.value hc hl hi
  · exact h.reportHere _ _ hi

lemma commandContent (h : Twin F pre c d) (hc : c.Live) (hi : Inside F c) :
    Twin F pre c.commandContent d.commandContent := by
  have hle := c.read_le_lineEnd
  have hf := c.lineEnd_le_finish
  have hsegment : d.segment d.lineEnd = c.segment c.lineEnd := by
    rw [h.lineEnd_eq hi, h.segment_eq hf]
  cases hn : argumentsOffset? (c.segment c.lineEnd) with
  | none =>
      rw [commandContent_alone hn, commandContent_alone (hsegment ▸ hn), h.trimmedLineEnd_eq hi]
      exact h.commandValue hc (trimmedEnd_bounds hle).2 hi
  | some n =>
      obtain ⟨hlt, hsees⟩ := sees_arguments hc hn
      have hstop : d.trimmedEnd (d.read + n) = c.trimmedEnd (c.read + n) + F.read := by
        rw [← h.trimmedEnd_eq (hlt.trans hf), h.read, Nat.add_right_comm]
      have hb := trimmedEnd_bounds (show c.read ≤ c.read + n by omega)
      obtain ⟨hval, _⟩ := run_commandValue (e := true) hc (hb.2.trans hlt)
      obtain ⟨hblank, _⟩ := run_eatBlank (e := true) hval.live
      rw [commandContent_arguments hn, commandContent_arguments (hsegment ▸ hn), hstop]
      exact (h.commandValue hc (hb.2.trans hlt) hi).eatBlank.arguments hblank.live hsees

/-- **Commands** end with their line. -/
lemma command (h : Twin F pre c d) (hc : c.Live) (hs : c.sees .word) :
    Twin F pre c.command d.command := by
  have hlt := read_lt_lineEnd_of_sees hs (by decide)
  have hname' : c.read + 1 ≤ c.lineEnd := hlt
  obtain ⟨hname, hread⟩ := run_leaf (e := true) (K := .commandName) hc.opened
    (Nat.lt_succ_self c.read) hlt
  obtain ⟨hblank, _⟩ := run_eatBlank (e := true) hname.live
  obtain ⟨hval, hle⟩ := run_commandContent (e := true) hblank.live
  have hi : Inside F c.opened := h.inside_of_sees hs
  have hi := (hname.inside (hread.trans_le hname') hi).eatBlank hname.live
  have hmark : d.read + 1 = c.read + 1 + F.read := by
    rw [h.read]
    omega
  refine h.node fun h => Twin.endLine (c := Cursor.commandContent _) ?_ hval.live _ (hval.inside hle hi)
  have h := (h.leaf (K := .commandName) (hname'.trans c.lineEnd_le_finish)).eatBlank
  rw [← hmark] at h
  exact h.commandContent hblank.live hi

end Twin

end Cursor

end RequestFile
