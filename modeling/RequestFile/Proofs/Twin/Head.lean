import RequestFile.Proofs.Head
import RequestFile.Proofs.Twin.Preamble

/-!
Request lines, response lines and headers side by side.

The content of a URL is found line by line, and a further line is looked for only where the line
before it has its terminator, so a URL ends at the end as it does in front of a separator
(`Twin.urlNextLines`). The warning about a method is filed in both sources; since the next step takes
a token, it needs no other treatment than that of `Run` (`Twin.urlLine_of_first`).
-/

namespace RequestFile

namespace Cursor

open Lookahead

variable {F : Frame} {pre : List Tree} {stop : Nat} {c d : Cursor}

namespace Twin

/-! ### Query parts and fragments -/

lemma part {K : Kind} (h : Twin F pre c d) (hc : c.Live) (hl : stop ≤ c.lineEnd)
    (hi : Inside F c) : Twin F pre (c.part K stop) (d.part K (stop + F.read)) := by
  simp only [Cursor.part, h.read, Nat.add_lt_add_iff_right]
  split_ifs with hlt
  · exact h.interpolatedNode hc ⟨hlt.le, hl⟩ hi
  · exact h

lemma queryValue (h : Twin F pre c d) (hc : c.Live) (hw : WithinLine stop c)
    (hi : Inside F c) : Twin F pre (c.queryValue stop) (d.queryValue (stop + F.read)) := by
  have hlook := run_look (e := true) hc
  simp only [Cursor.queryValue, h.read, Nat.add_lt_add_iff_right]
  split_ifs with hlt
  swap
  · exact h
  refine h.on (by decide) (fun hs h => ?_) fun _ h => h
  rw [← look_sees c .equals] at hs
  obtain ⟨hop, _, hop'⟩ := run_operator_within (e := true) hlook.live hs (by decide)
    (by rwa [look_read]) (hw.2.trans (look_lineEnd c).ge)
  have hf := hop'.2.trans (lineEnd_le_finish _)
  have hb := outsideVariables_bounds paramValueEndKinds hop'.1
  have h := h.operator hs
  rw [h.outsideVariables_eq _ hf]
  exact h.part hop.live (hb.2.trans hop'.2)
    (hop.inside (hop'.1.trans (hw.2.trans (look_lineEnd c).ge)) hi.look)

lemma queryParam (h : Twin F pre c d) (hc : c.Live) (hw : WithinLine stop c)
    (hi : Inside F c) : Twin F pre (c.queryParam stop) (d.queryParam (stop + F.read)) := by
  have hf := hw.2.trans c.lineEnd_le_finish
  have hb := outsideVariables_bounds queryNameEndKinds hw.1
  have hname := h.outsideVariables_eq queryNameEndKinds hf
  have hbuild : ∀ {c d : Cursor} {n : Nat}, Twin F pre c d → c.Live → WithinLine stop c →
      Inside F c → n ≤ stop →
      Twin F pre (c.node .queryParam fun c => (c.part .queryParamName n).queryValue stop)
        (d.node .queryParam fun c =>
          (c.part .queryParamName (n + F.read)).queryValue (stop + F.read)) := by
    intro c d n h hc hw hi hn
    obtain ⟨hpart, hread⟩ := run_part (e := true) (K := .queryParamName) hc.opened
      (hn.trans hw.2)
    have hle : (c.opened.part .queryParamName n).read ≤ stop :=
      hread.trans_le (max_le hw.1 hn)
    have hw' : WithinLine stop (c.opened.part .queryParamName n) :=
      WithinLine.of_run (c := c.opened) hw hpart hle
    exact h.node fun h => (h.part hc.opened (hn.trans hw.2) hi).queryValue hpart.live hw'
      (hpart.inside (hle.trans hw.2) hi)
  simp only [Cursor.queryParam, hname, h.read, Nat.add_right_cancel_iff]
  split_ifs
  · have hlook := run_look (e := true) hc
    have hw' : WithinLine stop c.look := hw.of_run hlook (by simpa using hw.1)
    exact h.on (by decide) (fun _ h => hbuild h hlook.live hw' hi.look hb.2) fun _ h => h
  · exact hbuild h hc hw hi hb.2

lemma queryPart {K k : Kind} (h : Twin F pre c d) (hc : c.Live) (hs : c.sees k)
    (hk : k ≠ .newline) (hlt : c.read < stop) (hl : stop ≤ c.lineEnd) :
    Twin F pre (c.queryPart K stop) (d.queryPart K (stop + F.read)) := by
  obtain ⟨hop, _, hw⟩ := run_operator_within (e := true) hc.opened hs hk hlt hl
  have hi : Inside F c.opened := h.inside_of_sees hs
  have hi' := hop.inside (hw.1.trans hl) hi
  refine h.node fun h => ?_
  have h := h.operator hs
  simp only [h.read, Nat.add_lt_add_iff_right]
  split_ifs
  · exact h.queryParam hop.live hw hi'
  · exact h

lemma fragment (h : Twin F pre c d) (hc : c.Live) (hs : c.sees .hash) (hlt : c.read < stop)
    (hl : stop ≤ c.lineEnd) : Twin F pre (c.fragment stop) (d.fragment (stop + F.read)) := by
  obtain ⟨_, _, hw⟩ := run_operator_within (e := true) hc.opened hs (by decide) hlt hl
  have hf := hw.2.trans (lineEnd_le_finish _)
  refine h.node fun h => ?_
  have h := h.operator hs
  dsimp only
  rw [h.before_eq _ hf]
  exact h.textUntil ((before_bounds blankKinds hw.1).2.trans hf)

/-! ### Pieces of a URL -/

lemma urlText (h : Twin F pre c d) (hlt : c.read < stop) (hf : stop ≤ c.finish) :
    Twin F pre (c.urlText stop) (d.urlText (stop + F.read)) := by
  have hstop : d.read + 1 + lengthBefore urlBreakKinds ((d.segment (stop + F.read)).drop 1)
      = c.read + 1 + lengthBefore urlBreakKinds ((c.segment stop).drop 1) + F.read := by
    rw [h.segment_eq hf, h.read]
    omega
  rw [Cursor.urlText, Cursor.urlText, hstop]
  exact h.textUntil ((urlText_bounds hlt hf).2.trans hf)

/-- **Pieces of a URL** stay on their line. -/
lemma urlPiece (h : Twin F pre c d) (hc : c.Live) (hlt : c.read < stop) (hl : stop ≤ c.lineEnd)
    (hi : Inside F c) : Twin F pre (c.urlPiece stop) (d.urlPiece (stop + F.read)) := by
  have hlook := run_look (e := true) hc
  have h := h.look
  have hi := hi.look
  rw [← look_read c] at hlt
  rw [← look_lineEnd c] at hl
  simp only [Cursor.urlPiece]
  generalize c.look = c at *
  generalize d.look = d at *
  rw [h.sees_eq (by decide), h.sees_eq (by decide), h.sees_eq (by decide), h.sees_eq (by decide)]
  split_ifs with hq ha hh hv
  · exact h.queryPart hlook.live hq (by decide) hlt hl
  · exact h.queryPart hlook.live ha (by decide) hlt hl
  · exact h.fragment hlook.live hh hlt hl
  · exact h.variableRef hlook.live hv hlt hl hi
  · exact h.urlText hlt (hl.trans c.lineEnd_le_finish)

/-- The first piece of a URL after the warning about a method is the word it is about. -/
lemma urlPiece_word (h : Twin F pre c d) (hs : c.sees .word) (hlt : c.read < stop)
    (hf : stop ≤ c.finish) : Twin F pre (c.urlPiece stop) (d.urlPiece (stop + F.read)) := by
  have htext : ∀ {f : Cursor} {stop : Nat}, f.sees .word →
      f.urlPiece stop = f.look.urlText stop := by
    intro f stop hf
    obtain ⟨t, us, hr, hk⟩ := exists_of_sees hf
    simp [Cursor.urlPiece, sees, hr, hk]
  rw [htext hs, htext ((h.sees_eq (by decide)).trans hs)]
  exact h.look.urlText (by rwa [look_read]) (by simpa [finish] using hf)

/-- **The content of a URL on one line**, from cursors that may just have warned about a method, so
that only their first turn is known to be a run. -/
lemma urlLine_of_first {w x : Cursor} (h : Twin F pre w x) (hrest : w.rest = c.rest)
    (hread : w.read = c.read) (hw : WithinLine stop c) (hlt : c.read < stop) (hi : Inside F c)
    (hfirst : Run true 23 (Form.urlPiece true) c (w.urlPiece stop) ∧
      c.read < (w.urlPiece stop).read ∧ (w.urlPiece stop).read ≤ stop)
    (hpiece : Twin F pre (w.urlPiece stop) (x.urlPiece (stop + F.read))) :
    Twin F pre (w.urlLine stop) (x.urlLine (stop + F.read)) := by
  obtain ⟨hrun, hgt, hle⟩ := hfirst
  obtain ⟨t, us, hr, _⟩ := exists_of_lt_lineEnd (hlt.trans_le hw.2)
  have hunroll : ∀ {f : Cursor} {stop : Nat} {ts : List Token}, f.Sound → f.rest = t :: ts →
      f.read < stop → f.urlLine stop = Cursor.iterate
        (fun c => if c.read < stop && !c.stopped then .again (c.urlPiece stop) else .done c)
        f.rest.length (f.urlPiece stop) := by
    intro f stop ts hf hrest hlt
    have hmore : (decide (f.read < stop) && !f.stopped) = true := by
      simp [hlt, stopped, atEnd, hrest, hf.exceeded]
    rw [Cursor.urlLine, Cursor.loopWhile, Cursor.loop, Cursor.iterate]
    simp only [hmore, if_true]
  have hx : x.rest = t :: (us ++ F.tail) := by rw [h.rest, hrest, hr, List.cons_append]
  have hfin := hrun.finish_eq
  rw [finish, finish, ← hrest] at hfin
  rw [hunroll h.here (hrest.trans hr) (by omega),
    hunroll h.there hx (by rw [h.read, hread]; omega)]
  refine iterateWithin (fun _ hc hw hlt => run_urlPiece (e := true) hc hlt hw.2)
    (fun _ _ hc hw hlt hi h => h.urlPiece hc hlt hw.2 hi) hrun.live (hw.of_run hrun hle)
    (hrun.inside (hle.trans hw.2) hi) hpiece (by omega) ?_
  rw [h.rest, List.length_append]
  omega

lemma urlLine (h : Twin F pre c d) (hc : c.Live) (hw : WithinLine stop c) (hi : Inside F c) :
    Twin F pre (c.urlLine stop) (d.urlLine (stop + F.read)) :=
  loopWithin (fun _ hc hw hlt => run_urlPiece (e := true) hc hlt hw.2)
    (fun _ _ hc hw hlt hi h => h.urlPiece hc hlt hw.2 hi) hc hw hi h

/-! ### URLs over several lines -/

lemma urlNextLine (h : Twin F pre c d) (hc : c.Live) (hb : c.atBlankLine)
    (hn : nextLineIsIndented c.rest) :
    Twin F pre c.urlNextLine.1 d.urlNextLine.1 ∧
      d.urlNextLine.2 = c.urlNextLine.2.map (· + F.read) ∧ Inside F c.urlNextLine.1 := by
  obtain ⟨hblank, _⟩ := run_eatBlank (e := true) hc
  obtain ⟨hnl, _⟩ := run_eatNewline (e := true) hblank.live
  obtain ⟨hind, _⟩ := run_eatBlank (e := true) hnl.live
  have h := h.eatBlank.eatNewline.eatBlank
  have hi := h.inside (hasUrl_urlNextLine hc hb hn).ne_nil
  simp only [Cursor.urlNextLine]
  generalize c.eatBlank.eatNewline.eatBlank = c at *
  generalize d.eatBlank.eatNewline.eatBlank = d at *
  have hline : line d.rest = line c.rest := h.same_line hi lineLocal_line
  have hbounds := splitVersion_bounds c.rest
  have hw : WithinLine (c.read + (splitVersion (line c.rest)).1) c :=
    ⟨Nat.le_add_right _ _, Nat.add_le_add_left hbounds.1 _⟩
  obtain ⟨hurl, hend⟩ := run_urlLine (e := true) hind.live hw
  have hstop : d.read + (splitVersion (line c.rest)).1
      = c.read + (splitVersion (line c.rest)).1 + F.read := by
    rw [h.read]
    omega
  rw [hline, hstop]
  exact ⟨h.urlLine hind.live hw hi, h.map_read _, hurl.inside (hend.trans_le hw.2) hi⟩

/-- Whether a URL goes on is seen in the same way. -/
lemma nextLineIsIndented_eq (h : Twin F pre c d) (hi : Inside F c) :
    nextLineIsIndented d.rest = nextLineIsIndented c.rest := by
  rw [h.rest]
  rcases hi with hnil | hline
  · rw [hnil, List.append_nil]
  rcases h.ending with hnil | he
  · rw [hnil, List.append_nil]
  · exact nextLineIsIndented_append h.opens hline he.1

/-- **The further lines of a URL**, and where the version after them begins. -/
lemma urlNextLines {v : Option Nat} {n n' : Nat} (h : Twin F pre c d) (hc : c.Live)
    (ha : AfterUrl c v) (hi : Inside F c) (hn : c.rest.length < n) (hn' : n ≤ n') :
    Twin F pre (c.urlNextLines v n).1 (d.urlNextLines (v.map (· + F.read)) n').1 ∧
      (d.urlNextLines (v.map (· + F.read)) n').2
        = (c.urlNextLines v n).2.map (· + F.read) ∧ Inside F (c.urlNextLines v n).1 := by
  induction n generalizing n' c d v with
  | zero => exact absurd hn (Nat.not_lt_zero _)
  | succ n ih =>
      obtain ⟨n', rfl⟩ : ∃ i, n' = i + 1 := ⟨n' - 1, by omega⟩
      rw [Cursor.urlNextLines, Cursor.urlNextLines, Option.isNone_map, h.nextLineIsIndented_eq hi]
      by_cases hmore : (v.isNone && nextLineIsIndented c.rest) = true
      · rw [if_pos hmore, if_pos hmore]
        simp only [Bool.and_eq_true, Option.isNone_iff_eq_none] at hmore
        obtain ⟨hrun, hgt, hafter⟩ := run_urlNextLine (e := true) hc (ha.blank hmore.1) hmore.2
        obtain ⟨h', hv, hi'⟩ := h.urlNextLine hc (ha.blank hmore.1) hmore.2
        have hfin := hrun.finish_eq
        rw [finish, finish] at hfin
        dsimp only
        rw [hv]
        exact ih h' hrun.live hafter hi' (by omega) (by omega)
      · rw [if_neg hmore, if_neg hmore]
        exact ⟨h, rfl, hi⟩

/-! ### Request lines -/

lemma hasUrl (h : Near F pre c d) (hurl : c.HasUrl) : d.HasUrl := by
  obtain ⟨t, us, hr, hk⟩ := hurl
  exact ⟨t, us ++ F.tail, by rw [h.rest, hr, List.cons_append], hk⟩

/-- **URLs**, from cursors that may just have warned about a method. -/
lemma urlLines_of_first {w x : Cursor} (h : Twin F pre w x) (hrest : w.rest = c.rest)
    (hread : w.read = c.read) (hurl : c.HasUrl) (hi : Inside F c)
    (hfirst : ∀ stop, c.read < stop → stop ≤ c.lineEnd →
      (Run true 23 (Form.urlPiece true) c (w.urlPiece stop) ∧ c.read < (w.urlPiece stop).read ∧
        (w.urlPiece stop).read ≤ stop) ∧
      Twin F pre (w.urlPiece stop) (x.urlPiece (stop + F.read))) :
    Twin F pre w.urlLines.1 x.urlLines.1 ∧
      x.urlLines.2 = w.urlLines.2.map (· + F.read) ∧ Inside F w.urlLines.1 := by
  have hpos := Nat.lt_add_of_pos_right hurl.pos (n := c.read)
  have hbounds := splitVersion_bounds c.rest
  have hstop : c.read + (splitVersion (line c.rest)).1 ≤ c.lineEnd :=
    Nat.add_le_add_left hbounds.1 _
  obtain ⟨hrun, hpiece⟩ := hfirst _ hpos hstop
  have hx : w.exceeded = none := h.here.exceeded
  obtain ⟨hline, hend⟩ := run_urlLine_of_first hrest hread hx ⟨hpos.le, hstop⟩ hpos hrun
  have h' := h.urlLine_of_first hrest hread ⟨hpos.le, hstop⟩ hpos hi hrun hpiece
  have hlineEq : line x.rest = line c.rest := by
    rw [← hrest]
    exact h.same_line (by rwa [Inside, hrest]) lineLocal_line
  have hread' : x.read + (splitVersion (line c.rest)).1
      = c.read + (splitVersion (line c.rest)).1 + F.read := by
    rw [h.read, hread]
    omega
  have hversion := h.map_read (splitVersion (line c.rest)).2
  rw [hread] at hversion
  -- the longer source has tokens behind the section, hence more fuel than the loop needs
  have hfuel : (w.urlLine (c.read + (splitVersion (line c.rest)).1)).rest.length + 1
      ≤ (x.urlLine (c.read + (splitVersion (line c.rest)).1 + F.read)).rest.length + 1 := by
    rw [h'.rest, List.length_append]
    omega
  simp only [urlLines, hrest, hread, hlineEq, hread', hversion]
  exact h'.urlNextLines hline.live (afterUrl_of_content hline hend hurl.pos)
    (hline.inside (hend.trans_le hstop) hi) (Nat.lt_succ_self _) hfuel

lemma targetUrl (h : Twin F pre c d) (hc : c.Live) (hurl : c.HasUrl) (hi : Inside F c) :
    Twin F pre c.targetUrl.1 d.targetUrl.1 ∧
      d.targetUrl.2 = c.targetUrl.2.map (· + F.read) ∧ Inside F c.targetUrl.1 := by
  have hopened : Twin F [] c.opened d.opened := ⟨opened h.toNear, h.last⟩
  obtain ⟨h', hv, hi'⟩ := hopened.urlLines_of_first (c := c.opened) rfl rfl hurl hi
    fun _ hlt hl => ⟨run_urlPiece hc.opened hlt hl, hopened.urlPiece hc.opened hlt hl hi⟩
  rw [targetUrl_eq hurl, targetUrl_eq (hasUrl h.toNear hurl)]
  exact ⟨closed h.toNear h', hv, hi'⟩

/-- The URL of a request after a warning that its first word is a method but for its letters. -/
lemma targetUrl_warned {x : Diagnostic} (h : Twin F pre (c.fileAt c.offset x) d) (hc : c.Live)
    (hs : c.sees .word) (hurl : c.HasUrl) (hi : Inside F c) :
    Twin F pre (c.fileAt c.offset x).targetUrl.1 d.targetUrl.1 ∧
      d.targetUrl.2 = (c.fileAt c.offset x).targetUrl.2.map (· + F.read) ∧
      Inside F (c.fileAt c.offset x).targetUrl.1 := by
  have hopen : (c.fileAt c.offset x).opened = c.opened.fileAt c.opened.offset x := by
    by_cases hl : c.lastReport = some c.offset <;> simp [Cursor.fileAt, Cursor.opened, hl]
  have hurl' : (c.fileAt c.offset x).HasUrl := by rwa [HasUrl, fileAt_rest]
  have hopened : Twin F [] (c.fileAt c.offset x).opened d.opened := ⟨opened h.toNear, h.last⟩
  have hs' : (c.fileAt c.offset x).opened.sees .word := by
    rw [hopen, sees, fileAt_rest]
    exact hs
  obtain ⟨h', hv, hi'⟩ := hopened.urlLines_of_first (c := c.opened)
    (by rw [hopen, fileAt_rest]) (by rw [hopen, fileAt_read]) hurl hi
    fun stop hlt hl => ⟨by rw [hopen]; exact run_urlPiece_warned hc.opened hs hlt hl,
      hopened.urlPiece_word hs' (by rw [hopen, fileAt_read]; exact hlt)
        (by rw [hopen, finish, fileAt_read, fileAt_rest]; exact hl.trans (lineEnd_le_finish _))⟩
  rw [targetUrl_eq hurl', targetUrl_eq (hasUrl h.toNear hurl')]
  exact ⟨closed h.toNear h', hv, hi'⟩

/-- The warning about a method, as `reportMethodCase` files it. -/
def methodWarning (word method : String) (span : Span) : Diagnostic :=
  ((Diagnostic.new .unknownMethod span).saying
    ("`" ++ word ++ "` is read as part of the URL")).fixedBy "methods are uppercase" method

/-- **The URL of a request**, after a method or not. -/
lemma target (h : Twin F pre c d) (hc : c.Live) (hurl : c.HasUrl) (hi : Inside F c) :
    Twin F pre c.method.targetUrl.1 d.method.targetUrl.1 ∧
      d.method.targetUrl.2 = c.method.targetUrl.2.map (· + F.read) ∧
      Inside F c.method.targetUrl.1 := by
  have hlook := run_look (e := true) hc
  have hurl : c.look.HasUrl := by rwa [HasUrl, look_rest]
  have h := h.look
  have hi := hi.look
  simp only [Cursor.method]
  generalize c.look = c at *
  generalize d.look = d at *
  have hword : (d.sees .word && startsWith .whitespace (d.rest.drop 1)
      && !isBlankLine (d.rest.drop 1)) = (c.sees .word && startsWith .whitespace (c.rest.drop 1)
      && !isBlankLine (c.rest.drop 1)) :=
    h.same_line hi lineLocal_wordThenText
  have htext : headText d.rest = headText c.rest := h.same hi headText_append
  rw [hword, htext]
  -- a method is taken; a word that is one in another case is reported and belongs to the URL
  by_cases hw : (c.sees .word && startsWith .whitespace (c.rest.drop 1)
      && !isBlankLine (c.rest.drop 1)) = true
  swap
  · rw [if_neg hw, if_neg hw]
    exact h.targetUrl hlook.live hurl hi
  rw [if_pos hw, if_pos hw]
  simp only [Bool.and_eq_true, Bool.not_eq_true'] at hw
  have hs := hw.1.1
  split_ifs
  · have hlt := read_lt_lineEnd_of_sees hs (by decide)
    obtain ⟨hleaf, hread⟩ := run_leaf (e := true) (K := .method) hlook.live
      (Nat.lt_succ_self c.read) hlt
    obtain ⟨hblank, _⟩ := run_eatBlank (e := true) hleaf.live
    have hmark : d.read + 1 = c.read + 1 + F.read := by
      rw [h.read]
      omega
    rw [hmark]
    exact (h.leaf (Nat.le_trans hlt c.lineEnd_le_finish)).eatBlank.targetUrl hblank.live
      (hasUrl_after_method hlook.live.lexed hs (by rw [hw.2]; decide))
      ((hleaf.inside (hread.trans_le hlt) hi).eatBlank hleaf.live)
  · simp only [reportMethodCase, htext]
    split
    · next m _ =>
        have hfile : Twin F pre (c.file (methodWarning (headText c.rest) m c.span))
            (d.file (methodWarning (headText c.rest) m d.span)) :=
          h.file rfl (by rw [h.span_eq hi]; rfl)
        exact targetUrl_warned hfile hlook.live hs hurl hi
    · exact h.targetUrl hlook.live hurl hi

lemma version {v : Option Nat} (h : Twin F pre c d) (hc : c.Live) (ha : AfterUrl c v)
    (hi : Inside F c) :
    Twin F pre (c.version v) (d.version (v.map (· + F.read))) ∧ Inside F (c.version v) := by
  cases v with
  | none => exact ⟨h, hi⟩
  | some v =>
      obtain ⟨hblank, _⟩ := run_eatBlank (e := true) hc
      have hi' := hi.eatBlank hc
      have h' := h.eatBlank
      have hle : v + 3 ≤ c.eatBlank.lineEnd := by
        rw [hblank.lineEnd_eq (eatBlank_le_lineEnd hc)]
        exact ha.version v rfl
      simp only [Cursor.version, Option.map_some, h'.read, Nat.add_right_cancel_iff,
        Nat.add_right_comm v F.read 3]
      split_ifs with hv
      · obtain ⟨hleaf, hread⟩ := run_leaf (e := true) (K := .httpVersion) hblank.live
          (show c.eatBlank.read < v + 3 by omega) hle
        exact ⟨h'.leaf (hle.trans (lineEnd_le_finish _)), hleaf.inside (hread.trans_le hle) hi'⟩
      · exact ⟨h', hi'⟩

/-- **Request lines** end where a line begins. -/
lemma requestLine (h : Twin F pre c d) (hc : c.Live) (hurl : c.HasUrl) :
    Twin F pre c.requestLine d.requestLine := by
  have hi : Inside F c := h.inside hurl.ne_nil
  obtain ⟨htarget, _, hafter⟩ := run_target (e := true) hc hurl
  obtain ⟨h', hv, hi⟩ := h.target hc hurl hi
  have hversion := run_version (e := true) htarget.live hafter
  obtain ⟨h'', hi'⟩ := h'.version htarget.live hafter hi
  rw [← hv] at h''
  exact h''.endLine hversion.live _ hi'

/-! ### Response lines -/

lemma status (h : Twin F pre c d) (hc : c.Live) (hi : Inside F c) :
    Twin F pre c.status d.status := by
  have hlook := run_look (e := true) hc
  have h := h.look
  have hi := hi.look
  simp only [Cursor.status]
  generalize c.look = c at *
  generalize d.look = d at *
  rw [h.sees_eq (by decide), h.same hi headText_append]
  by_cases hs : (c.sees .word && isStatusCode (headText c.rest)) = true
  · rw [if_pos hs, if_pos hs]
    simp only [Bool.and_eq_true] at hs
    have hlt := read_lt_lineEnd_of_sees hs.1 (by decide)
    obtain ⟨hcode, hread⟩ := run_leaf (e := true) (K := .statusCode) hlook.live
      (Nat.lt_succ_self c.read) hlt
    have hmark : d.read + 1 = c.read + 1 + F.read := by
      rw [h.read]
      omega
    have h := (h.leaf (K := .statusCode) (Nat.le_trans hlt c.lineEnd_le_finish)).eatBlank
    have hi := (hcode.inside (hread.trans_le hlt) hi).eatBlank hcode.live
    rw [← hmark] at h
    generalize (c.leaf .statusCode (c.read + 1)).eatBlank = c at *
    generalize (d.leaf .statusCode (d.read + 1)).eatBlank = d at *
    rw [h.trimmedLineEnd_eq hi, h.read]
    simp only [Nat.add_lt_add_iff_right]
    split_ifs
    · have hf := c.lineEnd_le_finish
      exact (h.leaf ((trimmedEnd_bounds c.read_le_lineEnd).2.trans hf)).eatBlank
    · exact h.eatBlank
  · rw [if_neg hs, if_neg hs]
    exact h.rejectLine _ _ hi

/-- **Response lines** end where a line begins. -/
lemma responseLine (h : Twin F pre c d) (hc : c.Live) (hv : isVersion c.rest) :
    Twin F pre c.responseLine d.responseLine := by
  have hlen := isVersion_le hv
  have hle : c.read + 3 ≤ c.lineEnd := Nat.add_le_add_left hlen _
  obtain ⟨t, us, hr, _⟩ := exists_of_lt_lineEnd (show c.read < c.lineEnd by omega)
  have hi : Inside F c := h.inside (by rw [hr]; exact List.cons_ne_nil t us)
  obtain ⟨hversion, hread⟩ := run_leaf (e := true) (K := .httpVersion) hc
    (show c.read < c.read + 3 by omega) hle
  obtain ⟨hblank, _⟩ := run_eatBlank (e := true) hversion.live
  have hmark : d.read + 3 = c.read + 3 + F.read := by
    rw [h.read]
    omega
  rw [Cursor.responseLine, Cursor.responseLine, hmark]
  exact ((h.leaf (hle.trans c.lineEnd_le_finish)).eatBlank.status hblank.live
    ((hversion.inside (hread.trans_le hle) hi).eatBlank hversion.live)).eatNewline

/-! ### Headers -/

lemma checkHeaderName (h : Twin F pre c d) (hs : stop ≤ c.finish) :
    Twin F pre (c.checkHeaderName stop) (d.checkHeaderName (stop + F.read)) := by
  simp only [Cursor.checkHeaderName, h.segment_eq hs]
  split_ifs
  · exact h
  · exact h.report _ _ rfl (h.spanTo_eq hs)

/-- What follows the name of a header. -/
lemma headerValue (h : Twin F pre c d) (hc : c.Live) (hi : Inside F c) :
    Twin F pre
      (c.on .colon
        (fun f => ((f.bump.eatBlank).value (f.bump.eatBlank.trimmedEnd c.lineEnd)).eatBlank)
        (Cursor.rejectLine .expectedColon "expected `:` after header name"))
      (d.on .colon
        (fun f => ((f.bump.eatBlank).value (f.bump.eatBlank.trimmedEnd d.lineEnd)).eatBlank)
        (Cursor.rejectLine .expectedColon "expected `:` after header name")) := by
  have hlook := run_look (e := true) hc
  have hend := h.lineEnd_eq hi
  refine h.on (by decide) (fun hs h => ?_) fun _ h => h.rejectLine _ _ hi.look
  rw [← look_sees c .colon] at hs
  rw [hend, ← look_lineEnd c]
  obtain ⟨hcolon, _⟩ := run_bump (e := true) hlook.live hs
  obtain ⟨hblank, _⟩ := run_eatBlank (e := true) hcolon.live
  have hline := (hcolon.trans hblank).lineEnd_eq
    (hcolon.stays (bump_le_lineEnd hs (by decide)) (eatBlank_le_lineEnd hcolon.live))
  have hi := (hi.look.bump hlook.live hs (by decide)).eatBlank hcolon.live
  have h := (h.bump hs).eatBlank
  have hvalue := h.trimmedValue hblank.live hi
  rwa [h.lineEnd_eq hi, hline] at hvalue

/-- **Headers** end with their line. -/
lemma header (h : Twin F pre c d) (hc : c.Live) (hs : c.seesIn headerNameKinds)
    (hi : Inside F c) : Twin F pre c.header d.header := by
  obtain ⟨hpos, hle⟩ := headerNameLength_bounds hs
  obtain ⟨hcheck, hcheck'⟩ := run_checkHeaderName (e := true) hc.opened
    (c.read + headerNameLength c.rest)
  have hline := hcheck.lineEnd_eq (hcheck'.trans_le c.opened.read_le_lineEnd)
  obtain ⟨hname, hread⟩ := run_leaf (e := true) (K := .headerEntity) hcheck.live
    (hcheck'.trans_lt (Nat.lt_add_of_pos_right hpos)) (hle.trans hline.ge)
  obtain ⟨hblank, _⟩ := run_eatBlank (e := true) hname.live
  refine h.node fun h => ?_
  have hmark : d.opened.read + headerNameLength d.opened.rest
      = c.read + headerNameLength c.rest + F.read := by
    have hsame : headerNameLength d.opened.rest = headerNameLength c.rest :=
      h.same_line hi lineLocal_headerNameLength
    have hread : d.opened.read = c.read + F.read := h.read
    omega
  have hi := hcheck.inside (hcheck'.trans_le c.opened.read_le_lineEnd)
    (show Inside F c.opened from hi)
  have hle := hle.trans hline.ge
  have h := h.checkHeaderName (show c.read + headerNameLength c.rest ≤ c.opened.finish from
    (Nat.add_le_add_left (headerNameLength_le _) _).trans c.lineEnd_le_finish)
  have hi := (hname.inside (hread.trans_le hle) hi).eatBlank hname.live
  have h := (h.leaf (K := .headerEntity) (hle.trans (lineEnd_le_finish _))).eatBlank
  simp only [hmark]
  exact (h.headerValue hblank.live hi).eatNewline

/-- **Stray lines** are taken whole. -/
lemma strayHeaderLine (h : Twin F pre c d) (hi : Inside F c) :
    Twin F pre c.strayHeaderLine d.strayHeaderLine := by
  have hfile : Twin F pre
      (c.file (((Diagnostic.new .unexpectedLine (c.spanTo c.lineEnd)).saying
        "expected a header or a blank line before the body").hinting
        "separate the body from the headers with a blank line"))
      (d.file (((Diagnostic.new .unexpectedLine (d.spanTo d.lineEnd)).saying
        "expected a header or a blank line before the body").hinting
        "separate the body from the headers with a blank line")) := by
    refine h.file rfl ?_
    rw [h.lineEnd_eq hi, h.spanTo_eq c.lineEnd_le_finish]
    rfl
  simp only [Cursor.strayHeaderLine]
  rw [h.lineEnd_eq hi] at hfile ⊢
  refine (hfile.errorUntil ?_).eatNewline
  rw [finish, Cursor.file, fileAt_read, fileAt_rest]
  exact c.lineEnd_le_finish

/-- **A line among the headers.** -/
lemma headerLine (h : Twin F pre c d) (hc : c.Live) (hi : Inside F c) :
    Twin F pre c.headerLine d.headerLine := by
  have hlook := run_look (e := true) hc
  have h := h.look
  have hi := hi.look
  simp only [Cursor.headerLine]
  generalize c.look = c at *
  generalize d.look = d at *
  rw [h.seesIn_eq hi, h.seesIn_eq hi]
  split_ifs with hcomment hname
  · exact h.comment hlook.live (sees_of_seesIn_commentKinds hcomment)
  · exact h.header hlook.live hname hi
  · exact h.strayHeaderLine hi

/-- **Header lines** go on to a blank line, a separator or the end. -/
lemma headerLines (h : Twin F pre c d) (hc : c.Live) (ha : c.Aligned) :
    Twin F pre c.headerLines d.headerLines := by
  refine loopWhile (I := Aligned) (e := true) run_headerLine_turn
    (fun _ _ _ _ h => h.not_atBlankLine) (fun c d hc _ hmore h => ?_) hc ha h
  have hne : c.rest ≠ [] := by
    simp only [hc.stopped_eq, atEnd, Bool.and_eq_true, Bool.not_eq_true',
      List.isEmpty_eq_false_iff] at hmore
    exact hmore.1.1
  exact h.headerLine hc (h.inside hne)

end Twin

end Cursor

end RequestFile
