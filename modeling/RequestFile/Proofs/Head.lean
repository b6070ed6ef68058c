import RequestFile.Parse.Head
import RequestFile.Proofs.Preamble

/-!
Runs of request lines, response lines and headers.

* **URLs.** Every piece of a URL takes something and stays within its line (`run_urlPiece`), so the
  content of a line ends exactly at its bound (`run_urlLine`). A URL that goes on over further lines
  takes a terminator for each (`run_urlNextLines`).
* **The warning about methods.** It is the one report that is not an error, and the token after it
  is taken before anything else is reported (`run_urlPiece_warned`).
* **Lines.** `run_requestLine`, `run_responseLine`, `run_header` and `run_headerLines`.
-/

namespace RequestFile

open scoped Computability

namespace Cursor

variable {e : Bool} {stop : Nat} {c : Cursor}

/-! ### Query parts and fragments -/

/-- A part with something in it. -/
lemma run_part_of_lt {K : Kind} (hc : c.Live) (hl : stop ≤ c.lineEnd) (h : c.read < stop) :
    Run e 10 (Form.part e K) c (c.part K stop) ∧ (c.part K stop).read = stop := by
  rw [part, if_pos h]
  exact run_interpolatedNode (e := e) (K := K) hc ⟨h.le, hl⟩

lemma run_part {K : Kind} (hc : c.Live) (hl : stop ≤ c.lineEnd) :
    Run e 10 (Form.opt (Form.part e K)) c (c.part K stop) ∧
      (c.part K stop).read = max c.read stop := by
  by_cases h : c.read < stop
  · obtain ⟨hrun, hread⟩ := run_part_of_lt (e := e) (K := K) hc hl h
    exact ⟨hrun.present, by omega⟩
  · rw [part, if_neg h]
    exact ⟨((Run.refl hc).weaken (Nat.zero_le _) le_rfl).absent, by omega⟩

/-- An operator in front of a bound keeps to it. -/
lemma run_operator_within {k : Kind} (hc : c.Live) (hs : c.sees k) (hk : k ≠ .newline)
    (h : c.read < stop) (hl : stop ≤ c.lineEnd) :
    Run e 0 (Form.operator k) c c.operator ∧ c.operator.read = c.read + 1 ∧
      WithinLine stop c.operator := by
  obtain ⟨hrun, hread⟩ := run_operator (e := e) hc hs
  have hlt := read_lt_lineEnd_of_sees hs hk
  refine ⟨hrun, hread, ?_, ?_⟩
  · omega
  · rwa [hrun.lineEnd_eq (by omega)]

lemma run_queryValue (hc : c.Live) (hw : WithinLine stop c) :
    Run e 11 (Form.opt (Form.queryValue e)) c (c.queryValue stop) ∧
      (c.queryValue stop).read ≤ stop := by
  have hlook := run_look (e := e) hc
  rw [queryValue]
  split_ifs with h
  swap
  · exact ⟨((Run.refl hc).weaken (Nat.zero_le _) le_rfl).absent, hw.1⟩
  by_cases hs : c.sees .equals
  · rw [on_pos hs]
    obtain ⟨hop, _, hop'⟩ := run_operator_within (e := e) hlook.live ((look_sees c _).trans hs)
      (by decide) (by simpa using h) (hw.2.trans (look_lineEnd c).ge)
    have hb := outsideVariables_bounds paramValueEndKinds hop'.1
    obtain ⟨hpart, hread⟩ := run_part (e := e) (K := .queryParamValue) hop.live
      (hb.2.trans hop'.2)
    exact ⟨((hop.trans hpart).after hlook).present, by dsimp only; omega⟩
  · rw [on_neg hs]
    exact ⟨(hlook.weaken (by omega) le_rfl).absent, by simpa using hw.1⟩

/-- A name and a value, as `queryParam` puts them below one node. -/
lemma run_queryParam_build {nameEnd : Nat} (hc : c.Live) (hw : WithinLine stop c)
    (hn : nameEnd ≤ stop) :
    Run e 21 (Form.queryParam e) c
        (c.node .queryParam fun c => (c.part .queryParamName nameEnd).queryValue stop) ∧
      (c.node .queryParam fun c => (c.part .queryParamName nameEnd).queryValue stop).read
        ≤ stop := by
  obtain ⟨hname, hread⟩ := run_part (e := e) (K := .queryParamName) hc.opened (hn.trans hw.2)
  have hw' : WithinLine stop (c.opened.part .queryParamName nameEnd) :=
    WithinLine.of_run (c := c.opened) hw hname (by rw [hread]; exact max_le hw.1 hn)
  obtain ⟨hval, hle⟩ := run_queryValue (e := e) hname.live hw'
  exact ⟨(hname.trans hval).node, hle⟩

lemma run_queryParam (hc : c.Live) (hw : WithinLine stop c) :
    Run e 22 (Form.opt (Form.queryParam e)) c (c.queryParam stop) ∧
      (c.queryParam stop).read ≤ stop := by
  have hb := outsideVariables_bounds queryNameEndKinds hw.1
  simp only [queryParam]
  split_ifs with heq
  · have hlook := run_look (e := e) hc
    by_cases hs : c.sees .equals
    · rw [on_pos hs]
      have hw' : WithinLine stop c.look := hw.of_run hlook (by simpa using hw.1)
      obtain ⟨hrun, hle⟩ := run_queryParam_build (e := e) hlook.live hw' hb.2
      exact ⟨(hrun.after hlook).present, hle⟩
    · rw [on_neg hs]
      exact ⟨(hlook.weaken (by omega) le_rfl).absent, by simpa using hw.1⟩
  · obtain ⟨hrun, hle⟩ := run_queryParam_build (e := e) hc hw hb.2
    exact ⟨(hrun.weaken (by omega) le_rfl).present, hle⟩

lemma run_queryPart {K k : Kind} (hc : c.Live) (hs : c.sees k) (hk : k ≠ .newline)
    (h : c.read < stop) (hl : stop ≤ c.lineEnd) :
    Run e 22 (Form.queryPart e K k) c (c.queryPart K stop) ∧ c.read < (c.queryPart K stop).read ∧
      (c.queryPart K stop).read ≤ stop := by
  simp only [queryPart, node]
  obtain ⟨hop, hread, hw⟩ := run_operator_within (e := e) hc.opened hs hk h hl
  have hgt : c.read < c.opened.operator.read := hread.symm ▸ Nat.lt_succ_self c.read
  generalize c.opened.operator = d at *
  split_ifs with hlt
  · obtain ⟨hrun, hle⟩ := run_queryParam (e := e) hop.live hw
    exact ⟨((hop.trans hrun).node).weaken (by omega) le_rfl, hgt.trans_le hrun.read_le, hle⟩
  · have hnone := (Run.refl (e := e) hop.live).absent (L := Form.queryParam e)
    exact ⟨((hop.trans hnone).node).weaken (Nat.zero_le _) le_rfl, hgt, hw.1⟩

lemma run_fragment (hc : c.Live) (hs : c.sees .hash) (h : c.read < stop) (hl : stop ≤ c.lineEnd) :
    Run e 0 Form.fragment c (c.fragment stop) ∧ c.read < (c.fragment stop).read ∧
      (c.fragment stop).read ≤ stop := by
  simp only [fragment, node]
  obtain ⟨hop, hread, hw⟩ := run_operator_within (e := e) hc.opened hs (by decide) h hl
  have hgt : c.read < c.opened.operator.read := hread.symm ▸ Nat.lt_succ_self c.read
  generalize c.opened.operator = d at *
  have hb := before_bounds blankKinds hw.1
  obtain ⟨htext, hread'⟩ := run_optText (e := e) hop.live hb.1 (hb.2.trans hw.2)
  exact ⟨(hop.trans htext).node, hgt.trans_le htext.read_le, hread'.trans_le hb.2⟩

/-! ### Pieces of a URL -/

/-- Plain text of a URL takes its first token whatever it is. -/
lemma urlText_bounds (h : c.read < stop) (hf : stop ≤ c.finish) :
    c.read < c.read + 1 + Lookahead.lengthBefore urlBreakKinds ((c.segment stop).drop 1) ∧
      c.read + 1 + Lookahead.lengthBefore urlBreakKinds ((c.segment stop).drop 1) ≤ stop := by
  have hle := Lookahead.lengthBefore_le urlBreakKinds ((c.segment stop).drop 1)
  rw [List.length_drop, length_segment hf] at hle
  omega

/-- **Pieces of a URL** take something and keep to their bound. -/
lemma run_urlPiece (hc : c.Live) (h : c.read < stop) (hl : stop ≤ c.lineEnd) :
    Run e 23 (Form.urlPiece e) c (c.urlPiece stop) ∧ c.read < (c.urlPiece stop).read ∧
      (c.urlPiece stop).read ≤ stop := by
  have hlook := run_look (e := e) hc
  rw [← look_read c] at h ⊢
  rw [← look_lineEnd c] at hl
  simp only [urlPiece]
  generalize c.look = d at *
  split_ifs with hq ha hh hv
  · obtain ⟨hrun, hgt, hle⟩ := run_queryPart (e := e) (K := .queryString) hlook.live hq
      (by decide) h hl
    exact ⟨((hrun.after hlook).inl).inl.inl.inl, hgt, hle⟩
  · obtain ⟨hrun, hgt, hle⟩ := run_queryPart (e := e) (K := .queryParamContinuation) hlook.live ha
      (by decide) h hl
    exact ⟨((hrun.after hlook).inr).inl.inl.inl, hgt, hle⟩
  · obtain ⟨hrun, hgt, hle⟩ := run_fragment (e := e) hlook.live hh h hl
    exact ⟨(((hrun.after hlook).weaken (by omega) le_rfl).inr).inl.inl, hgt, hle⟩
  · obtain ⟨hrun, hgt, hle⟩ := run_variableRef (e := e) hlook.live hv h
    exact ⟨(((hrun.after hlook).weaken (by omega) le_rfl).inr).inl, hgt, hle⟩
  · have hb := urlText_bounds h (hl.trans d.lineEnd_le_finish)
    obtain ⟨hrun, hread⟩ := run_textUntil (e := e) hlook.live hb.1 (hb.2.trans hl)
    rw [urlText]
    exact ⟨((hrun.after hlook).weaken (by omega) le_rfl).inr, by omega, by omega⟩

/-- The turns of `urlLine`. -/
lemma run_urlLine_turn (d : Cursor) (hd : d.Live) (hw : WithinLine stop d)
    (hmore : decide (d.read < stop) && !d.stopped) :
    Run e 23 (Form.urlPiece e) d (d.urlPiece stop) ∧ d.read < (d.urlPiece stop).read ∧
      WithinLine stop (d.urlPiece stop) := by
  have hlt : d.read < stop := by
    simp only [Bool.and_eq_true, decide_eq_true_eq] at hmore
    exact hmore.1
  obtain ⟨hrun, hgt, hle⟩ := run_urlPiece (e := e) hd hlt hw.2
  exact ⟨hrun, hgt, hw.of_run hrun hle⟩

/-- **The content of a URL on one line** ends exactly at its bound. -/
lemma run_urlLine (hc : c.Live) (hw : WithinLine stop c) :
    Run e 46 (Form.urlPiece e)∗ c (c.urlLine stop) ∧ (c.urlLine stop).read = stop := by
  obtain ⟨hrun, hend, hdone⟩ := Run.loopWhile (by decide) run_urlLine_turn hc hw
  exact ⟨hrun, read_eq_of_done hrun.live hend hdone⟩

/-- The same from a cursor `w` that has just warned about a method where `c` stands, so that only
its first turn is known to be a run from `c`. -/
lemma run_urlLine_of_first {w : Cursor} (hrest : w.rest = c.rest) (hread : w.read = c.read)
    (hx : w.exceeded = none) (hw : WithinLine stop c) (h : c.read < stop)
    (hfirst : Run e 23 (Form.urlPiece e) c (w.urlPiece stop) ∧ c.read < (w.urlPiece stop).read ∧
      (w.urlPiece stop).read ≤ stop) :
    Run e 46 (Form.urlPiece e)∗ c (w.urlLine stop) ∧ (w.urlLine stop).read = stop := by
  obtain ⟨hrun, hgt, hle⟩ := hfirst
  obtain ⟨t, us, hr, _⟩ := exists_of_lt_lineEnd (h.trans_le hw.2)
  have hmore : (decide (w.read < stop) && !w.stopped) = true := by
    simp [hread, h, stopped, atEnd, hrest, hr, hx]
  have heq : w.urlLine stop = iterate
      (fun c => if decide (c.read < stop) && !c.stopped then .again (c.urlPiece stop) else .done c)
      w.rest.length (w.urlPiece stop) := by
    rw [urlLine, loopWhile, loop, iterate]
    simp only [hmore, if_true]
  have hfin := hrun.finish_eq
  rw [finish, finish, ← hrest] at hfin
  obtain ⟨hloop, hend, hdone⟩ := Run.iterate (by decide) (turning_while run_urlLine_turn)
    w.rest.length hrun.live (hw.of_run hrun hle) (by omega)
  obtain ⟨hall, _⟩ := hloop.again hrun hgt (by decide)
  rw [heq]
  exact ⟨hall.weaken le_rfl (mul_one _).le, read_eq_of_done hall.live hend hdone⟩

/-- **The warning about a method** is left behind by the next token, so it hides no error. -/
lemma run_take_warned {d : Diagnostic} {k : Kind} {n : Nat} {L : TreeLanguage} (hc : c.Live)
    (hn : c.rest.take n ≠ []) (hb : Tree.Block (c.rest.take n) (k, Token.textOf (c.rest.take n)))
    (hw : [.leaf k (Token.textOf (c.rest.take n))] ∈ L) :
    Run e 1 L c ((c.fileAt c.offset d).look.take k n) := by
  by_cases hl : c.lastReport = some c.offset
  · rw [fileAt, if_pos hl]
    have hlook := run_look (e := e) hc
    exact (run_take hlook.live k n (by simpa using hb) (by simpa using hw)).after hlook
  rw [fileAt, if_neg hl]
  let w : Cursor := { c with reports := c.reports.push d, lastReport := some c.offset }
  have hsound : w.Sound := hc.report d
  change Run e 1 L c (w.look.take k n)
  have htook : Took (c.rest.take n) c (w.look.take k n) := by
    have h := took_take w.look k n
    simp only [look_rest] at h
    exact ⟨by simpa using h.rest, by simpa using h.read, by simpa using h.offset,
      by simpa using h.lineStart⟩
  refine ⟨hsound.look.take_live k (by simpa using hn), ?_, ?_, fun hp hf => ?_, ?_, ?_⟩
  · exact ⟨c.rest.take n, [.leaf k (Token.textOf (c.rest.take n))], htook, by simp [take, w],
      hb.over, fun _ => hw⟩
  · simp [take, w]
  · have hw0 : w.patience ≠ 0 := by
      change c.patience ≠ 0
      omega
    simpa [take, look, hw0] using hf
  · exact (min_le_right _ _).trans (Nat.le_succ _)
  · exact fun _ => Nat.le_succ _

/-- The first piece of a URL after that warning is the word it is about. -/
lemma run_urlPiece_warned {d : Diagnostic} (hc : c.Live) (hs : c.sees .word) (h : c.read < stop)
    (hl : stop ≤ c.lineEnd) :
    Run e 23 (Form.urlPiece e) c ((c.fileAt c.offset d).urlPiece stop) ∧
      c.read < ((c.fileAt c.offset d).urlPiece stop).read ∧
      ((c.fileAt c.offset d).urlPiece stop).read ≤ stop := by
  have hb := urlText_bounds h (hl.trans c.lineEnd_le_finish)
  obtain ⟨t, us, hr, hk⟩ := exists_of_sees hs
  rw [segment] at hb
  generalize hN : c.read + 1 + Lookahead.lengthBefore urlBreakKinds
    ((c.rest.take (stop - c.read)).drop 1) = N at hb
  have hlen : (c.rest.take (N - c.read)).length = N - c.read :=
    length_segment (hb.2.trans (hl.trans c.lineEnd_le_finish))
  have hne : c.rest.take (N - c.read) ≠ [] := fun h0 => by
    rw [h0, List.length_nil] at hlen
    omega
  have hline : ∀ t ∈ c.rest.take (N - c.read), t.kind ≠ .newline := fun t ht =>
    Lookahead.kind_of_mem_take (by rw [lineEnd] at hl; omega) ht
  -- a word begins none of the other pieces
  have hpiece : (c.fileAt c.offset d).urlPiece stop = (c.fileAt c.offset d).look.urlText stop := by
    simp [urlPiece, sees, hr, hk]
  have htext : (c.fileAt c.offset d).look.urlText stop
      = (c.fileAt c.offset d).look.take .text (N - c.read) := by
    simp only [urlText, textUntil, segment, look_rest, fileAt_rest, look_read, fileAt_read, hN]
    rw [if_neg (by simpa using hne)]
  have hrun : Run e 1 Form.text c ((c.fileAt c.offset d).look.take .text (N - c.read)) :=
    run_take_warned hc hne (.text hne hline) ⟨_, hne, hline, rfl⟩
  have hread : ((c.fileAt c.offset d).look.take .text (N - c.read)).read = N := by
    simp only [take, look_rest, look_read, fileAt_rest, fileAt_read, hlen]
    omega
  rw [hpiece, htext, hread]
  exact ⟨(hrun.weaken (by omega) le_rfl).inr, hb.1, hb.2⟩

/-! ### Versions -/

end Cursor

namespace Lookahead

/-- A version is three tokens. -/
lemma isVersion_iff {ts : List Token} : isVersion ts ↔ ∃ a b c us, ts = a :: b :: c :: us ∧
    a.kind = .word ∧ a.text = "HTTP" ∧ b.kind = .slash ∧ c.kind = .word ∧
      isVersionNumber c.text := by
  constructor
  · intro h
    simp only [isVersion, Bool.and_eq_true, beq_iff_eq] at h
    obtain ⟨⟨⟨⟨ha, htext⟩, hb⟩, hc⟩, hnumber⟩ := h
    obtain ⟨a, as, rfl, hka⟩ := exists_of_startsWith ha
    obtain ⟨b, bs, hbs, hkb⟩ := exists_of_startsWith hb
    obtain ⟨c, cs, hcs, hkc⟩ := exists_of_startsWith hc
    obtain rfl : as = b :: bs := hbs
    obtain rfl : bs = c :: cs := hcs
    exact ⟨a, b, c, cs, rfl, hka, htext, hkb, hkc, hnumber⟩
  · rintro ⟨a, b, c, us, rfl, ha, htext, hb, hc, hnumber⟩
    simp [isVersion, headText, ha, htext, hb, hc, hnumber]

lemma isVersion_le {ts : List Token} (h : isVersion ts) : 3 ≤ lineLength ts := by
  obtain ⟨a, b, c, us, rfl, ha, _, hb, hc, _⟩ := isVersion_iff.mp h
  simp [lineLength_cons, ha, hb, hc]

/-- A version stands after the content of a URL, and both on one line; without one the content is
all of the line but the blanks at its end. -/
lemma splitVersion_bounds (ts : List Token) :
    (splitVersion (line ts)).1 ≤ lineLength ts ∧
      ((splitVersion (line ts)).2 = none →
        (splitVersion (line ts)).1 = trimmedLength (line ts)) ∧
      ∀ v, (splitVersion (line ts)).2 = some v → v + 3 ≤ lineLength ts := by
  have hn := trimmedLength_le (line ts)
  rw [length_line] at hn
  simp only [splitVersion]
  split_ifs with h
  · simp only [Bool.and_eq_true] at h
    have hv := isVersion_le h.2
    have htake := trimmedLength_le ((line ts).take (trimmedLength (line ts) - 3))
    rw [List.length_take] at htake
    refine ⟨by omega, by simp, fun v hv' => ?_⟩
    obtain rfl := Option.some.inj hv'
    rw [lineLength_drop (by rw [lineLength_line]; omega), lineLength_line] at hv
    omega
  · exact ⟨hn, fun _ => rfl, by simp⟩

/-- A line that does not begin with a blank has URL content. -/
lemma splitVersion_pos {t : Token} {ts : List Token} (hn : t.kind ≠ .newline)
    (hb : t.kind ≠ .whitespace) : 0 < (splitVersion (line (t :: ts))).1 := by
  simp only [splitVersion, line_cons hn]
  split_ifs with h
  · simp only [Bool.and_eq_true, decide_eq_true_eq] at h
    obtain ⟨m, hm⟩ : ∃ m, trimmedLength (t :: line ts) - 3 = m + 1 :=
      ⟨trimmedLength (t :: line ts) - 4, by omega⟩
    rw [hm, List.take_succ_cons]
    exact trimmedLength_pos hb
  · exact trimmedLength_pos hb

end Lookahead

namespace Cursor

variable {e : Bool} {stop : Nat} {c : Cursor}

/-! ### URLs over several lines -/

/-- After the URL content of a line: blanks up to its end, or blanks up to a version. -/
structure AfterUrl (c : Cursor) (version : Option Nat) : Prop where
  blank : version = none → c.atBlankLine
  version : ∀ v, version = some v → v + 3 ≤ c.lineEnd
  midline : c.lineStart = false

lemma AfterUrl.closed {v : Option Nat} {K : Kind} {b : Array Tree} (h : AfterUrl c v) :
    AfterUrl (c.closed K b) v :=
  ⟨h.blank, h.version, h.midline⟩

/-- The end of the URL content that `splitVersion` finds. -/
lemma afterUrl_of_content {k : Nat} {L : TreeLanguage} {c' : Cursor} (h : Run e k L c c')
    (hr : c'.read = c.read + (Lookahead.splitVersion (Lookahead.line c.rest)).1)
    (hpos : 0 < (Lookahead.splitVersion (Lookahead.line c.rest)).1) :
    AfterUrl c' ((Lookahead.splitVersion (Lookahead.line c.rest)).2.map (c.read + ·)) := by
  obtain ⟨hle, hnone, hsome⟩ := Lookahead.splitVersion_bounds c.rest
  refine ⟨fun hv => ?_, fun v hv => ?_, h.midline (by rw [lineEnd]; omega) (by omega)⟩
  · have hn := hnone (Option.map_eq_none_iff.mp hv)
    refine Lookahead.isBlankLine_of_line fun t ht => ?_
    rw [h.rest_eq, hr, Nat.add_sub_cancel_left, Lookahead.line_drop hle, hn] at ht
    exact Lookahead.blank_of_mem_drop_trimmedLength ht
  · obtain ⟨i, hi, rfl⟩ := Option.map_eq_some_iff.mp hv
    have hi' := hsome i hi
    have hline : c.lineEnd = c.read + Lookahead.lineLength c.rest := rfl
    rw [h.lineEnd_eq (by omega)]
    omega

/-- On a blank line the blank leads to its end. -/
lemma eatBlank_of_blankLine (hc : c.Live) (hb : c.atBlankLine) :
    c.eatBlank.rest = [] ∨ c.eatBlank.sees .newline := by
  rw [atBlankLine, Lookahead.isBlankLine] at hb
  rw [sees, rest_eatBlank hc]
  split at hb
  · next h => exact Or.inl h
  · next t us h => exact Or.inr (by simpa [h] using hb)

/-- Where another line follows, this one has its terminator. -/
lemma sees_newline_of_indented (hc : c.Live) (hb : c.atBlankLine)
    (hn : Lookahead.nextLineIsIndented c.rest) : c.eatBlank.sees .newline := by
  refine (eatBlank_of_blankLine hc hb).resolve_left fun hr => ?_
  obtain ⟨hblank, _⟩ := run_eatBlank (e := true) hc
  have hle := eatBlank_le_lineEnd hc
  have hfin := hblank.finish_eq
  rw [finish, hr, List.length_nil, finish] at hfin
  rw [lineEnd] at hle
  have hnil : c.rest.drop (Lookahead.lineLength c.rest) = [] :=
    List.drop_of_length_le (by omega)
  simp [Lookahead.nextLineIsIndented, hnil] at hn

/-- A line with URL content: its first token is neither a blank nor a terminator. -/
def HasUrl (c : Cursor) : Prop :=
  ∃ t us, c.rest = t :: us ∧ t.kind ≠ .newline ∧ t.kind ≠ .whitespace

lemma HasUrl.pos (h : c.HasUrl) : 0 < (Lookahead.splitVersion (Lookahead.line c.rest)).1 := by
  obtain ⟨t, us, hr, hnl, hb⟩ := h
  rw [hr]
  exact Lookahead.splitVersion_pos hnl hb

lemma HasUrl.ne_nil (h : c.HasUrl) : c.rest ≠ [] := by
  obtain ⟨t, us, hr, _⟩ := h
  rw [hr]
  exact List.cons_ne_nil t us

/-- What follows the indentation of a line that is not blank is the content of a URL. -/
lemma hasUrl_of_skipBlanks {d : Cursor} {ts : List Token} (hr : d.rest = Lookahead.skipBlanks ts)
    (hb : ¬Lookahead.isBlankLine ts) : d.HasUrl := by
  rw [Lookahead.isBlankLine] at hb
  split at hb
  · simp at hb
  · next t us h =>
      refine ⟨t, us, hr.trans h, by simpa using hb, fun hk => ?_⟩
      have hnot := List.head?_dropWhile_not (fun t : Token => decide (t.kind = .whitespace)) ts
      rw [← Lookahead.skipBlanks, h] at hnot
      simp [hk] at hnot

/-- What is left behind the terminator of a blank line. -/
lemma rest_nextLine (hc : c.Live) (hb : c.atBlankLine)
    (hn : Lookahead.nextLineIsIndented c.rest) :
    c.eatBlank.eatNewline.rest = c.rest.drop (Lookahead.lineLength c.rest + 1) := by
  obtain ⟨hblank, _⟩ := run_eatBlank (e := true) hc
  have hs := sees_newline_of_indented hc hb hn
  obtain ⟨hnl, hread⟩ : Run true 1 (Form.leaf .newline) c.eatBlank c.eatBlank.eatNewline ∧
      c.eatBlank.eatNewline.read = c.eatBlank.read + 1 := run_eat_of_sees hblank.live hs
  obtain ⟨t, us, hr, hk⟩ := exists_of_sees hs
  have hend : c.eatBlank.read = c.lineEnd := by
    rw [← hblank.lineEnd_eq (eatBlank_le_lineEnd hc), lineEnd, hr, Lookahead.lineLength_cons,
      if_pos hk, Nat.add_zero]
  rw [lineEnd] at hend
  rw [(hblank.trans hnl).rest_eq, hread]
  congr 1
  omega

/-- A further line of a URL holds something. -/
lemma hasUrl_urlNextLine (hc : c.Live) (hb : c.atBlankLine)
    (hn : Lookahead.nextLineIsIndented c.rest) : c.eatBlank.eatNewline.eatBlank.HasUrl := by
  obtain ⟨hblank, _⟩ := run_eatBlank (e := true) hc
  obtain ⟨hnl, _⟩ := run_eatNewline (e := true) hblank.live
  refine hasUrl_of_skipBlanks (rest_eatBlank hnl.live) ?_
  rw [rest_nextLine hc hb hn, ← List.drop_drop]
  simp only [Lookahead.nextLineIsIndented, Bool.and_eq_true, Bool.not_eq_true'] at hn
  rw [hn.2]
  exact Bool.false_ne_true

/-- **A further line of a URL** takes its terminator. -/
lemma run_urlNextLine (hc : c.Live) (hb : c.atBlankLine)
    (hn : Lookahead.nextLineIsIndented c.rest) :
    Run e 49 (Form.urlNextLine e) c c.urlNextLine.1 ∧ c.read < c.urlNextLine.1.read ∧
      AfterUrl c.urlNextLine.1 c.urlNextLine.2 := by
  obtain ⟨hblank, _⟩ := run_eatBlank (e := e) hc
  have hs := sees_newline_of_indented hc hb hn
  obtain ⟨hnl, hread⟩ : Run e 1 (Form.leaf .newline) c.eatBlank c.eatBlank.eatNewline ∧
      c.eatBlank.eatNewline.read = c.eatBlank.read + 1 := run_eat_of_sees hblank.live hs
  obtain ⟨hind, _⟩ := run_eatBlank (e := e) hnl.live
  have hmono := hblank.read_le
  have hmono' := hind.read_le
  have hbounds := Lookahead.splitVersion_bounds c.eatBlank.eatNewline.eatBlank.rest
  obtain ⟨hurl, hend⟩ := run_urlLine (e := e) hind.live
    ⟨Nat.le_add_right _ _, Nat.add_le_add_left hbounds.1 _⟩
  have hafter := afterUrl_of_content hurl hend (hasUrl_urlNextLine hc hb hn).pos
  have hgt : c.read < _ := (show c.read < c.eatBlank.eatNewline.eatBlank.read by omega).trans_le
    hurl.read_le
  exact ⟨(((hblank.trans hnl).trans hind).trans hurl).weaken (by omega) le_rfl, hgt, hafter⟩

/-- **The further lines of a URL**, as many as there are. -/
lemma run_urlNextLines {version : Option Nat} (fuel : Nat) (hc : c.Live)
    (ha : AfterUrl c version) (hf : c.rest.length < fuel) :
    Looped e 49 ((Form.urlNextLine e)∗ * 1) c (c.urlNextLines version fuel).1 ∧
      AfterUrl (c.urlNextLines version fuel).1 (c.urlNextLines version fuel).2 := by
  induction fuel generalizing c version with
  | zero => exact absurd hf (Nat.not_lt_zero _)
  | succ fuel ih =>
      rw [urlNextLines]
      split_ifs with hmore
      · simp only [Bool.and_eq_true, Option.isNone_iff_eq_none] at hmore
        obtain ⟨hrun, hgt, hafter⟩ := run_urlNextLine (e := e) hc (ha.blank hmore.1) hmore.2
        have hfin := hrun.finish_eq
        obtain ⟨hloop, hafter'⟩ := ih hrun.live hafter (by rw [finish, finish] at hfin; omega)
        exact ⟨Or.inr (hloop.again hrun hgt (by decide)), hafter'⟩
      · refine ⟨Or.inl ((Run.refl hc).weaken (Nat.zero_le _) ?_), ha⟩
        rw [mul_one]
        exact one_le_kstar

/-! ### Request lines -/

/-- The content of a URL over all its lines, which `targetUrl` puts below one node, and where the
version after it begins. -/
def urlLines (c : Cursor) : Cursor × Option Nat :=
  let content := Lookahead.splitVersion (Lookahead.line c.rest)
  let first := c.urlLine (c.read + content.1)
  first.urlNextLines (content.2.map (c.read + ·)) (first.rest.length + 1)

lemma targetUrl_eq (h : c.HasUrl) :
    c.targetUrl = (c.opened.urlLines.1.closed .targetUrl c.built, c.opened.urlLines.2) := by
  simp only [targetUrl]
  rw [if_neg h.pos.ne']
  rfl

/-- **URLs**, from a cursor `w` that may just have warned about a method where `c` stands. -/
lemma run_urlLines_of_first {w : Cursor} (hrest : w.rest = c.rest) (hread : w.read = c.read)
    (hx : w.exceeded = none) (hurl : c.HasUrl)
    (hfirst : ∀ stop, c.read < stop → stop ≤ c.lineEnd →
      Run e 23 (Form.urlPiece e) c (w.urlPiece stop) ∧ c.read < (w.urlPiece stop).read ∧
        (w.urlPiece stop).read ≤ stop) :
    Run e 144 ((Form.urlPiece e)∗ * (Form.urlNextLine e)∗) c w.urlLines.1 ∧
      c.read < w.urlLines.1.read ∧ AfterUrl w.urlLines.1 w.urlLines.2 := by
  have hpos := Nat.lt_add_of_pos_right hurl.pos (n := c.read)
  have hstop : c.read + (Lookahead.splitVersion (Lookahead.line c.rest)).1 ≤ c.lineEnd :=
    Nat.add_le_add_left (Lookahead.splitVersion_bounds c.rest).1 _
  obtain ⟨hline, hend⟩ := run_urlLine_of_first hrest hread hx ⟨hpos.le, hstop⟩ hpos
    (hfirst _ hpos hstop)
  obtain ⟨hnext, hafter⟩ := run_urlNextLines (e := e) _ hline.live (afterUrl_of_content hline hend hurl.pos)
    (Nat.lt_succ_self _)
  simp only [urlLines, hrest, hread]
  refine ⟨?_, ?_, hafter⟩
  · rcases hnext with hlast | ⟨hmore, _⟩
    · exact (hline.trans hlast).weaken (by omega) (by rw [mul_one])
    · exact (hline.trans hmore).weaken (by omega) (by rw [mul_one])
  · refine (hpos.trans_le hend.ge).trans_le ?_
    rcases hnext with hlast | ⟨hmore, _⟩
    · exact hlast.read_le
    · exact hmore.read_le

lemma run_targetUrl (hc : c.Live) (hurl : c.HasUrl) :
    Run e 144 (Form.targetUrl e) c c.targetUrl.1 ∧ c.read < c.targetUrl.1.read ∧
      AfterUrl c.targetUrl.1 c.targetUrl.2 := by
  obtain ⟨hrun, hgt, hafter⟩ := run_urlLines_of_first (e := e) (c := c.opened) rfl rfl hc.exceeded
    hurl fun stop h hl => run_urlPiece hc.opened h hl
  rw [targetUrl_eq hurl]
  exact ⟨hrun.node, hgt, hafter.closed⟩

/-- The URL after a report is read as it is without one. -/
lemma targetUrl_fileAt {d : Diagnostic} (h : c.HasUrl) :
    (c.fileAt c.offset d).targetUrl
      = ((c.opened.fileAt c.opened.offset d).urlLines.1.closed .targetUrl c.built,
        (c.opened.fileAt c.opened.offset d).urlLines.2) := by
  have hopened : (c.fileAt c.offset d).opened = c.opened.fileAt c.opened.offset d := by
    by_cases hl : c.lastReport = some c.offset <;> simp [fileAt, opened, hl]
  have hbuilt : (c.fileAt c.offset d).built = c.built := by unfold fileAt; split <;> rfl
  have h' : (c.fileAt c.offset d).HasUrl := by rwa [HasUrl, fileAt_rest]
  rw [targetUrl_eq h', hbuilt, hopened]

lemma fileAt_exceeded (o : Nat) (d : Diagnostic) (c : Cursor) :
    (c.fileAt o d).exceeded = c.exceeded := by
  unfold fileAt; split <;> rfl

/-- The URL of a request after a warning that its first word is a method but for its letters. -/
lemma run_targetUrl_warned {d : Diagnostic} (hc : c.Live) (hs : c.sees .word) (hurl : c.HasUrl) :
    Run e 144 (Form.targetUrl e) c (c.fileAt c.offset d).targetUrl.1 ∧
      c.read < (c.fileAt c.offset d).targetUrl.1.read ∧
      AfterUrl (c.fileAt c.offset d).targetUrl.1 (c.fileAt c.offset d).targetUrl.2 := by
  obtain ⟨hrun, hgt, hafter⟩ := run_urlLines_of_first (e := e) (c := c.opened) (fileAt_rest ..)
    (fileAt_read ..) ((fileAt_exceeded _ d _).trans hc.exceeded) hurl
    fun stop h hl => run_urlPiece_warned hc.opened hs h hl
  rw [targetUrl_fileAt hurl]
  exact ⟨hrun.node, hgt, hafter.closed⟩

/-- A method in capitals, with the blank after it. -/
lemma run_method (hc : c.Live) (hs : c.sees .word) :
    Run e 1 (Form.node .method Form.text * Form.blank) c (c.leaf .method (c.read + 1)).eatBlank := by
  have hlt := read_lt_lineEnd_of_sees hs (by decide)
  obtain ⟨hrun, _⟩ := run_leaf (e := e) (K := .method) hc (Nat.lt_succ_self c.read) hlt
  obtain ⟨hblank, _⟩ := run_eatBlank (e := e) hrun.live
  exact hrun.trans hblank

/-- What stands in front of the URL of a request, where the next token has been seen: a method and
more on its line, or a word that only differs from a method in its letters, or nothing. -/
inductive MethodStep (c : Cursor) : Cursor → Prop
  | method (hs : c.sees .word) (hblank : Lookahead.startsWith .whitespace (c.rest.drop 1))
      (hmore : ¬Lookahead.isBlankLine (c.rest.drop 1))
      (hname : Lookahead.headText c.rest ∈ Lookahead.methods) :
      MethodStep c (c.leaf .method (c.read + 1)).eatBlank
  | warned (hs : c.sees .word) (d : Diagnostic) : MethodStep c (c.fileAt c.offset d)
  | bare : MethodStep c c

lemma method_step (c : Cursor) : MethodStep c.look c.method := by
  simp only [method]
  generalize c.look = d
  split_ifs with hword hmethod
  · simp only [Bool.and_eq_true, Bool.not_eq_true'] at hword
    exact .method hword.1.1 hword.1.2 (by rw [hword.2]; decide) (List.contains_iff_mem.mp hmethod)
  · simp only [Bool.and_eq_true] at hword
    rw [reportMethodCase]
    split
    · exact .warned hword.1.1 _
    · exact .bare
  · exact .bare

/-- After a method the line goes on. -/
lemma hasUrl_after_method (hlex : Token.Lexed c.rest) (hs : c.sees .word)
    (hb : ¬Lookahead.isBlankLine (c.rest.drop 1)) :
    (c.leaf .method (c.read + 1)).eatBlank.HasUrl := by
  obtain ⟨t, us, hr, _⟩ := exists_of_sees hs
  have hrest : (c.leaf .method (c.read + 1)).rest = c.rest.drop 1 := by
    simp [leaf, node, closed, opened, textUntil, segment, take, hr]
  have hblank := rest_eatBlank_of_lexed (c := c.leaf .method (c.read + 1))
    (by rw [hrest]; exact hlex.drop 1)
  rw [hrest] at hblank
  exact hasUrl_of_skipBlanks hblank hb

/-- **The URL of a request**, after a method or not. -/
lemma run_target (hc : c.Live) (hurl : c.HasUrl) :
    Run e 147 (Form.method * Form.targetUrl e) c c.method.targetUrl.1 ∧
      c.read < c.method.targetUrl.1.read ∧
      AfterUrl c.method.targetUrl.1 c.method.targetUrl.2 := by
  have hlook := run_look (e := e) hc
  have hread := look_read c
  have hurl' : c.look.HasUrl := by rwa [HasUrl, look_rest]
  have hstep := method_step c
  generalize c.look = d at *
  generalize c.method = m at hstep ⊢
  have hnone := (Run.refl (e := e) hlook.live).absent (L := Form.node .method Form.text * Form.blank)
  cases hstep with
  | method hs _ hmore _ =>
      have hm := run_method (e := e) hlook.live hs
      obtain ⟨hrun, hgt, hafter⟩ := run_targetUrl (e := e) hm.live
        (hasUrl_after_method hlook.live.lexed hs hmore)
      have hle := hm.read_le
      exact ⟨((hm.present.trans hrun).after hlook).weaken (by omega) le_rfl, by omega, hafter⟩
  | warned hs =>
      obtain ⟨hrun, hgt, hafter⟩ := run_targetUrl_warned (e := e) hlook.live hs hurl'
      exact ⟨((hnone.trans hrun).after hlook).weaken (by omega) le_rfl, hread.symm.trans_lt hgt,
        hafter⟩
  | bare =>
      obtain ⟨hrun, hgt, hafter⟩ := run_targetUrl (e := e) hlook.live hurl'
      exact ⟨((hnone.trans hrun).after hlook).weaken (by omega) le_rfl, by omega, hafter⟩

lemma run_version {position : Option Nat} (hc : c.Live) (ha : AfterUrl c position) :
    Run e 1 (Form.opt (Form.blank * Form.opt Form.version)) c (c.version position) := by
  rw [version.eq_def]
  cases position with
  | none => exact ((Run.refl hc).weaken (Nat.zero_le _) le_rfl).absent
  | some v =>
      obtain ⟨hblank, _⟩ := run_eatBlank (e := e) hc
      have hline := hblank.lineEnd_eq (eatBlank_le_lineEnd hc)
      have hle := ha.version v rfl
      dsimp only
      split_ifs with hv
      · obtain ⟨hrun, _⟩ := run_leaf (e := e) (K := .httpVersion) hblank.live
          (show c.eatBlank.read < v + 3 by omega) (by omega)
        exact (hblank.trans hrun.present).present
      · exact (hblank.trans (Run.refl hblank.live).absent).present

/-- **Request lines** end where a line begins. -/
lemma run_requestLine (hc : c.Live) (hurl : c.HasUrl) :
    LineRun e 151 (Form.requestLine e) c c.requestLine := by
  obtain ⟨htarget, hgt, hafter⟩ := run_target (e := e) hc hurl
  have hversion := run_version (e := e) htarget.live hafter
  obtain ⟨hend, ha, _⟩ := run_endLine (e := e) hversion.live "unexpected text after the URL"
  have hle := (hversion.trans hend).read_le
  exact ⟨(htarget.trans hversion).trans hend, hgt.trans_le hle, ha⟩

/-! ### Response lines -/

lemma run_statusText (hc : c.Live) :
    Run e 1 (Form.opt (Form.node .statusText Form.text) * Form.blank) c
        (if c.read < c.trimmedEnd c.lineEnd then c.leaf .statusText (c.trimmedEnd c.lineEnd)
          else c).eatBlank ∧
      (if c.read < c.trimmedEnd c.lineEnd then c.leaf .statusText (c.trimmedEnd c.lineEnd)
        else c).eatBlank.read = c.lineEnd := by
  have hf := c.lineEnd_le_finish
  have hb := trimmedEnd_bounds c.read_le_lineEnd
  split_ifs with h
  · obtain ⟨hrun, hread⟩ := run_leaf (e := e) (K := .statusText) hc h hb.2
    exact ⟨hrun.present.trans (run_eatBlank hrun.live).1,
      hrun.read_eatBlank hread.ge (hread.trans_le hb.2) hf c.not_blank_at_lineEnd⟩
  · have hrun := Run.refl (e := e) hc
    exact ⟨(hrun.absent.trans (run_eatBlank hc).1),
      hrun.read_eatBlank (by omega) c.read_le_lineEnd hf c.not_blank_at_lineEnd⟩

/-- A status reaches the end of its line. -/
lemma run_status (hc : c.Live) :
    Run e 3 (Form.status e) c c.status ∧ c.status.read = c.lineEnd := by
  have hlook := run_look (e := e) hc
  have hline := look_lineEnd c
  simp only [status]
  generalize c.look = d at *
  by_cases hs : d.sees .word && Lookahead.isStatusCode (Lookahead.headText d.rest)
  · rw [if_pos hs]
    simp only [Bool.and_eq_true] at hs
    have hlt := read_lt_lineEnd_of_sees hs.1 (by decide)
    obtain ⟨hcode, hread⟩ := run_leaf (e := e) (K := .statusCode) hlook.live
      (Nat.lt_succ_self d.read) hlt
    obtain ⟨hblank, _⟩ := run_eatBlank (e := e) hcode.live
    have hline' := (hcode.trans hblank).lineEnd_eq
      (hcode.stays (hread.trans_le hlt) (eatBlank_le_lineEnd hcode.live))
    obtain ⟨htext, hend⟩ := run_statusText (e := e) hblank.live
    exact ⟨(((hcode.trans hblank).trans htext).after hlook).inl,
      hend.trans (hline'.trans hline)⟩
  · rw [if_neg hs]
    obtain ⟨hrun, hread⟩ := run_rejectLine (e := e) (p := .expectedStatusCode) hlook.live rfl
      "expected a status code"
    exact ⟨((hrun.after hlook).weaken (by omega) le_rfl).inr, hread.trans hline⟩

/-- **Response lines** end where a line begins. -/
lemma run_responseLine (hc : c.Live) (hv : Lookahead.isVersion c.rest) :
    LineRun e 5 (Form.responseLine e) c c.responseLine := by
  have hlen := Lookahead.isVersion_le hv
  have hlt : c.read < c.read + 3 := by omega
  obtain ⟨hversion, hread⟩ := run_leaf (e := e) (K := .httpVersion) hc hlt
    (Nat.add_le_add_left hlen _)
  obtain ⟨hblank, _⟩ := run_eatBlank (e := e) hversion.live
  obtain ⟨hstatus, hend⟩ := run_status (e := e) hblank.live
  obtain ⟨hnl, _⟩ := run_eatNewline (e := e) hstatus.live
  have hline := hstatus.lineEnd_eq hend.le
  have hle := ((hblank.trans hstatus).trans hnl).read_le
  exact ⟨(((hversion.trans hblank).trans hstatus).trans hnl).weaken (by omega) le_rfl,
    (hlt.trans_le hread.ge).trans_le hle, aligned_eatNewline (hend.trans hline.symm)⟩

/-! ### Headers -/

lemma run_checkHeaderName (hc : c.Live) (stop : Nat) :
    Run e 0 1 c (c.checkHeaderName stop) ∧ (c.checkHeaderName stop).read = c.read := by
  simp only [checkHeaderName]
  split_ifs
  · exact ⟨Run.refl hc, rfl⟩
  · obtain ⟨hrun, _⟩ := run_report (e := e) (p := .invalidHeaderName) hc rfl
      (show (c.spanTo stop).start = c.offset from rfl) (Token.textOf (c.segment stop))
    exact ⟨hrun, fileAt_read ..⟩

/-- What follows the name of a header reaches the end of the line. -/
lemma run_headerValue (hc : c.Live) :
    Run e 13 (Form.headerValue e) c
        (c.on .colon
          (fun d => ((d.bump.eatBlank).value (d.bump.eatBlank.trimmedEnd c.lineEnd)).eatBlank)
          (rejectLine .expectedColon "expected `:` after header name")) ∧
      (c.on .colon
        (fun d => ((d.bump.eatBlank).value (d.bump.eatBlank.trimmedEnd c.lineEnd)).eatBlank)
        (rejectLine .expectedColon "expected `:` after header name")).read = c.lineEnd := by
  have hlook := run_look (e := e) hc
  have hline := look_lineEnd c
  by_cases hs : c.sees .colon
  · have hs' := (look_sees c _).trans hs
    rw [on_pos hs, ← hline]
    obtain ⟨hcolon, _⟩ := run_bump (e := e) hlook.live hs'
    obtain ⟨hblank, _⟩ := run_eatBlank (e := e) hcolon.live
    have hline' := (hcolon.trans hblank).lineEnd_eq
      (hcolon.stays (bump_le_lineEnd hs' (by decide)) (eatBlank_le_lineEnd hcolon.live))
    obtain ⟨hval, hend⟩ := run_trimmedValue (e := e) hblank.live
    rw [hline'] at hval hend
    exact ⟨(((hcolon.trans hblank).trans hval).after hlook).inl, hend⟩
  · rw [on_neg hs]
    obtain ⟨hrun, hread⟩ := run_rejectLine (e := e) (p := .expectedColon) hlook.live rfl
      "expected `:` after header name"
    exact ⟨((hrun.after hlook).weaken (by omega) le_rfl).inr, hread.trans hline⟩

/-- A header name where one begins. -/
lemma headerNameLength_bounds (hs : c.seesIn Lookahead.headerNameKinds) :
    0 < Lookahead.headerNameLength c.rest ∧
      c.read + Lookahead.headerNameLength c.rest ≤ c.lineEnd := by
  have hnl : Lookahead.headerNameKinds.contains .newline = false := by decide
  refine ⟨?_, Nat.add_le_add_left (Lookahead.length_takeWhile_le_lineLength hnl c.rest) _⟩
  rw [seesIn, Lookahead.startsIn] at hs
  cases hr : c.rest with
  | nil => simp [hr] at hs
  | cons t us =>
      have ht : Lookahead.headerNameKinds.contains t.kind := by simpa [hr] using hs
      simp [Lookahead.headerNameLength, ht]

/-- **Headers** end with their line. -/
lemma run_header (hc : c.Live) (hs : c.seesIn Lookahead.headerNameKinds) :
    LineRun e 15 (Form.header e) c c.header := by
  obtain ⟨hpos, hle⟩ := headerNameLength_bounds hs
  simp only [header, node]
  obtain ⟨hcheck, hcheck'⟩ := run_checkHeaderName (e := e) hc.opened
    (c.read + Lookahead.headerNameLength c.rest)
  have hline := hcheck.lineEnd_eq (hcheck'.trans_le c.opened.read_le_lineEnd)
  obtain ⟨hname, hread⟩ := run_leaf (e := e) (K := .headerEntity) hcheck.live
    (hcheck'.trans_lt (Nat.lt_add_of_pos_right hpos)) (hle.trans hline.ge)
  obtain ⟨hblank, _⟩ := run_eatBlank (e := e) hname.live
  obtain ⟨hval, hend⟩ := run_headerValue (e := e) hblank.live
  obtain ⟨hnl, _⟩ := run_eatNewline (e := e) hval.live
  have hline' := hval.lineEnd_eq hend.le
  have hmono := ((hblank.trans hval).trans hnl).read_le
  have hbody := ((((hname.trans hblank).trans hval).trans hnl).after hcheck)
  refine LineRun.node ⟨hbody.weaken (by omega) le_rfl, ?_, aligned_eatNewline (hend.trans hline'.symm)⟩
  exact ((Nat.lt_add_of_pos_right hpos).trans_le hread.ge).trans_le hmono

/-- A stray line without its terminator. -/
def strayContent (c : Cursor) : Cursor :=
  (c.file (((Diagnostic.new .unexpectedLine (c.spanTo c.lineEnd)).saying
    "expected a header or a blank line before the body").hinting
    "separate the body from the headers with a blank line")).errorUntil c.lineEnd

lemma run_strayContent (hc : c.Live) :
    Run e 0 (Form.rejected e) c c.strayContent ∧ c.strayContent.read = c.lineEnd := by
  obtain ⟨hfile, hfail⟩ := run_fileAt (e := e) (d := ((Diagnostic.new .unexpectedLine
      (c.spanTo c.lineEnd)).saying "expected a header or a blank line before the body").hinting
      "separate the body from the headers with a blank line") hc
    (isError_saying rfl (c.spanTo c.lineEnd) "expected a header or a blank line before the body")
  obtain ⟨hrej, hread⟩ := run_rejected le_rfl (hfile.lapse hfail) (fileAt_read ..)
  exact ⟨hrej, hread.trans (max_eq_right c.read_le_lineEnd)⟩

/-- **Stray lines** are taken whole. -/
lemma run_strayHeaderLine (hc : c.Live) (hb : ¬c.atBlankLine) :
    LineRun e 1 (Form.rejected e * Form.lineEnd) c c.strayHeaderLine := by
  obtain ⟨t, us, hr, hk⟩ := Lookahead.exists_of_not_isBlankLine hb
  have hlt := read_lt_lineEnd hr hk
  obtain ⟨hrej, hend⟩ := run_strayContent (e := e) hc
  obtain ⟨hnl, _⟩ := run_eatNewline (e := e) hrej.live
  have hline := hrej.lineEnd_eq hend.le
  exact ⟨(hrej.trans hnl).weaken (by omega) le_rfl, (hlt.trans_le hend.ge).trans_le hnl.read_le,
    aligned_eatNewline (hend.trans hline.symm)⟩

lemma sees_of_seesIn_commentKinds (h : c.seesIn Lookahead.commentKinds) :
    c.sees .hash ∨ c.sees .doubleSlash := by
  rw [seesIn, Lookahead.startsIn] at h
  cases hr : c.rest with
  | nil => simp [hr] at h
  | cons t us => simpa [hr, sees, Lookahead.commentKinds, KindSet.contains] using h

/-- **A line among the headers.** -/
lemma run_headerLine (hc : c.Live) (hb : ¬c.atBlankLine) :
    LineRun e 16 (Form.headerLine e) c c.headerLine := by
  have hlook := run_look (e := e) hc
  have hb' : ¬c.look.atBlankLine := by rwa [atBlankLine, look_rest]
  simp only [headerLine]
  generalize c.look = d at *
  split_ifs with hcomment hname
  · have hrun := run_comment (e := e) hlook.live (sees_of_seesIn_commentKinds hcomment)
    exact ((hrun.after hlook).weaken (by omega) le_rfl).inl.inl
  · exact ((run_header hlook.live hname).after hlook).inr.inl
  · exact (((run_strayHeaderLine hlook.live hb').after hlook).weaken (by omega) le_rfl).inr

/-- The turns of `headerLines`. -/
lemma run_headerLine_turn (d : Cursor) (hd : d.Live) (_ : d.Aligned)
    (hmore : !d.stopped && !d.atSeparator && !d.atBlankLine) :
    Run e 16 (Form.headerLine e) d d.headerLine ∧ d.read < d.headerLine.read ∧
      d.headerLine.Aligned := by
  simp only [Bool.and_eq_true, Bool.not_eq_true'] at hmore
  have hline := run_headerLine (e := e) hd (by rw [hmore.2]; decide)
  exact ⟨hline.toRun, hline.moved, hline.aligned⟩

/-- **Header lines** go on to a blank line, a separator or the end. -/
lemma run_headerLines (hc : c.Live) (ha : c.Aligned) :
    Run e 32 (Form.headerLine e)∗ c c.headerLines ∧ c.headerLines.Aligned ∧
      (c.headerLines.atEnd ∨ c.headerLines.atSeparator ∨ c.headerLines.atBlankLine) := by
  obtain ⟨hrun, ha', hdone⟩ : Run e 32 (Form.headerLine e)∗ c c.headerLines ∧
      c.headerLines.Aligned ∧ (!c.headerLines.stopped && !c.headerLines.atSeparator
        && !c.headerLines.atBlankLine) = false :=
    Run.loopWhile (by decide) run_headerLine_turn hc ha
  refine ⟨hrun, ha', ?_⟩
  rw [hrun.live.stopped_eq] at hdone
  by_contra hnot
  simp only [not_or, Bool.not_eq_true] at hnot
  simp [hnot.1, hnot.2.1, hnot.2.2] at hdone

end Cursor

end RequestFile
