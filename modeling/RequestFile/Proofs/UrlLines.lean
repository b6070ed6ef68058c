import RequestFile.Proofs.Canonical.Exact
import RequestFile.Proofs.Origin
import RequestFile.Proofs.Version

/-!
URLs and versions of requests.

The URL of a request goes on over indented lines until one ends with a version, and both are what the
lines of the source say (`Parsed.ofSource_versions`).

* **Lines.** A cursor behind the content of a URL on a line stands where `cutVersion` says (`OnUrl`).
  A further line leads from one such position to the next (`OnUrl.exists_next`), and all of them to
  the end of the URL that `cutUrl` tells (`OnUrl.exists_urlNextLines`).
* **Requests.** The URL is one node (`exists_buildsUrl`), the version is built where it was found
  (`exists_version`), and nothing else in a request is a version (`exists_message`).
-/

namespace RequestFile

open Lookahead (splitVersion line lineLength nextLineIsIndented)
open Token (scanFrom textOf)

namespace Cursor

variable {b : Bool} {cs content ending indent : List Char} {k : Nat} {L : TreeLanguage}
  {c c' w : Cursor} {l : TextLine} {ls : List TextLine} {version : Option Nat}

/-! ### Lines of a URL -/

/-- Behind the content of a URL on a line, with other lines after it. -/
structure OnUrl (c : Cursor) (version : Option Nat) (l : TextLine) (ls : List TextLine) : Prop where
  live : c.Live
  after : AfterUrl c version
  lines : ∃ b cs, c.rest = scanFrom b 0 cs ∧
    onto (cutVersion l.content).1 (RequestFile.textLines cs) = l :: ls
  version : Token.Behind c.read c.rest version (cutVersion l.content).2

/-- The text of a line on which a URL begins does not begin with a blank. -/
lemma HasUrl.exists_head (h : c.HasUrl) (hline : line c.rest = scanFrom b 0 content) :
    ∃ x ∈ content.head?, isBlank x = false := by
  obtain ⟨t, ts, hrest, hnl, hblank⟩ := h
  have hstart := Token.startsWith_blank b content
  rw [hrest, Lookahead.line_cons hnl] at hline
  rw [← hline, Lookahead.startsWith_cons, decide_eq_false hblank] at hstart
  cases hc : content.head? with
  | none =>
      obtain rfl := List.head?_eq_none_iff.mp hc
      cases hline
  | some x => exact ⟨x, rfl, by simpa [hc] using hstart.symm⟩

/-- The content of a URL on a line, whatever blanks stand in front of it. -/
lemma exists_onUrl (h : Run true k L c c') (hread : c'.read = c.read + (splitVersion (line c.rest)).1)
    (hurl : c.HasUrl) (hr : c.rest = scanFrom b 0 cs)
    (hl : RequestFile.textLines cs = ⟨content, ending⟩ :: ls) (hindent : ∀ c ∈ indent, isBlank c) :
    ∃ us, Took us c c' ∧ indent ++ (textOf us).toList = (cutVersion (indent ++ content)).1 ∧
      OnUrl c' ((splitVersion (line c.rest)).2.map (c.read + ·)) ⟨indent ++ content, ending⟩ ls := by
  have hafter := afterUrl_of_content h hread hurl.pos
  have hpos := hurl.pos
  have hline : line c.rest = scanFrom b 0 content := hr ▸ Token.line_scanFrom hl b
  obtain ⟨us, bs, hscan, hlength, htext, hbehind⟩ :=
    Token.exists_content hindent (hurl.exists_head hline) b
  rw [← hline] at hscan hlength hbehind
  rw [hlength] at hread hpos
  -- the tokens taken are the content, and behind it stands the rest of the line
  obtain ⟨ts, _, htook, _⟩ := h.grew
  have hrest : c.rest = us ++ (bs ++ c.rest.drop (lineLength c.rest)) := by
    rw [← List.append_assoc, ← hscan, ← Lookahead.take_lineLength, List.take_append_drop]
  obtain rfl : ts = us := by
    rw [htook.eq_take hread, hrest, List.take_left]
  have hbehind' := (hbehind.append (c.rest.drop (lineLength c.rest))).shift c.read
  rw [← List.append_cancel_left (htook.rest.symm.trans hrest), ← hread] at hbehind'
  have hback := Token.scanFrom_behind (hr.symm.trans htook.rest)
  have hsource := Token.eq_of_scanFrom_append (hr.symm.trans htook.rest)
  have hfront : (textOf ts).toList <+: content :=
    ⟨_, (Token.eq_of_scanFrom_append (hline.symm.trans hscan)).symm⟩
  -- no character of the content ends a line, so what is left begins on the same line of text
  have hone : ∀ x ∈ (textOf ts).toList, x ≠ '\n' ∧ x ≠ '\r' := fun x hx => by
    obtain ⟨_, _, hone, _⟩ := exists_of_textLines hl
    exact hone x (hfront.subset hx)
  have hne : (textOf ts).toList ≠ [] := by
    obtain ⟨t, rest, rfl⟩ := List.exists_cons_of_length_pos hpos
    have ht : t ∈ scanFrom b 0 cs := by
      rw [← hr, hrest]
      exact List.mem_append_left _ List.mem_cons_self
    rw [Token.textOf_cons, String.toList_append]
    exact List.append_ne_nil_of_left_ne_nil ((Token.lexed_scanFrom b cs).toList_ne_nil ht) _
  refine ⟨ts, htook, htext, h.live, hafter, ⟨_, _, hback, ?_⟩, hbehind'⟩
  rw [← htext, ← onto_onto, ← textLines_append hne hone, ← hsource, hl]
  rfl

namespace OnUrl

/-- The next line is indented where the text says so. -/
lemma nextLineIsIndented_eq (h : OnUrl c version l ls) :
    nextLineIsIndented c.rest = ls.head?.any TextLine.isIndented := by
  obtain ⟨b, cs, hr, hlines⟩ := h.lines
  by_cases hne : scanFrom b 0 cs = []
  · rw [Token.scanFrom_eq_nil.mp hne] at hlines
    rw [hr, hne, ← (List.cons.inj hlines).2]
    rfl
  · obtain ⟨l', ls', b', cs', hl', hls', _, _, hdrop⟩ := Token.exists_nextLine hne
    rw [hl'] at hlines
    rw [nextLineIsIndented, hr, List.drop_drop, hdrop, Token.isIndented_scanFrom, hls',
      ← (List.cons.inj hlines).2]

/-- The indentation of the next line, and the text behind it. -/
lemma exists_indent (h : OnUrl c none l ls) (hn : nextLineIsIndented c.rest) :
    ∃ ts indent content ending rest b cs, ls = ⟨indent ++ content, ending⟩ :: rest ∧
      (∀ x ∈ indent, isBlank x) ∧ c.eatBlank.eatNewline.eatBlank.Live ∧
      Took ts c c.eatBlank.eatNewline.eatBlank ∧
      (cutVersion l.content).1 ++ (textOf ts).toList = l.chars ++ indent ∧
      c.eatBlank.eatNewline.eatBlank.rest = scanFrom b 0 cs ∧
      RequestFile.textLines cs = ⟨content, ending⟩ :: rest := by
  have hurl := hasUrl_urlNextLine h.live (h.after.blank rfl) hn
  have hrest := rest_nextLine h.live (h.after.blank rfl) hn
  obtain ⟨b, cs, hr, hlines⟩ := h.lines
  have hne : scanFrom b 0 cs ≠ [] := by
    rintro hnil
    rw [hr, hnil] at hn
    cases hn
  obtain ⟨l', ls', b', cs', hl', rfl, hcs, hfirst, hdrop⟩ := Token.exists_nextLine hne
  rw [hl', onto] at hlines
  obtain ⟨hl, rfl⟩ := List.cons.inj hlines
  have hchars : l.chars = (cutVersion l.content).1 ++ l'.chars := by
    conv_lhs => rw [← hl]
    rw [TextLine.chars, List.append_assoc, TextLine.chars]
  obtain ⟨hblank, _⟩ := run_eatBlank (e := true) h.live
  obtain ⟨hnl, _⟩ := run_eatNewline (e := true) hblank.live
  obtain ⟨hind, _⟩ := run_eatBlank (e := true) hnl.live
  have hlive := hind.live
  obtain ⟨ts, _, htook, _⟩ := ((hblank.trans hnl).trans hind).grew
  have hskip := rest_eatBlank hnl.live
  rw [hrest, hr, hdrop] at hskip
  generalize c.eatBlank.eatNewline.eatBlank = d at *
  -- what is taken is the rest of the line and the blanks at the beginning of the next
  let spaces := (scanFrom b' 0 cs').takeWhile (·.kind = .whitespace)
  have hspaces : scanFrom b' 0 cs' = spaces ++ d.rest := by
    rw [hskip, Lookahead.skipBlanks, List.takeWhile_append_dropWhile]
  have hts : ts = (scanFrom b 0 cs).take (lineLength (scanFrom b 0 cs) + 1) ++ spaces := by
    refine List.append_cancel_right (htook.rest.symm.trans ?_)
    rw [hr, List.append_assoc, ← hspaces, ← hdrop, List.take_append_drop]
  have hsource := Token.eq_of_scanFrom_append hspaces
  have hindent : ∀ x ∈ (textOf spaces).toList, isBlank x :=
    Token.isBlank_of_mem_textOf (fun t ht => (List.takeWhile_prefix _).subset ht)
      fun t ht => by simpa using List.mem_takeWhile_imp ht
  have hone : ∀ x ∈ (textOf spaces).toList, x ≠ '\n' ∧ x ≠ '\r' := fun x hx => by
    have hblank := hindent x hx
    constructor <;> rintro rfl <;> exact absurd hblank (by decide)
  have hback := Token.scanFrom_behind hspaces
  obtain ⟨next, rest, _, _, hnext, _⟩ := Token.exists_nextLine (hback ▸ hurl.ne_nil)
  refine ⟨ts, (textOf spaces).toList, next.content, next.ending, rest, _, _, ?_, hindent, hlive,
    htook, ?_, hback, hnext⟩
  · rw [hsource, textLines_append_cons hone hnext]
  · rw [hts, Token.textOf_append, hfirst, String.toList_append, String.toList_ofList, hchars,
      List.append_assoc]

/-- **A further line** leads from the content of one line to that of the next. -/
lemma exists_next (h : OnUrl c none l ls) (hn : nextLineIsIndented c.rest) : ∃ next rest ts,
    ls = next :: rest ∧ Took ts c c.urlNextLine.1 ∧
      (cutVersion l.content).1 ++ (textOf ts).toList = l.chars ++ (cutVersion next.content).1 ∧
      OnUrl c.urlNextLine.1 c.urlNextLine.2 next rest := by
  have hurl := hasUrl_urlNextLine h.live (h.after.blank rfl) hn
  obtain ⟨ts, indent, content, ending, rest, b, cs, rfl, hindent, hlive, htook, hfront, hr,
    hlines⟩ := h.exists_indent hn
  simp only [urlNextLine]
  have hbounds := Lookahead.splitVersion_bounds c.eatBlank.eatNewline.eatBlank.rest
  obtain ⟨hrun, hend⟩ := run_urlLine (e := true) hlive
    ⟨Nat.le_add_right _ _, Nat.add_le_add_left hbounds.1 _⟩
  generalize c.eatBlank.eatNewline.eatBlank = d at *
  obtain ⟨us, hus, htext, honurl⟩ := exists_onUrl hrun hend hurl hr hlines hindent
  refine ⟨_, rest, ts ++ us, rfl, htook.trans hus, ?_, honurl⟩
  rw [Token.textOf_append, String.toList_append, ← List.append_assoc, hfront, List.append_assoc,
    htext]

/-- **The lines of a URL**, as many as there are, by induction on how many may follow. -/
lemma exists_urlNextLines (fuel : Nat) (h : OnUrl c version l ls) (hf : c.rest.length < fuel) :
    ∃ ts, Took ts c (c.urlNextLines version fuel).1 ∧
      (cutVersion l.content).1 ++ (textOf ts).toList = (cutUrl l ls).1 ∧
      Token.Behind (c.urlNextLines version fuel).1.read (c.urlNextLines version fuel).1.rest
        (c.urlNextLines version fuel).2 (cutUrl l ls).2 := by
  induction fuel generalizing c version l ls with
  | zero => exact absurd hf (Nat.not_lt_zero _)
  | succ fuel ih =>
      have hcut := h.version.none_iff
      have hindented := h.nextLineIsIndented_eq
      rw [urlNextLines]
      split_ifs with hmore
      · simp only [Bool.and_eq_true, Option.isNone_iff_eq_none] at hmore
        obtain ⟨rfl, hn⟩ := hmore
        obtain ⟨next, rest, ts, rfl, htook, htext, honurl⟩ := h.exists_next hn
        obtain ⟨hrun, hgt, _⟩ := run_urlNextLine (e := true) h.live (h.after.blank rfl) hn
        have hfin := hrun.finish_eq
        rw [finish, finish] at hfin
        obtain ⟨us, hus, htext', hversion⟩ := ih honurl (by omega)
        rw [cutUrl, if_pos ⟨hcut.mp rfl, hindented.symm.trans hn⟩]
        refine ⟨ts ++ us, htook.trans hus, ?_, hversion⟩
        rw [Token.textOf_append, String.toList_append, ← List.append_assoc, htext,
          List.append_assoc, htext']
      -- the text stops on this line for the reason for which the loop does
      · have hend : cutUrl l ls = cutVersion l.content := by
          cases ls with
          | nil => rfl
          | cons next rest =>
              rw [cutUrl, if_neg]
              rintro ⟨hnone, hnext⟩
              rw [hcut.mpr hnone, hindented] at hmore
              exact hmore hnext
        rw [hend]
        exact ⟨[], .refl c, by simp, h.version⟩

end OnUrl

/-- **URLs**, from a cursor `w` that may just have warned about a method where `c` stands. -/
lemma exists_urlLines_of_first (hrest : w.rest = c.rest) (hread : w.read = c.read)
    (hx : w.exceeded = none) (hurl : c.HasUrl)
    (hfirst : ∀ stop, c.read < stop → stop ≤ c.lineEnd →
      Run true 23 (Form.urlPiece true) c (w.urlPiece stop) ∧ c.read < (w.urlPiece stop).read ∧
        (w.urlPiece stop).read ≤ stop)
    (hr : c.rest = scanFrom b 0 cs) (hl : RequestFile.textLines cs = l :: ls) :
    ∃ ts, Took ts c w.urlLines.1 ∧ (textOf ts).toList = (cutUrl l ls).1 ∧
      Token.Behind w.urlLines.1.read w.urlLines.1.rest w.urlLines.2 (cutUrl l ls).2 := by
  have hpos := Nat.lt_add_of_pos_right hurl.pos (n := c.read)
  have hstop : c.read + (splitVersion (line c.rest)).1 ≤ c.lineEnd :=
    Nat.add_le_add_left (Lookahead.splitVersion_bounds c.rest).1 _
  obtain ⟨hline, hend⟩ := run_urlLine_of_first hrest hread hx ⟨hpos.le, hstop⟩ hpos
    (hfirst _ hpos hstop)
  obtain ⟨us, hus, htext, honurl⟩ : ∃ us, Took us c _ ∧ [] ++ (textOf us).toList = _ ∧
      OnUrl _ _ l ls := exists_onUrl hline hend hurl hr hl (fun x hx => absurd hx List.not_mem_nil)
  obtain ⟨ts, hts, htext', hversion⟩ := honurl.exists_urlNextLines _ (Nat.lt_succ_self _)
  simp only [urlLines, hrest, hread]
  refine ⟨us ++ ts, hus.trans hts, ?_, hversion⟩
  rw [Token.textOf_append, String.toList_append, ← htext', ← List.nil_append (textOf us).toList,
    htext]
  rfl

/-! ### Requests -/

/-- From `c` to `c'` the URL of a request has been built, that some lines tell. -/
structure BuildsUrl (c c' : Cursor) (version : Option Nat) (url : Tree) (l : TextLine)
    (ls : List TextLine) : Prop where
  built : c'.built.toList = c.built.toList ++ [url]
  node : url.isNode
  kind : url.kind = .targetUrl
  text : url.text = String.ofList (cutUrl l ls).1
  version : Token.Behind c'.read c'.rest version (cutUrl l ls).2

/-- A node over the lines of a URL. -/
lemma exists_buildsUrl_of_lines {ts : List Token} {u : Cursor}
    (h : Run true k (Form.targetUrl true) c (u.closed .targetUrl c.built)) (htook : Took ts c u)
    (htext : (textOf ts).toList = (cutUrl l ls).1)
    (hv : Token.Behind u.read u.rest version (cutUrl l ls).2) :
    ∃ url, BuildsUrl c (u.closed .targetUrl c.built) version url l ls := by
  obtain ⟨us, new, ht, hb, hover, hn⟩ := h.grew
  obtain rfl : us = ts := (ht.eq_take ht.read).trans (htook.eq_take (by rw [← ht.read]; rfl)).symm
  obtain ⟨trees, _, rfl⟩ := hn fun _ => rfl
  refine ⟨_, hb, rfl, rfl, ?_, hv⟩
  rw [← Tree.textOf_singleton, Tree.textOf, hover.join_eq, ← htext, String.ofList_toList]

/-- **The URL of a request.** -/
lemma exists_buildsUrl (hc : c.Live) (hurl : c.HasUrl) (hr : c.rest = scanFrom b 0 cs)
    (hl : RequestFile.textLines cs = l :: ls) :
    ∃ url, BuildsUrl c c.targetUrl.1 c.targetUrl.2 url l ls := by
  obtain ⟨ts, htook, htext, hv⟩ := exists_urlLines_of_first (c := c.opened) rfl rfl hc.exceeded hurl
    (fun stop h hl => run_urlPiece hc.opened h hl) hr hl
  have hrun := (run_targetUrl (e := true) hc hurl).1
  rw [targetUrl_eq hurl] at hrun ⊢
  exact exists_buildsUrl_of_lines hrun ⟨htook.rest, htook.read, htook.offset, htook.lineStart⟩
    htext hv

lemma exists_buildsUrl_warned {d : Diagnostic} (hc : c.Live) (hs : c.sees .word) (hurl : c.HasUrl)
    (hr : c.rest = scanFrom b 0 cs) (hl : RequestFile.textLines cs = l :: ls) :
    ∃ url, BuildsUrl c (c.fileAt c.offset d).targetUrl.1 (c.fileAt c.offset d).targetUrl.2 url l
      ls := by
  obtain ⟨ts, htook, htext, hv⟩ := exists_urlLines_of_first (c := c.opened) (fileAt_rest ..)
    (fileAt_read ..) ((fileAt_exceeded _ d _).trans hc.exceeded) hurl
    (fun stop h hl => run_urlPiece_warned hc.opened hs h hl) hr hl
  have hrun := (run_targetUrl_warned (e := true) (d := d) hc hs hurl).1
  rw [targetUrl_fileAt hurl] at hrun ⊢
  exact exists_buildsUrl_of_lines hrun ⟨htook.rest, htook.read, htook.offset, htook.lineStart⟩
    htext hv

/-- The nodes of a method in front of a URL, if there is one. -/
def IsMethod (lead : List Tree) : Prop :=
  lead = [] ∨ ∃ name blank, lead = [.node .method [.leaf .text name], .leaf .whitespace blank]

/-- **A method**, and a cursor from which the URL is built behind it. -/
lemma exists_method (hc : c.Live) (hurl : c.HasUrl) : ∃ ts lead d, IsMethod lead ∧
    Exact ts lead c d ∧ d.HasUrl ∧ ∀ b cs l ls, d.rest = scanFrom b 0 cs →
      RequestFile.textLines cs = l :: ls →
        ∃ url, BuildsUrl d c.method.targetUrl.1 c.method.targetUrl.2 url l ls := by
  have hlook := exact_look hc
  have hurl' : c.look.HasUrl := by rwa [HasUrl, look_rest]
  have hstep := method_step c
  generalize c.look = d at *
  generalize c.method = m at hstep ⊢
  cases hstep with
  | method hs hblank hmore _ =>
      obtain ⟨t, us, hr, _⟩ := exists_of_sees hs
      rw [hr, List.drop_one, List.tail_cons] at hblank
      obtain ⟨u, vs, rfl, hu⟩ := Lookahead.exists_of_startsWith hblank
      have hleaf := exact_leaf (K := .method) hlook.live (show d.rest = [t] ++ u :: vs from hr)
        (List.cons_ne_nil t []) (rfl : d.read + 1 = d.read + [t].length)
      have heat := exact_eat hleaf.live (hleaf.rest_eq hr) hu
      have hboth := hlook.trans (hleaf.trans heat)
      have hurl'' := hasUrl_after_method hlook.live.lexed hs hmore
      exact ⟨_, _, _, .inr ⟨_, _, rfl⟩, hboth, hurl'', fun b cs l ls hrest hl =>
        exists_buildsUrl hboth.live hurl'' hrest hl⟩
  | warned hs => exact ⟨[], [], d, .inl rfl, hlook, hurl', fun b cs l ls hrest hl =>
      exists_buildsUrl_warned hlook.live hs hurl' hrest hl⟩
  | bare => exact ⟨[], [], d, .inl rfl, hlook, hurl', fun b cs l ls hrest hl =>
      exists_buildsUrl hlook.live hurl' hrest hl⟩

/-- A version that has been found is built, behind its blank. -/
lemma exists_version {w : Option (List Char)} (hc : c.Live)
    (h : Token.Behind c.read c.rest version w) : ∃ new,
      (c.version version).built.toList = c.built.toList ++ new ∧
      (new.find? fun t => t.isNode && t.kind == .httpVersion).map Tree.text
        = w.map String.ofList := by
  cases h with
  | nothing => exact ⟨[], (List.append_nil _).symm, rfl⟩
  | @version t vs us hr ht hv hlen =>
      have heat := exact_eat hc hr ht
      have hne : vs ≠ [] := by
        rintro rfl
        cases hlen
      have hread : c.eatBlank.read = c.read + 1 := heat.read
      have hleaf := exact_leaf (K := .httpVersion) heat.live (heat.rest_eq hr) hne
        (show c.eatBlank.read + 3 = c.eatBlank.read + vs.length by rw [hlen])
      have heq : c.version (some (c.read + 1))
          = c.eatBlank.leaf .httpVersion (c.eatBlank.read + 3) := by
        simp [Cursor.version, hread]
      refine ⟨[.leaf .whitespace t.text, .node .httpVersion [.leaf .text (textOf vs)]], ?_, ?_⟩
      · rw [heq]
        exact (heat.trans hleaf).built
      · simp [Tree.isNode, Tree.kind, Tree.text_node, Tree.textOf_leaf]

/-- A row of other nodes does not matter for the first of a kind. -/
lemma find?_append_of_none {K : Kind} {new : List Tree} (ts : List Tree)
    (h : ∀ t ∈ new, t.isNode → (t.kind == K) = false) :
    ((ts ++ new).find? fun t => t.isNode && t.kind == K)
      = ts.find? fun t => t.isNode && t.kind == K := by
  have hnone : (new.find? fun t => t.isNode && t.kind == K) = none :=
    List.find?_eq_none.mpr fun t ht => by
      by_cases hnode : t.isNode <;> simp [hnode, h t ht]
  rw [List.find?_append, hnone, Option.or_none]

/-- **Requests**: a method, a URL, a version, and what else they hold. -/
lemma exists_message (hc : c.Live) (hurl : c.HasUrl) (hr : c.rest = scanFrom b 0 cs) :
    ∃ lead url cs' l ls tail, IsMethod lead ∧ cs = (Tree.textOf lead).toList ++ cs' ∧
      RequestFile.textLines cs' = l :: ls ∧
      c.requestLine.message.built.toList = c.built.toList ++ (lead ++ url :: tail) ∧
      url.isNode ∧ url.kind = .targetUrl ∧ url.text = String.ofList (cutUrl l ls).1 ∧
      (tail.find? fun t => t.isNode && t.kind == .httpVersion).map Tree.text
        = (cutUrl l ls).2.map String.ofList := by
  obtain ⟨ts, lead, d, hlead, hexact, hurl', hreads⟩ := exists_method hc hurl
  -- the URL begins behind the method
  have hback := Token.scanFrom_behind (hr.symm.trans hexact.rest)
  have hsource := Token.eq_of_scanFrom_append (hr.symm.trans hexact.rest)
  rw [← hexact.text] at hsource
  obtain ⟨l, ls, _, _, hl, _⟩ := Token.exists_nextLine (hback ▸ hurl'.ne_nil)
  obtain ⟨url, hread⟩ := hreads _ _ l ls hback hl
  obtain ⟨htarget, _, hafter⟩ := run_target (e := true) hc hurl
  obtain ⟨new, hnew, hversion⟩ := exists_version htarget.live hread.version
  -- nothing behind it holds another version
  have hline := run_requestLine (e := true) hc hurl
  obtain ⟨hend, _, _⟩ := run_endLine (e := true) (run_version (e := true) htarget.live hafter).live
    "unexpected text after the URL"
  obtain ⟨hmessage, _⟩ := run_message (e := true) hline.live hline.aligned
  obtain ⟨_, rest, _, hrest, _, hmem⟩ := hend.grew
  obtain ⟨_, body, _, hbody, _, hmem'⟩ := hmessage.grew
  have hnone := Form.none_of_tally (p := (· == Kind.httpVersion)) (by decide) (hmem fun _ => rfl)
  have hnone' := Form.none_of_tally (p := (· == Kind.httpVersion)) (by decide) (hmem' fun _ => rfl)
  refine ⟨lead, url, _, l, ls, new ++ rest ++ body, hlead, hsource, hl, ?_, hread.node, hread.kind,
    hread.text, ?_⟩
  · have hrequest : c.requestLine.built.toList = _ := hrest
    rw [hbody, hrequest, hnew, hread.built, hexact.built]
    simp
  · rw [find?_append_of_none _ hnone', find?_append_of_none _ hnone, hversion]

end Cursor

/-! ### Whole parses -/

namespace Tree

/-- A request at a site begins with a method, if it has one, and a URL, and from the URL on the source
goes on as `cs`. -/
structure Site.Targets (source : String) (s : Site) (lead : List Tree) (url : Tree)
    (cs : List Char) : Prop where
  children : ∃ tail, s.tree.children = lead ++ url :: tail
  method : Cursor.IsMethod lead
  url : s.tree.child? .targetUrl = some url
  source : source.toList = (String.join (s.front.map Prod.snd)).toList ++ ((textOf lead).toList ++ cs)

/-- The first lines of a request, at its site. -/
lemma Site.HasOrigin.exists_targets {source : String} {s : Site}
    (h : s.HasOrigin (Token.scan source)) (hk : s.tree.kind = .request) :
    ∃ lead url cs l ls, s.Targets source lead url cs ∧ RequestFile.textLines cs = l :: ls ∧
      url.text = String.ofList (cutUrl l ls).1 ∧
      (s.tree.child? .httpVersion).map Tree.text = (cutUrl l ls).2.map String.ofList := by
  obtain ⟨c, hc, hurl, ⟨before, hall, hover, _⟩, hbuilt⟩ := h.request hk
  have hback := Token.scanFrom_behind hall
  obtain ⟨lead, url, cs, l, ls, tail, hlead, hsource, hl, hrow, hnode, hkind, htext, hversion⟩ :=
    Cursor.exists_message (c := c.lowered.opened) hc.lowered.opened hurl hback
  have htree := List.singleton_inj.mp
    (List.append_cancel_left (hbuilt.symm.trans (Cursor.request_built hc)))
  have hchildren : s.tree.children = lead ++ url :: tail := by
    rw [htree]
    exact hrow
  -- a method is neither of the nodes that are looked for, so the first ones are behind it
  have hmethod : lead.find? (fun t => t.isNode && t.kind == .targetUrl) = none ∧
      lead.find? (fun t => t.isNode && t.kind == .httpVersion) = none := by
    rcases hlead with rfl | ⟨name, blank, rfl⟩ <;> simp [Tree.isNode, Tree.kind]
  have hurl' : (url.kind == .targetUrl) = true ∧ (url.kind == .httpVersion) = false := by
    rw [hkind]
    decide
  refine ⟨lead, url, cs, l, ls, ⟨⟨tail, hchildren⟩, hlead, ?_, ?_⟩, hl, htext, ?_⟩
  · rw [child?, hchildren, List.find?_append, hmethod.1, Option.none_or]
    simp [hnode, hurl'.1]
  · have hscan := Token.textOf_scan source
    rw [hall, Token.textOf_append] at hscan
    rw [← hsource, hover.join_eq, ← String.toList_append]
    exact congrArg String.toList hscan.symm
  · rw [child?, hchildren, List.find?_append, hmethod.2, Option.none_or, ← hversion]
    simp [hnode, hurl'.2]

end Tree

/-- **The URL and the version of every request**, whatever the source is. The URL stands on the line
of the request and on the indented lines that follow it, up to the first that ends with a version. A
version is the last word of such a line, `HTTP/` and a number, where something of the URL stands in
front of it on the same line; then the request has it for its version, and the URL ends in front of
it. A request without such a word has no version. -/
theorem Parsed.ofSource_versions (source : String) :
    ∃ p, Parsed.ofSource .unlimited source = .ok p ∧ ∀ s ∈ p.tree.sites [] [],
      s.tree.kind = .request → ∃ lead url cs l ls, s.Targets source lead url cs ∧
        textLines cs = l :: ls ∧ url.text = String.ofList (cutUrl l ls).1 ∧
        (s.tree.child? .httpVersion).map Tree.text = (cutUrl l ls).2.map String.ofList := by
  obtain ⟨p, hp, _⟩ := Parsed.ofSource_unlimited source
  exact ⟨p, hp, fun s hs hk => (Parsed.hasOrigin hp s hs).exists_targets hk⟩

/-- A URL on three lines, with a version behind it. -/
example : ∃ l ls, textLines "/search\n  ?q=rust\n  &page=2 HTTP/1.1\nAccept: */*\n".toList = l :: ls ∧
    cutUrl l ls = ("/search\n  ?q=rust\n  &page=2".toList, some "HTTP/1.1".toList) :=
  ⟨_, _, rfl, by decide +kernel⟩

/-- A version alone on a further line is no version, but the end of the URL. -/
theorem Parsed.not_ofSource_versions :
    ∃ d, Document.parse Document.defaultLimits "GET /a\n  HTTP/1.1\n" = .ok d ∧
      ∃ u ∈ d.tree.nodesOf .request, (u.child? .targetUrl).map Tree.text = some "/a\n  HTTP/1.1" ∧
        u.child? .httpVersion = none ∧
        cutVersion "/a\n  HTTP/1.1".toList = ("/a\n".toList, some "HTTP/1.1".toList) := by
  have hread : ∃ d, Document.parse Document.defaultLimits "GET /a\n  HTTP/1.1\n" = .ok d ∧
      ((d.tree.nodesOf .request).any fun u =>
        (u.child? .targetUrl).map Tree.text == some "/a\n  HTTP/1.1" &&
          (u.child? .httpVersion).isNone) :=
    Document.exists_ok_of_any (by decide +kernel)
  obtain ⟨d, hd, hany⟩ := hread
  obtain ⟨u, hu, htext⟩ := List.any_eq_true.mp hany
  simp only [Bool.and_eq_true, beq_iff_eq, Option.isNone_iff_eq_none] at htext
  exact ⟨d, hd, u, hu, htext.1, htext.2, by decide +kernel⟩

end RequestFile
