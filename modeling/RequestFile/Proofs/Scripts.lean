import RequestFile.Content.Script
import RequestFile.Proofs.Boundaries
import RequestFile.Proofs.Canonical.Exact
import RequestFile.Proofs.Lexemes
import RequestFile.Proofs.Traversal

/-!
What an inline script is.

An inline script is its code between two delimiters, over any number of lines. No line of it but the
first begins with a separator. If its closer is missing, it goes on to the next separator at which a
line begins, or to the end of the source (`Parsed.ofSource_scripts`).

* **Pieces.** One turn of the loop over a script takes its closer, a line terminator or text up to
  either, unless the script ends in front of a separator (`Cursor.scriptPiece_cases`). What all turns
  have taken so far is `Code`: plain leaves, and no separator behind the end of a line.
* **Sites.** Scripts are built on the lines of a section and among the items of a body section
  (`Cursor.onLines_fromScript`), so every site of one has its tokens (`Tree.Site.FromScript`).
* **Texts.** A separator at which a line begins is a token behind a terminator
  (`Token.exists_cut`), and a script has no such token.
-/

namespace RequestFile

open scoped Computability

namespace Token

/-! ### Separators in a text -/

variable {source a b : String} {front ts us vs back : List Token}

/-- Tokens that begin with the text of others begin with these. -/
lemma exists_of_textOf_append (h : ts ++ vs = front ++ back) (htext : textOf ts = textOf front ++ a)
    (hne : a ≠ "") : ∃ us, ts = front ++ us ∧ back = us ++ vs ∧ textOf us = a := by
  rcases List.append_eq_append_iff.mp h with ⟨us, rfl, rfl⟩ | ⟨us, rfl, rfl⟩
  · rw [textOf_append, String.append_assoc] at htext
    have hsize := congrArg String.utf8ByteSize htext
    simp only [String.utf8ByteSize_append] at hsize
    exact absurd (String.utf8ByteSize_eq_zero_iff.mp (by omega)) hne
  · rw [textOf_append] at htext
    exact ⟨us, rfl, rfl, (String.append_right_inj _).mp htext⟩

/-- **Tokens are cut** where a line begins with a separator. -/
lemma exists_cut (hall : scan source = front ++ (ts ++ back)) (htext : textOf ts = a ++ b)
    (hne : a ≠ "") (ha : endsLine a) (hb : startsSection b) : ∃ us vs, ts = us ++ vs ∧
      (∃ t ∈ us.getLast?, t.kind = .newline) ∧ ∃ t ∈ vs.head?, t.kind = .separatorMarker := by
  have hline : endsLine (textOf front ++ a) := by
    rw [endsLine_eq, lineBegins_of_ne hne] at *
    rw [lineBegins_append, lineBegins_of_ne hne, ha]
  have hsection : startsSection (b ++ textOf back) := by
    rw [startsSection, List.isPrefixOf_iff_prefix] at hb ⊢
    rw [String.toList_append]
    exact hb.trans (List.prefix_append ..)
  have hsource : source = (textOf front ++ a) ++ (b ++ textOf back) := by
    rw [← textOf_scan source, hall, textOf_append, textOf_append, htext]
    simp only [String.append_assoc]
  -- the source may be cut there, so its tokens are those of the two sides, and the cut is in `ts`
  have hscan := hall
  rw [hsource, scan_append_of_startsSection hline hsection] at hscan
  obtain ⟨us, hus, htail, hustext⟩ := exists_of_textOf_append hscan (textOf_scan _) hne
  have hbne : b ≠ "" := by
    rintro rfl
    cases hb
  obtain ⟨vs, rfl, hvs, hvstext⟩ :=
    exists_of_textOf_append htail (htext.trans (by rw [hustext])) hbne
  have hune : us ≠ [] := fun h => hne (by rw [← hustext, h, textOf_nil])
  have hvne : vs ≠ [] := fun h => hbne (by rw [← hvstext, h, textOf_nil])
  refine ⟨us, vs, rfl, ?_, ?_⟩
  · rcases getLast_scan hline with hnil | ⟨t, ht, hk⟩
    · rw [hus, List.append_eq_nil_iff] at hnil
      exact absurd hnil.2 hune
    · rw [hus, List.getLast?_append_of_ne_nil _ hune] at ht
      exact ⟨t, ht, hk⟩
  · obtain ⟨t, ts, hfirst, hk⟩ := scan_of_startsSection hsection
    obtain ⟨v, vs, rfl⟩ := List.exists_cons_of_ne_nil hvne
    rw [hvs, List.cons_append, List.cons.injEq] at hfirst
    exact ⟨v, rfl, hfirst.1 ▸ hk⟩

end Token

namespace Tree

/-! ### Rows of leaves -/

variable {around : List Kind} {front ls : List (Kind × String)}

/-- A row of leaves. -/
def row (ls : List (Kind × String)) : List Tree :=
  ls.map fun l => .leaf l.1 l.2

lemma row_append (ls ms : List (Kind × String)) : row (ls ++ ms) = row ls ++ row ms :=
  List.map_append

lemma leavesOf_row (ls : List (Kind × String)) : leavesOf (row ls) = ls := by
  induction ls with
  | nil => rfl
  | cons l ls ih => exact congrArg (l :: ·) ih

lemma ownLeaves_row (k : Kind) (ls : List (Kind × String)) : (node k (row ls)).ownLeaves = ls := by
  induction ls with
  | nil => rfl
  | cons l ls ih => exact congrArg (l :: ·) ih

lemma sitesOf_row : sitesOf around front (row ls) = [] := by
  induction ls generalizing front with
  | nil => rfl
  | cons l ls ih => exact ih

end Tree

namespace Cursor

variable {c d : Cursor} {ts : List Token} {ls : List (Kind × String)}

/-! ### Pieces -/

/-- A token behind the end of a line is no separator. -/
def Unseparated (t u : Token) : Prop :=
  t.kind = .newline → u.kind ≠ .separatorMarker

/-- A script has ended: with its closer, or in front of a separator at which a line begins, or at the
end of the source. -/
def EndsScript (c : Cursor) : Option Token → Prop
  | none => c.rest = [] ∨ c.lineStart ∧ c.atSeparator
  | some t => t.kind = .scriptClose

/-- The leaf over the closer of a script, if it has one. -/
def closerLeaves (closer : Option Token) : List (Kind × String) :=
  closer.toList.map fun t => (.scriptClose, t.text)

/-- Text up to a position on the line. -/
lemma exact_textOnLine {stop : Nat} (hc : c.Live) (h : c.read < stop) (hl : stop ≤ c.lineEnd) :
    (∀ t ∈ c.segment stop, t.kind ≠ .newline) ∧
      Exact (c.segment stop) [.leaf .text (Token.textOf (c.segment stop))] c (c.textUntil stop) := by
  have hlen := length_segment (hl.trans c.lineEnd_le_finish)
  have hne : c.segment stop ≠ [] := fun hnil => by
    rw [hnil, List.length_nil] at hlen
    omega
  refine ⟨fun t ht => Lookahead.kind_of_mem_take (by rw [lineEnd] at hl; omega) ht, ?_⟩
  exact exact_textUntil hc (List.take_append_drop _ _).symm hne (by rw [hlen]; omega)

/-- **One piece of a script**: it ends, or goes on over tokens that are no separator at which a line
begins. -/
lemma scriptPiece_cases (opener : Span) (hc : c.Live) :
    (∃ d closer, scriptPiece opener c = .done d ∧ EndsScript d closer ∧
      Yields closer.toList (Tree.row (closerLeaves closer)) c d) ∨
    ∃ d ts k, scriptPiece opener c = .again d ∧ k ∈ [Kind.text, .newline] ∧
      Yields ts (Tree.row [(k, Token.textOf ts)]) c d ∧ ts.IsChain Unseparated ∧
      (c.lineStart → ∀ t ∈ ts.head?, t.kind ≠ .separatorMarker) := by
  have hlook := exact_look hc
  have hlook' := hlook.trans (exact_look hlook.live)
  simp only [scriptPiece]
  split_ifs with hend hclose hnl
  · obtain ⟨new, hnew, hyields⟩ :=
      (run_reportUnclosed (e := true) (p := .unclosedScript) hc rfl "expected `%\x7d`"
        "script starts here" opener).yields (List.nil_append _).symm (fileAt_read ..)
    obtain rfl := (Language.mem_one new).mp hnew
    refine .inl ⟨_, none, rfl, ?_, hyields⟩
    have hrest := hyields.rest.trans (List.nil_append _)
    rw [EndsScript, atSeparator, ← hrest, hyields.lineStart]
    simpa [hc.stopped_eq, atEnd, atSeparator] using hend
  · obtain ⟨t, us, hr, hk⟩ := exists_of_sees hclose
    refine .inl ⟨_, some t, rfl, hk, ?_⟩
    rw [closerLeaves, ← hk]
    exact (exact_bump hlook.live hr).yields.after hlook.yields
  · obtain ⟨t, us, hr, hk⟩ := exists_of_sees hnl
    refine .inr ⟨_, [t], .newline, rfl, by decide, ?_, .singleton _, fun _ u hu => ?_⟩
    · rw [Token.textOf_cons, Token.textOf_nil, String.append_empty, ← hk]
      exact (exact_bump hlook'.live hr).yields.after hlook'.yields
    · obtain rfl := Option.some.inj hu
      simp [hk]
  · simp only [hc.stopped_eq, atEnd, Bool.or_eq_true, Bool.and_eq_true, not_or, not_and,
      List.isEmpty_iff] at hend
    obtain ⟨t, us, hr⟩ := List.exists_cons_of_ne_nil hend.1
    have hr' : c.look.look.rest = t :: us := by simpa using hr
    obtain ⟨hgt, hle⟩ := scriptText_bounds (c := c.look.look) (by simpa using hend.1)
      (by simpa using hclose) (by simpa using hnl)
    generalize c.look.look.before scriptCloseKinds c.look.look.lineEnd = stop at *
    obtain ⟨hlines, htext⟩ := exact_textOnLine hlook'.live hgt hle
    refine .inr ⟨_, _, .text, rfl, by decide, htext.yields.after hlook'.yields, ?_,
      fun hl u hu => ?_⟩
    -- no token of the text ends a line, so none of its neighbours is at the start of one
    · exact (List.pairwise_of_forall_mem_list fun a ha _ _ h => absurd h (hlines a ha)).isChain
    · rw [segment_cons hr' hgt] at hu
      obtain rfl := Option.some.inj hu
      simpa [atSeparator, Lookahead.isSeparatorLine, hr] using hend.2 hl

/-- The tokens of some pieces of a script, and the leaves over them. -/
structure Code (ts : List Token) (ls : List (Kind × String)) : Prop where
  kinds : ∀ l ∈ ls, l.1 ∈ [Kind.text, .newline]
  chain : ts.IsChain Unseparated

/-- **A piece more** is a piece of the script, too. -/
lemma Code.append {us : List Token} {k : Kind} (h : Code ts ls) (hy : Yields ts (Tree.row ls) c d)
    (hk : k ∈ [Kind.text, .newline]) (hchain : us.IsChain Unseparated)
    (hhead : d.lineStart → ∀ u ∈ us.head?, u.kind ≠ .separatorMarker) :
    Code (ts ++ us) (ls ++ [(k, Token.textOf us)]) where
  kinds := List.forall_mem_append.mpr ⟨h.kinds, by simpa using hk⟩
  chain := by
    refine h.chain.append hchain fun t ht u hu hnl => hhead ?_ u hu
    rw [hy.lineStart, Option.mem_def.mp ht]
    exact decide_eq_true hnl

/-- **The pieces of a script**, and how it ends. -/
lemma exists_code (opener : Span) (hc : c.Live) : ∃ ts ls closer, Code ts ls ∧
    EndsScript (c.loop (scriptPiece opener)) closer ∧
    Yields (ts ++ closer.toList) (Tree.row (ls ++ closerLeaves closer)) c
      (c.loop (scriptPiece opener)) := by
  have hturn : ∀ d, d.Live → (∃ ts ls, Code ts ls ∧ Yields ts (Tree.row ls) c d) →
      Turning true 2 (Form.leaf .newline + Form.text) (Form.leaf .scriptClose + Form.lapse true)
        (fun d => ∃ ts ls, Code ts ls ∧ Yields ts (Tree.row ls) c d)
        (fun d => ∃ ts ls closer, Code ts ls ∧ EndsScript d closer ∧
          Yields (ts ++ closer.toList) (Tree.row (ls ++ closerLeaves closer)) c d)
        d (scriptPiece opener d) := by
    rintro d hd ⟨ts, ls, hcode, hyields⟩
    have hrun := run_scriptPiece (e := true) opener hd
    obtain ⟨d', closer, heq, hend, hlast⟩ | ⟨d', us, k, heq, hk, hmore, hchain, hhead⟩ :=
      scriptPiece_cases opener hd
    · rw [heq] at hrun ⊢
      exact ⟨hrun.1, ts, ls, closer, hcode, hend, Tree.row_append .. ▸ hyields.trans hlast⟩
    · rw [heq] at hrun ⊢
      exact ⟨hrun.1, hrun.2.1, _, _, hcode.append hyields hk hchain hhead,
        Tree.row_append .. ▸ hyields.trans hmore⟩
  exact (Run.loop (by decide) hturn hc ⟨[], [], ⟨by simp, .nil⟩, .refl hc⟩).2

/-- The leaves of a script. -/
def scriptLeaves (opener : Token) (ls : List (Kind × String)) (closer : Option Token) :
    List (Kind × String) :=
  (.scriptOpen, opener.text) :: (ls ++ closerLeaves closer)

/-- **Inline scripts** are an opener, code, and a closer unless it is missing. -/
lemma exists_inlineScript (hc : c.Live) (hs : c.sees .scriptOpen) :
    ∃ t ts ls closer, t.kind = .scriptOpen ∧ Code ts ls ∧ EndsScript c.inlineScript closer ∧
      Yields (t :: (ts ++ closer.toList)) [.node .script (Tree.row (scriptLeaves t ls closer))] c
        c.inlineScript := by
  obtain ⟨t, us, hr, hk⟩ := exists_of_sees hs
  have hlook := exact_look hc
  have hr' : c.look.opened.rest = t :: us := (look_rest c).trans hr
  have hopen := exact_bump hlook.live.opened hr'
  obtain ⟨ts, ls, closer, hcode, hend, hyields⟩ := exists_code c.look.span hopen.live
  rw [inlineScript, demand_eq hs]
  refine ⟨t, ts, ls, closer, hk, hcode, ?_, ?_⟩
  · cases closer <;> exact hend
  · rw [hk] at hopen
    exact (hopen.yields.trans hyields).node.after hlook.yields

end Cursor

/-! ### Sites -/

namespace Tree

variable {all : List Token} {around : List Kind} {front : List (Kind × String)} {s : Site}
  {ts : List Tree}

/-- The kinds of scripts and of the nodes around them. -/
def scriptKinds : List Kind :=
  [.document, .section, .request, .response, .preRequestScript, .resHandlerScript, .script]

/-- A script is built behind the leaves in front of it; of other nodes nothing is said. -/
def Site.FromScript (all : List Token) (s : Site) : Prop :=
  s.tree.kind = .script → ∃ c d : Cursor, c.Reached all s.front ∧ ∃ t ts ls closer,
    t.kind = .scriptOpen ∧ Cursor.Code ts ls ∧ d.EndsScript closer ∧
    s.tree = .node .script (row (Cursor.scriptLeaves t ls closer)) ∧
    Cursor.Yields (t :: (ts ++ closer.toList)) [s.tree] c d

/-- No slot of another node is for one of them. -/
lemma kindsBelow_plain : KindsBelow (· ∉ scriptKinds) where
  error := by decide
  slots := by decide +kernel

lemma fromScript_of_row (hform : EveryOf (fun t => [t] ∈ Form.production true true t.kind) ts)
    (hk : ∀ t ∈ ts, t.isNode → t.kind ∉ scriptKinds) (hs : s ∈ sitesOf around front ts) :
    s.FromScript all := fun hscript =>
  absurd (hscript ▸ (by decide : Kind.script ∈ scriptKinds))
    ((kindsBelow_plain.everyOf hform hk).of_mem_sitesOf hs)

end Tree

namespace Cursor

variable {all : List Token} {around : List Kind} {k : Nat} {L : TreeLanguage} {K marker : Kind}
  {c c' : Cursor}

lemma builds_plain [hw : Form.Whole true true L] [hL : Form.Tallied Tree.scriptKinds.contains L]
    (h : Run true k L c c') (hx : hL.tally.all (·.most = some 0)) :
    Builds (Tree.Site.FromScript all) all around c c' := by
  intro front hr
  obtain ⟨ts, new, ht, hb, hover, hn⟩ := h.grew
  have hmem := hn fun _ => rfl
  refine ⟨new, hb, hr.took ht hover, fun s hs =>
    Tree.fromScript_of_row (hw.every new hmem) (fun t ht hnode => ?_) hs⟩
  simpa using Form.none_of_tally hx hmem t ht hnode

lemma builds_inlineScript (hc : c.Live) (hs : c.sees .scriptOpen) :
    Builds (Tree.Site.FromScript all) all around c c.inlineScript := by
  intro front hr
  obtain ⟨t, ts, ls, closer, hk, hcode, hend, hyields⟩ := exists_inlineScript hc hs
  obtain ⟨us, new, ht, hb, hover, _⟩ := (run_inlineScript (e := true) hc hs).grew
  obtain rfl := List.append_cancel_left (hyields.built.symm.trans hb)
  refine ⟨_, hb, hr.took ht hover, ?_⟩
  rw [Tree.sitesOf_singleton, Tree.sites, Tree.sitesOf_row, List.forall_mem_singleton]
  exact fun _ => ⟨c, _, hr, t, ts, ls, closer, hk, hcode, hend, rfl, hyields⟩

lemma builds_scriptOrPath (hc : c.Live) :
    Builds (Tree.Site.FromScript all) all around c c.scriptOrPath := by
  have hlook := run_look (e := true) hc
  have hlooks : Builds (Tree.Site.FromScript all) all around c c.look :=
    builds_plain hlook (by decide)
  rw [scriptOrPath]
  by_cases hs : c.sees .scriptOpen
  · rw [on_pos hs]
    exact hlooks.trans (builds_inlineScript hlook.live ((look_sees c _).trans hs))
  · rw [on_neg hs]
    exact hlooks.trans (builds_plain (run_path hlook.live).1 (by decide))

/-- **Lines with a script.** -/
lemma builds_scriptLine (hK : K ≠ .script) (hc : c.Live) (hs : c.sees marker) :
    Builds (Tree.Site.FromScript all) all around c (c.scriptLine K scriptOrPath) := by
  obtain ⟨hopen, _⟩ := run_bump (e := true) hc.opened hs
  obtain ⟨hblank, _⟩ := run_eatBlank (e := true) hopen.live
  have hscript := run_scriptOrPath (e := true) hblank.live
  have hbelow : Builds (Tree.Site.FromScript all) all (K :: around) c.opened
      c.opened.bump.eatBlank.scriptOrPath.finishScriptLine :=
    (((builds_plain hopen rfl).trans (builds_plain hblank (by decide))).trans
      (builds_scriptOrPath hblank.live)).trans
      (builds_plain (run_finishScriptLine hscript.live).1 (by decide))
  exact fun front hr => BuildsAt.node (hbelow front hr) fun _ _ _ _ _ hk => absurd hk hK

/-- **Items of a body section.** -/
lemma builds_item (hc : c.Live) (ha : c.Aligned) (hmore : !c.stopped && !c.atSeparator) :
    Builds (Tree.Site.FromScript all) all around c (c.bodyItem (BodyLine.ofTokens c.rest)) := by
  simp only [hc.stopped_eq, atEnd, Bool.and_eq_true, Bool.not_eq_true',
    List.isEmpty_eq_false_iff] at hmore
  have hbegins := BodyLine.begins_ofTokens c.rest
  generalize BodyLine.ofTokens c.rest = line at *
  cases line with
  | blank => exact builds_plain (run_blankLine hc hbegins hmore.1).toRun (by decide)
  | comment => exact builds_plain (run_comment hc hbegins).toRun (by decide)
  | responseHandler => exact builds_scriptLine (by decide) hc hbegins
  | redirect => exact builds_plain (run_responseRedirect hc hbegins).toRun (by decide)
  | multipart => exact builds_plain (run_multipart hc hbegins).toRun (by decide)
  | external => exact builds_plain (run_externalBody hc hbegins).toRun (by decide)
  | xml => exact builds_plain (run_textBody (K := .xmlBody) hc ha hmore.1).toRun (by decide)
  | json => exact builds_plain (run_textBody (K := .jsonBody) hc ha hmore.1).toRun (by decide)
  | graphql => exact builds_plain (run_graphqlBody hc ha hmore.1).toRun (by decide)
  | form => exact builds_plain (run_formBody hc hbegins).toRun (by decide)
  | raw => exact builds_plain (run_rawBody hc ha hmore.1).toRun (by decide)

/-- **Scripts are built on lines.** -/
lemma onLines_fromScript (all : List Token) : OnLines (Tree.Site.FromScript all) all where
  quiet := fun hform hk hs => by
    have hentered : ∀ k ∈ Tree.scriptKinds, k ∈ Tree.enteredKinds := by decide
    exact Tree.fromScript_of_row hform (fun t ht hnode hmem => hk t ht hnode (hentered _ hmem)) hs
  outer := fun s hk hscript => by
    rw [hscript] at hk
    exact absurd hk (by decide)
  request := fun _ _ _ _ hk hscript => by
    rw [hk] at hscript
    cases hscript
  preRequestScript := fun hc hs => builds_scriptLine (by decide) hc hs
  bodyItem := fun hc ha hmore => builds_item hc ha hmore

end Cursor

/-! ### Code -/

/-- No token of a script is a separator at which a line begins. -/
lemma Cursor.Code.isChain {ts : List Token} {ls : List (Kind × String)} {c : Cursor} {t : Token}
    {closer : Option Token} (h : Code ts ls) (ht : t.kind = .scriptOpen)
    (hend : c.EndsScript closer) : (t :: (ts ++ closer.toList)).IsChain Unseparated := by
  have hopen : ∀ u, Unseparated t u := fun u hk => by
    rw [ht] at hk
    cases hk
  have hclose : ∀ u v, v ∈ closer → Unseparated u v := fun u v hv _ => by
    obtain rfl := Option.mem_def.mp hv
    rw [show v.kind = .scriptClose from hend]
    decide
  refine List.IsChain.cons (h.chain.append ?_ fun u _ v hv => hclose u v ?_) fun u _ => hopen u
  · cases closer <;> simp
  · rwa [Option.head?_toList] at hv

/-- **No line but the first** begins with a separator, if no token does behind the end of a line. -/
lemma Cursor.startsSection_eq_false {source a b : String} {front ts back : List Token}
    (hall : Token.scan source = front ++ (ts ++ back)) (hchain : ts.IsChain Unseparated)
    (hfirst : startsSection (Token.textOf ts) = false) (hab : Token.textOf ts = a ++ b)
    (ha : endsLine a) : startsSection b = false := by
  refine Bool.eq_false_iff.mpr fun hb => ?_
  by_cases hne : a = ""
  · rw [hne, String.empty_append] at hab
    rw [hab, hb] at hfirst
    cases hfirst
  · obtain ⟨us, vs, rfl, ⟨u, hu, hnl⟩, v, hv, hsep⟩ := Token.exists_cut hall hab hne ha hb
    exact (List.isChain_append.mp hchain).2.2 u hu v hv hnl hsep

/-- The text of a script. -/
lemma Cursor.join_scriptLeaves {opener : Token} {ls : List (Kind × String)} {closer : Option Token}
    (hopen : opener.text = "\x7b%") (hclose : ∀ t ∈ closer, t.text = "%\x7d") :
    String.join ((scriptLeaves opener ls closer).map Prod.snd)
      = "\x7b%" ++ String.join (ls.map Prod.snd) ++ (if closer.isSome then "%\x7d" else "") := by
  rw [scriptLeaves, List.map_cons, String.join_cons, List.map_append, String.join_append, hopen]
  cases closer with
  | none => simp [closerLeaves]
  | some t => simp [closerLeaves, hclose t rfl, String.append_assoc]

/-- **The code of a script** is the text of its pieces. -/
lemma Cursor.Code.filter_scriptLeaves {ts : List Token} {ls : List (Kind × String)} (h : Code ts ls)
    (opener : Token) (closer : Option Token) :
    (scriptLeaves opener ls closer).filter (fun l => l.1 != .scriptOpen && l.1 != .scriptClose)
      = ls := by
  have hkinds : ∀ k ∈ [Kind.text, .newline], k ≠ .scriptOpen ∧ k ≠ .scriptClose := by decide
  have hls : ls.filter (fun l => l.1 != .scriptOpen && l.1 != .scriptClose) = ls := by
    rw [List.filter_eq_self]
    intro l hl
    simpa using hkinds _ (h.kinds l hl)
  have hcloser : (closerLeaves closer).filter
      (fun l => l.1 != .scriptOpen && l.1 != .scriptClose) = [] := by
    simp [closerLeaves]
  rw [scriptLeaves, List.filter_cons_of_neg (by simp), List.filter_append, hls, hcloser,
    List.append_nil]

/-- A script ends with its closer or with its opener or a piece. -/
lemma Cursor.Code.getLast?_scriptLeaves {ts : List Token} {ls : List (Kind × String)}
    (h : Code ts ls) (opener : Token) (closer : Option Token) :
    ((scriptLeaves opener ls closer).getLast?.map Prod.fst == some .scriptClose)
      = closer.isSome := by
  cases closer with
  | some t =>
      have hconcat : scriptLeaves opener ls (some t)
          = (.scriptOpen, opener.text) :: ls ++ [(.scriptClose, t.text)] := rfl
      rw [hconcat, List.getLast?_concat]
      rfl
  | none =>
      rcases List.eq_nil_or_concat' ls with rfl | ⟨ms, l, rfl⟩
      · rfl
      · have hkinds : ∀ k ∈ [Kind.text, .newline], k ≠ .scriptClose := by decide
        have hl := hkinds _ (h.kinds l (by simp))
        simp [scriptLeaves, closerLeaves, List.getLast?_cons, hl]

lemma Cursor.Code.ofTree? {ts : List Token} {ls : List (Kind × String)} (h : Code ts ls) (o : Nat)
    (opener : Token) (closer : Option Token) :
    Script.ofTree? ⟨o, .node .script (Tree.row (scriptLeaves opener ls closer))⟩
      = some (.inline (String.join (ls.map Prod.snd)) closer.isSome) := by
  rw [Script.ofTree?, Script.codeOf, Tree.ownLeaves_row, h.filter_scriptLeaves, Tree.lastLeafKind?,
    Tree.leaves, Tree.leavesOf_row, h.getLast?_scriptLeaves]

/-! ### Scripts of a source -/

/-- **Inline scripts**, whatever the source is. The text of a script is its code between two
delimiters, the second of which may be missing, and no line of it but the first begins with a
separator. Without a closer it goes on to the next separator at which a line begins, or to the end of
the source. -/
theorem Parsed.ofSource_scripts (source : String) :
    ∃ p, Parsed.ofSource .unlimited source = .ok p ∧
      ∀ s ∈ p.tree.sites [] [], s.tree.kind = .script → ∃ code closed rest,
        (∀ o, Script.ofTree? ⟨o, s.tree⟩ = some (.inline code closed)) ∧
        s.tree.text = "\x7b%" ++ code ++ (if closed then "%\x7d" else "") ∧
        source = String.join (s.front.map Prod.snd) ++ s.tree.text ++ rest ∧
        (∀ a b, s.tree.text = a ++ b → endsLine a → startsSection b = false) ∧
        (closed = false → rest = "" ∨ endsLine s.tree.text ∧ startsSection rest) := by
  obtain ⟨p, hp, _⟩ := Parsed.ofSource_unlimited source
  refine ⟨p, hp, fun s hs hk => ?_⟩
  obtain ⟨c, d, ⟨before, hall, hover, -⟩, t, ts, ls, closer, ht, hcode, hend, htree, hyields⟩ :=
    Parsed.forall_sites (Cursor.onLines_fromScript _) hp s hs hk
  -- the source is what stands in front, the tokens of the script, and the rest
  rw [hyields.rest] at hall
  have hlexeme : ∀ u ∈ t :: (ts ++ closer.toList), Token.Lexeme u := fun u hu =>
    Token.lexeme_of_mem_scan source u (by rw [hall]; simp only [List.mem_append, hu]; simp)
  have hopener : t.text = "\x7b%" := (hlexeme t (by simp)).text_eq ht (by decide) (by decide)
  have htext : s.tree.text = Token.textOf (t :: (ts ++ closer.toList)) := by
    rw [← hyields.text, Tree.textOf_singleton]
  refine ⟨String.join (ls.map Prod.snd), closer.isSome, Token.textOf d.rest, fun o => ?_, ?_, ?_,
    ?_, ?_⟩
  · rw [htree]
    exact hcode.ofTree? o t closer
  · rw [htree, Tree.text_node, Tree.textOf, Tree.leavesOf_row]
    refine Cursor.join_scriptLeaves hopener fun u hu => ?_
    obtain rfl := Option.mem_def.mp hu
    exact (hlexeme u (by simp)).text_eq hend (by decide) (by decide)
  · rw [htext, hover.join_eq, ← Token.textOf_scan source, hall]
    simp only [Token.textOf_append, String.append_assoc]
  · intro a b hab ha
    refine Cursor.startsSection_eq_false hall (hcode.isChain ht hend) ?_ (htext ▸ hab) ha
    rw [Token.textOf_cons, hopener, startsSection, String.toList_append]
    rfl
  · intro hopen
    obtain rfl : closer = none := by simpa using hopen
    have hlexed := Token.lexed_scan source
    rw [hall] at hlexed
    obtain hnil | ⟨hline, hsep⟩ : d.rest = [] ∨ d.lineStart ∧ d.atSeparator := hend
    · rw [hnil]
      exact .inl Token.textOf_nil
    · have hnewline := hyields.toTook.exists_newline (List.cons_ne_nil _ _) hline
      rw [htext]
      exact .inr ⟨hlexed.right.left.endsLine_textOf hnewline,
        hlexed.right.right.startsSection_textOf hsep⟩

/-- A separator ends a script that is left open, but not one that stands inside a line of it. -/
example : ∃ p, Parsed.ofSource .unlimited "< \x7b% a ### b\n\n### c\nGET /\n" = .ok p ∧
    (p.tree.nodesOf .script).map Tree.text = ["\x7b% a ### b\n\n"] :=
  ⟨_, rfl, by decide +kernel⟩

end RequestFile
