import RequestFile.Proofs.Canonical.Interpolation
import RequestFile.Proofs.Canonical.Url
import RequestFile.Proofs.LastLine.Lookahead
import RequestFile.Proofs.Validity

/-!
Parsing paths back.

A `PathModel` is a text that is accepted as a path to its last token, and in which every opener begins
a reference to a name. Wherever a path may stand, it is read as that text with those references
(`PathModel.parse_path`).

* **Escapes.** A backslash keeps the token behind it in the path, a blank as well as an opener. What
  the path is made of is told by another search, for which an opener is one whatever stands in front
  of it: a reference behind a backslash is still a reference, and an opener behind one that begins
  none is reported (`PathModel.not_parse_path`).
* **Places.** `PathPlace` lists the lines that name a file. Each is a marker, a blank and a path
  (`Cursor.exact_pathPlace`).
-/

namespace RequestFile

/-- A text that is accepted as a path to its last token. Every opener in it begins a reference. -/
structure PathModel where
  text : String
  reading : Interpolation
  scanned : Token.scanFrom false 0 text.toList = reading.tokens
  text_ne : text ≠ ""
  whole : Lookahead.pathLength reading.tokens = reading.tokens.length

/-- The lines that name a file: a script in front of a request, a body, in which references may be
replaced, a response handler, and a redirect, which may overwrite its file. -/
inductive PathPlace
  | script
  | external (substitutes : Bool)
  | handler
  | redirect (overwrite : Bool)

namespace PathPlace

/-- What stands in front of the path and its blank. -/
def marker : PathPlace → List Token
  | script => [⟨.angleOpen, "<"⟩]
  | external false => [⟨.angleOpen, "<"⟩]
  | external true => [⟨.angleOpen, "<"⟩, ⟨.at, "@"⟩]
  | handler => [⟨.angleClose, ">"⟩]
  | redirect false => [⟨.redirectMarker, ">>"⟩]
  | redirect true => [⟨.redirectMarker, ">>!"⟩]

/-- The node that the path stands in. -/
def kind : PathPlace → Kind
  | script => .preRequestScript
  | external _ => .externalBody
  | handler => .resHandlerScript
  | redirect _ => .resRedirect

/-- What reads the line. -/
def production : PathPlace → Cursor → Cursor
  | script => Cursor.preRequestScript
  | external _ => Cursor.externalBody
  | handler => Cursor.responseHandler
  | redirect _ => Cursor.responseRedirect

/-- What stands in front of the line. -/
def request : PathPlace → String
  | script => ""
  | _ => "GET /\n\n"

variable (q : PathPlace)

/-- The text of the marker. -/
def markerText : String :=
  Token.textOf q.marker

/-- The leaves of the marker. -/
def markerTrees : List Tree :=
  q.marker.map fun t => .leaf t.kind t.text

end PathPlace

namespace PathModel

variable (m : PathModel) (q : PathPlace) (b : Bool)

/-- The tree of the path. -/
def tree : Tree :=
  .node .path m.reading.trees

/-- The tokens of the path. -/
def tokens : List Token :=
  m.reading.tokens

/-- The tokens of a line that names the file. -/
def lineTokens : List Token :=
  q.marker ++ Token.blank :: (m.tokens ++ Token.ending b)

/-- The trees of the marker, the blank and the path. -/
def namedTrees : List Tree :=
  q.markerTrees ++ [.leaf .whitespace " ", m.tree]

/-- The trees of a line that names the file. -/
def lineTrees : List Tree :=
  match q with
  | .external _ => .node .externalBody (m.namedTrees q) :: Cursor.endTrees b
  | _ => [.node q.kind (m.namedTrees q ++ Cursor.endTrees b)]

/-- A document with a line that names the file. The line may lack its terminator. -/
def source : String :=
  q.request ++ (q.markerText ++ " " ++ m.text ++ endText b)

end PathModel

/-! ### Tokens -/

namespace PathModel

variable (m : PathModel)

lemma tokens_ne_nil : m.tokens ≠ [] := by
  rw [tokens, ← m.scanned, Ne, Token.scanFrom_eq_nil]
  simpa using m.text_ne

lemma newline_of_tokens : ∀ t ∈ m.tokens, t.kind ≠ .newline :=
  m.reading.newline_of_tokens

lemma textOf_tokens : Token.textOf m.tokens = m.text := by
  rw [tokens, ← m.scanned, Token.textOf_scanFrom_toList]

/-- The kinds that no path begins with. -/
def notFirst : List Kind :=
  [.newline, .whitespace, .scriptOpen]

/-- How a path begins. -/
lemma head_tokens : ∃ t ts, m.tokens = t :: ts ∧ t.kind ∉ notFirst := by
  obtain ⟨t, ts, ht⟩ := List.exists_cons_of_ne_nil m.tokens_ne_nil
  have hwhole := m.whole
  rw [← tokens, ht, Lookahead.pathLength, Lookahead.pathLengthFrom] at hwhole
  have hpath : ∀ k ∈ notFirst, k ≠ .backslash ∧ k ≠ .varOpen ∧
      Lookahead.pathKinds.contains k = false := by
    decide
  refine ⟨t, ts, ht, fun hk => ?_⟩
  obtain ⟨hback, hopen, hset⟩ := hpath _ hk
  simp [hback, hopen, hset] at hwhole

/-- A path does not begin with a blank. -/
lemma not_isBlank_head : ∀ d ∈ m.text.toList.head?, isBlank d = false := by
  intro d hd
  obtain ⟨t, ts, ht, hk⟩ := m.head_tokens
  obtain ⟨cs, hcs⟩ := List.head?_eq_some_iff.mp hd
  rw [tokens, ← m.scanned, hcs, Token.scanFrom_cons, List.cons.injEq] at ht
  refine Bool.eq_false_iff.mpr fun hblank => hk ?_
  rw [← ht.1, Token.RunKind.whitespace.lead_eq hblank]
  exact (by decide : Kind.whitespace ∈ notFirst)

/-- A path stands on one line. -/
lemma oneLine_text : OneLine m.text := by
  refine Token.oneLine_of_newline (b := false) ?_
  rw [m.scanned]
  exact m.newline_of_tokens

/-- In front of the end of its line a path is accepted as it is alone. -/
lemma pathLength_ending {b : Bool} {us : List Token} (hus : b = false → us = []) :
    Lookahead.pathLength (m.tokens ++ (Token.ending b ++ us)) = m.tokens.length := by
  cases b with
  | false =>
      rw [hus rfl, Token.ending, if_neg Bool.false_ne_true, List.append_nil, List.append_nil]
      exact m.whole
  | true =>
      have hend : Lookahead.HasLineEnd (m.tokens ++ [Token.lineFeed]) := by
        rw [Lookahead.HasLineEnd, Lookahead.lineLength,
          List.takeWhile_append_of_pos (by simpa using m.newline_of_tokens)]
        simp [Token.lineFeed]
      have hline : Token.ending true = [Token.lineFeed] := rfl
      rw [hline, ← List.append_assoc, Lookahead.lineLocal_pathLength.append hend]
      exact (Lookahead.lineLocal_pathLength.concat _).trans m.whole

end PathModel

namespace Token

variable (m : PathModel)

/-- The tokens of a line that names a file. -/
lemma scan_pathLine (q : PathPlace) (b : Bool) :
    scan (q.markerText ++ " " ++ m.text ++ endText b) = m.lineTokens q b := by
  have hmarker : scanFrom true 0 q.markerText.toList = q.marker ∧
      ∀ c ∈ q.markerText.toList.getLast?, c ≠ '\r' ∧ isBlank c = false := by
    rcases q with _ | (_ | _) | _ | (_ | _) <;> decide
  have hstop : ∀ c ∈ q.markerText.toList.getLast?, Stops c ' ' := fun c hc =>
    ⟨by decide, (hmarker.2 c hc).1, fun _ => (hmarker.2 c hc).2⟩
  have hhead : ∀ d ∈ (m.text.toList ++ (endText b).toList).head?, isBlank d = false := by
    intro d hd
    rw [List.head?_append_of_ne_nil _ (by simpa using m.text_ne)] at hd
    exact m.not_isBlank_head d hd
  have hlast : ∀ c ∈ m.text.toList.getLast?, c ≠ '\r' := fun c hc =>
    (m.oneLine_text c (List.mem_of_getLast? hc)).2
  have htext : (q.markerText ++ " " ++ m.text ++ endText b).toList
      = q.markerText.toList ++ ' ' :: (m.text.toList ++ (endText b).toList) := by
    simp
  rw [scan, htext, scanFrom_stop hstop (by decide), hmarker.1, scanFrom_space _ _ hhead,
    scanFrom_ending hlast, m.scanned]
  rfl

lemma scan_path (q : PathPlace) (b : Bool) :
    scan (m.source q b) = scan q.request ++ m.lineTokens q b := by
  have hline : endsLine q.request ∧ q.request.toList.getLast? ≠ some '\r' := by
    rcases q with _ | (_ | _) | _ | (_ | _) <;> decide
  rw [PathModel.source, scan_append_of_endsLine hline.1 fun h => absurd h hline.2, scan_pathLine]

end Token

/-! ### Runs -/

namespace Cursor

variable {b : Bool} {us : List Token} {c : Cursor} (m : PathModel)

/-- **Paths** that are accepted to their last token are read as their trees. -/
lemma exact_path (hc : c.Live) (hr : c.rest = m.tokens ++ us)
    (hlength : Lookahead.pathLength c.rest = m.tokens.length) :
    Exact m.tokens [m.tree] c c.path := by
  have hpath := (exact_interpolation m.reading hc.opened hr rfl).node (K := .path)
  have hpos := List.length_pos_of_ne_nil m.tokens_ne_nil
  rw [path]
  split
  · next hzero => omega
  · rw [hlength]
    exact hpath

/-- A path behind a blank, up to the end of its line. -/
lemma exact_blankPath (hc : c.Live) (hr : c.rest = Token.blank :: (m.tokens ++ (Token.ending b ++ us)))
    (hus : b = false → us = []) :
    Exact (Token.blank :: m.tokens) [.leaf .whitespace " ", m.tree] c c.eatBlank.path := by
  have hblank := exact_eatBlank hc hr
  have hrest : c.eatBlank.rest = m.tokens ++ (Token.ending b ++ us) := hblank.rest_eq hr
  have hlength : Lookahead.pathLength c.eatBlank.rest = m.tokens.length := by
    rw [hrest, m.pathLength_ending hus]
  exact hblank.trans (exact_path m hblank.live hrest hlength)

/-- A path where a script may stand as well. -/
lemma exact_blankScriptOrPath (hc : c.Live)
    (hr : c.rest = Token.blank :: (m.tokens ++ (Token.ending b ++ us))) (hus : b = false → us = []) :
    Exact (Token.blank :: m.tokens) [.leaf .whitespace " ", m.tree] c c.eatBlank.scriptOrPath := by
  have hblank := exact_eatBlank hc hr
  have hrest : c.eatBlank.rest = m.tokens ++ (Token.ending b ++ us) := hblank.rest_eq hr
  have hlook := exact_look hblank.live
  have hrest' : c.eatBlank.look.rest = m.tokens ++ (Token.ending b ++ us) :=
    (look_rest _).trans hrest
  have hlength : Lookahead.pathLength c.eatBlank.look.rest = m.tokens.length := by
    rw [hrest', m.pathLength_ending hus]
  have hnone : ¬c.eatBlank.sees .scriptOpen := by
    obtain ⟨t, ts, ht, hk⟩ := m.head_tokens
    rw [sees, hrest, ht, List.cons_append, Lookahead.startsWith_cons, decide_eq_true_iff]
    rintro hopen
    rw [hopen] at hk
    exact hk (by decide)
  rw [scriptOrPath, on_neg hnone]
  exact hblank.trans (hlook.trans (exact_path m hlook.live hrest' hlength))

/-- The end of a line with a script or a path. -/
lemma exact_finishScriptLine (hc : c.Live) (hl : c.lineStart = false)
    (hr : c.rest = Token.ending b ++ us) (hus : b = false → us = [])
    (hnext : ¬Lookahead.startsWith .newline us) :
    Exact (Token.ending b) (endTrees b) c c.finishScriptLine := by
  have hloop : ∀ d : Cursor, d.eatNewlines = d.loop newlineTurn := fun _ => rfl
  rw [finishScriptLine, hl, if_neg Bool.false_ne_true, hloop]
  -- without a terminator the file ends here, and the loop over line ends is done at once
  cases b with
  | false =>
      rw [hus rfl] at hr
      have hend : c.atEnd := by simp [atEnd, hr, Token.ending]
      have heq : c.eatBlank.finishLine "unexpected text after the script" = c := by
        simp [eatBlank, eat, finishLine, hend]
      have hdone : newlineTurn c = .done c := by rw [newlineTurn, if_pos hend]
      rw [heq, loop_of_done hdone]
      exact .refl hc
  | true =>
      have hr' : c.rest = Token.lineFeed :: us := hr
      have hblank := exact_eatBlank_skip hc (by simp [sees, hr', Token.lineFeed])
      have hrest : c.eatBlank.rest = Token.lineFeed :: us := hblank.rest_eq hr'
      have hfinish := hblank.trans
        (exact_finishLine hblank.live hrest "unexpected text after the script")
      have hrest' : (c.eatBlank.finishLine "unexpected text after the script").rest
          = Token.lineFeed :: us := hfinish.rest_eq hr'
      generalize c.eatBlank.finishLine "unexpected text after the script" = d at *
      -- the terminator is a turn, and nothing more of the kind follows
      have hlook := exact_look hfinish.live
      have hbump := hlook.trans (exact_bump hlook.live ((look_rest d).trans hrest'))
      have hturn : newlineTurn d = .again d.look.bump := by
        rw [newlineTurn, if_neg (by simp [atEnd, hrest']),
          if_pos (by simp [sees, hrest', Token.lineFeed])]
      have hrest'' : d.look.bump.rest = us := hbump.rest_eq hrest'
      have hbefore : d.BeforeNewlines := .inr (.inr (by simp [sees, hrest', Token.lineFeed]))
      rw [loop_eq (fun _ hd hi => run_newlineTurn (e := true) hd hi) hfinish.live hbefore hturn]
      generalize d.look.bump = f at *
      have hstop : ∃ g, newlineTurn f = .done g ∧ Exact [] [] f g := by
        rw [newlineTurn]
        split_ifs with hend hsees
        · exact ⟨f, rfl, .refl hbump.live⟩
        · exact absurd (by simpa [sees, hrest''] using hsees) hnext
        · exact ⟨f.look, rfl, exact_look hbump.live⟩
      obtain ⟨g, hg, hexact⟩ := hstop
      rw [loop_of_done hg]
      exact hfinish.trans (hbump.quiet hexact)

/-- A line of a marker and a path. -/
lemma exact_scriptPath {t : Token} {K : Kind} {body : Cursor → Cursor} (hc : c.Live)
    (hr : c.rest = t :: Token.blank :: (m.tokens ++ (Token.ending b ++ us)))
    (hus : b = false → us = []) (hnext : ¬Lookahead.startsWith .newline us)
    (hbody : ∀ d : Cursor, d.Live → d.rest = Token.blank :: (m.tokens ++ (Token.ending b ++ us)) →
      Exact (Token.blank :: m.tokens) [.leaf .whitespace " ", m.tree] d (body d.eatBlank)) :
    Exact (t :: Token.blank :: (m.tokens ++ Token.ending b))
      [.node K (.leaf t.kind t.text :: .leaf .whitespace " " :: m.tree :: endTrees b)] c
      (c.scriptLine K body) := by
  have hr' : c.opened.rest = t :: Token.blank :: (m.tokens ++ (Token.ending b ++ us)) := hr
  have hmarker := exact_bump hc.opened hr'
  have hpath := hmarker.trans (hbody _ hmarker.live (hmarker.rest_eq hr'))
  have hrest : (body c.opened.bump.eatBlank).rest = Token.ending b ++ us := hpath.rest_eq hr'
  have hline : (body c.opened.bump.eatBlank).lineStart = false := by
    have hlast : ([t] ++ Token.blank :: m.tokens).getLast? = m.tokens.getLast? :=
      List.getLast?_append_of_ne_nil [t, Token.blank] m.tokens_ne_nil
    have hnewline := m.newline_of_tokens _ (List.getLast_mem m.tokens_ne_nil)
    rw [hpath.lineStart, hlast, List.getLast?_eq_some_getLast m.tokens_ne_nil]
    exact decide_eq_false hnewline
  exact (hpath.trans (exact_finishScriptLine hpath.live hline hrest hus hnext)).node

/-- A line of a body that stands in a file, without its end. -/
lemma exact_externalPath (sub : Bool) (hc : c.Live)
    (hr : c.rest = (PathPlace.external sub).marker
      ++ Token.blank :: (m.tokens ++ (Token.ending b ++ us))) (hus : b = false → us = []) :
    Exact ((PathPlace.external sub).marker ++ Token.blank :: m.tokens)
      (m.namedTrees (.external sub)) c c.external := by
  cases sub with
  | false =>
      have hopen := exact_bump hc hr
      have hblank : c.bump.rest = Token.blank :: (m.tokens ++ (Token.ending b ++ us)) :=
        hopen.rest_eq hr
      have hat := hopen.quiet (exact_eat_skip (k := .at) hopen.live
        (by simp [sees, hblank, Token.blank]))
      exact hat.trans (exact_blankPath m hat.live (hat.rest_eq hr) hus)
  | true =>
      have hopen := exact_bump hc hr
      have hsign : c.bump.rest
          = ⟨.at, "@"⟩ :: Token.blank :: (m.tokens ++ (Token.ending b ++ us)) := hopen.rest_eq hr
      have hat := hopen.trans (exact_eat (k := .at) hopen.live hsign rfl)
      exact hat.trans (exact_blankPath m hat.live (hat.rest_eq hr) hus)

/-- **Lines that name a file** are read as their trees, whatever follows them. -/
lemma exact_pathPlace (q : PathPlace) (hc : c.Live) (hr : c.rest = m.lineTokens q b ++ us)
    (hus : b = false → us = []) (hnext : ¬Lookahead.startsWith .newline us) :
    Exact (m.lineTokens q b) (m.lineTrees q b) c (q.production c) := by
  rw [PathModel.lineTokens, List.append_assoc, List.cons_append, List.append_assoc] at hr
  cases q with
  | external sub =>
      have hnode := (exact_externalPath m sub hc.opened hr hus).node (K := .externalBody)
      have hend := exact_ending hnode.live (hnode.rest_eq (by rw [hr]; simp)) hus
        "unexpected text after the file path"
      have hwhole := hnode.trans hend
      rw [List.append_assoc] at hwhole
      exact hwhole
  | script =>
      exact exact_scriptPath m hc hr hus hnext fun _ hd hrest =>
        exact_blankScriptOrPath m hd hrest hus
  | handler =>
      exact exact_scriptPath m hc hr hus hnext fun _ hd hrest =>
        exact_blankScriptOrPath m hd hrest hus
  | redirect overwrite =>
      cases overwrite <;>
        exact exact_scriptPath m hc hr hus hnext fun _ hd hrest => exact_blankPath m hd hrest hus

/-! ### Sections -/

/-- A line that names a body, a handler or a redirect is told by its marker. -/
lemma ofTokens_place (q : PathPlace) (hq : q ≠ .script) (us : List Token) :
    ∃ line, (∀ d : Cursor, d.bodyItem line = q.production d) ∧
      ∃ t ts, m.lineTokens q b ++ us = t :: ts ∧ t.kind ≠ .separatorMarker ∧
        BodyLine.ofTokens (t :: ts) = line := by
  obtain ⟨t, ts, ht, hk⟩ := m.head_tokens
  have hw : t.kind ≠ .whitespace := fun h => hk (by rw [h]; decide)
  have hn : t.kind ≠ .newline := fun h => hk (by rw [h]; decide)
  rw [PathModel.lineTokens, ht]
  rcases q with _ | (_ | _) | _ | (_ | _)
  · exact absurd rfl hq
  · refine ⟨.external, fun _ => rfl, _, _, rfl, by decide, ?_⟩
    simp [BodyLine.ofTokens, Lookahead.isExternal, Lookahead.isBlankLine_cons, Token.blank, hw, hn]
  · refine ⟨.external, fun _ => rfl, _, _, rfl, by decide, ?_⟩
    simp [BodyLine.ofTokens, Lookahead.isExternal, Lookahead.isBlankLine_cons, Token.blank, hw, hn]
  · refine ⟨.responseHandler, fun _ => rfl, _, _, rfl, by decide, ?_⟩
    simp [BodyLine.ofTokens, Lookahead.isBlankLine_cons, Token.blank]
  · refine ⟨.redirect, fun _ => rfl, _, _, rfl, by decide, ?_⟩
    simp [BodyLine.ofTokens, Lookahead.isBlankLine_cons, Token.blank]
  · refine ⟨.redirect, fun _ => rfl, _, _, rfl, by decide, ?_⟩
    simp [BodyLine.ofTokens, Lookahead.isBlankLine_cons, Token.blank]

/-- The trees of a request with a line that names a file. -/
def pathRequestTrees (q : PathPlace) (b : Bool) : List Tree :=
  urlRequestTrees "GET" [.leaf .text "/"] true ++ .leaf .newline "\n" :: m.lineTrees q b

/-- **Requests** with a line that names a file. -/
lemma exact_pathRequest {q : PathPlace} (hq : q ≠ .script) (hc : c.Live)
    (hr : c.rest = Token.scan (m.source q b)) :
    Exact (Token.scan (m.source q b)) [.node .request (pathRequestTrees m q b)] c c.request := by
  have hfront : Token.scan q.request
      = urlRequestTokens "GET" [⟨.slash, "/"⟩] true ++ [Token.lineFeed] := by
    rcases q with _ | (_ | _) | _ | (_ | _)
    · exact absurd rfl hq
    all_goals decide +kernel
  have hline : Token.scan (m.source q b) = urlRequestTokens "GET" [⟨.slash, "/"⟩] true
      ++ (Token.lineFeed :: m.lineTokens q b ++ []) := by
    rw [Token.scan_path, hfront, List.append_assoc, List.append_nil]
    rfl
  have hurl : ReadsUrl [⟨.slash, "/"⟩] [.leaf .text "/"] :=
    readsUrl_plain (List.cons_ne_nil _ _) (by decide)
  obtain ⟨item, hitem, hfirst⟩ := ofTokens_place (b := b) m q hq []
  -- the first line is that of any request, and the line is its only body
  obtain ⟨_, _, rfl, rfl, hrequest⟩ := exact_requestOf
    (P := (· = urlRequestTrees "GET" [.leaf .text "/"] true))
    (Q := (· = .leaf .newline "\n" :: m.lineTrees q b)) hc (hr.trans hline)
    (fun d hd hrest => by
      have hexact := exact_urlRequestLine (by decide) hurl hd hrest (fun h => by cases h)
        (by simp [Token.lineFeed])
      exact ⟨_, rfl, hexact, aligned_urlRequestLine hexact hrest fun h => by cases h⟩)
    fun d hd ha hrest => by
      have hrest' : d.rest = (([] : List HeaderModel).map HeaderModel.line).flatMap Token.lineTokens
          ++ Token.lineFeed :: (m.lineTokens q b ++ []) := hrest
      obtain ⟨_, rfl, hexact⟩ := exact_messageWithBody (P := (· = m.lineTrees q b)) hd ha hrest'
        (.inl rfl) hfirst fun e he _ hr => by
          rw [hitem]
          exact ⟨_, rfl, exact_pathPlace m q he hr (fun _ => rfl) (by simp)⟩
      exact ⟨_, rfl, hexact⟩
  rw [hline, List.append_nil]
  exact hrequest

/-- A section of a script in front of a request. -/
lemma exact_scriptSection (hc : c.Live) (ha : c.Aligned)
    (hr : c.rest = m.lineTokens .script b) :
    Exact (m.lineTokens .script b) [.node .section (m.lineTrees .script b)] c c.fullSection := by
  have hrest : c.rest = ⟨.angleOpen, "<"⟩ :: Token.blank :: (m.tokens ++ Token.ending b) := hr
  refine exact_linesSection hc ha (by simp [atSeparator, Lookahead.isSeparatorLine, hrest])
    fun d hd had hdr => ?_
  rw [hrest] at hdr
  have hline : PreambleLine.ofTokens (Lookahead.skipBlanks d.rest) = .preRequestScript := by
    rw [hdr, Lookahead.skipBlanks_cons, if_neg (by simp)]
    simp [PreambleLine.ofTokens, Token.blank]
  have hmore : (d.stopped || d.atSeparator) = false := by
    simp [hd.stopped_eq, atEnd, atSeparator, Lookahead.isSeparatorLine, hdr]
  have hblank := exact_eatBlank_skip hd (by simp [sees, hdr])
  have hturn : preambleTurn d = .again d.eatBlank.preRequestScript := by
    simp only [preambleTurn, hline, hmore, Bool.false_eq_true, if_false]
  have hlast : d.eatBlank.rest = m.lineTokens .script b ++ [] := by
    rw [List.append_nil]
    exact (hblank.rest_eq (List.nil_append d.rest).symm).trans hdr
  have hscript : Exact _ _ d d.eatBlank.preRequestScript := hblank.trans
    (exact_pathPlace m .script hblank.live hlast (fun _ => rfl) (by simp))
  have hnil : d.eatBlank.preRequestScript.rest = [] :=
    hscript.rest_eq (by rw [hdr]; exact (List.append_nil _).symm)
  have hdone : preambleTurn d.eatBlank.preRequestScript = .done d.eatBlank.preRequestScript := by
    have hstop : d.eatBlank.preRequestScript.stopped := by
      rw [hscript.live.stopped_eq, atEnd, hnil]
      rfl
    rw [preambleTurn, if_pos (by simp [hstop])]
  rw [loop_eq (fun _ hd ha => run_preambleTurn (e := true) hd ha) hd had hturn, loop_of_done hdone]
  exact hscript

end Cursor

/-! ### Documents -/

namespace PathModel

variable (m : PathModel)

/-- **The contents** of a path are its text, and the references in it. -/
lemma value_tree (o : Nat) : (Value.ofTree ⟨o, m.tree⟩).text = m.text ∧
    (Value.ofTree ⟨o, m.tree⟩).references = m.reading.references := by
  refine ⟨?_, m.reading.references_eq .path⟩
  rw [Value.ofTree, Piece.ofTree, tree, Tree.text_node, m.reading.textOf_trees]
  exact m.textOf_tokens

lemma nodesOf_tree : m.tree.nodesOf .path = [m.tree] := by
  have hself : m.tree.nodesOf .path = m.tree :: Tree.nodesOfAll .path m.reading.trees := rfl
  rw [hself, m.reading.nodesOfAll_trees ⟨by decide, by decide⟩]

/-- A line that names a file has one path, below the node of its place. -/
lemma nodesOfAll_line (q : PathPlace) (b : Bool) :
    Tree.nodesOfAll .path (m.lineTrees q b) = [m.tree] ∧
      ∃ t ∈ m.lineTrees q b, t.isNode ∧ t.kind = q.kind ∧ m.tree ∈ t.children := by
  have hend : Tree.nodesOfAll .path (Cursor.endTrees b) = [] := by
    cases b <;> rfl
  have hmarker : Tree.nodesOfAll .path q.markerTrees = [] := by
    rcases q with _ | (_ | _) | _ | (_ | _) <;> rfl
  have hnamed : Tree.nodesOfAll .path (m.namedTrees q) = [m.tree] := by
    rw [namedTrees, Tree.nodesOfAll_append, hmarker, Tree.nodesOfAll, Tree.nodesOfAll,
      m.nodesOf_tree]
    rfl
  have hmem : m.tree ∈ m.namedTrees q :=
    List.mem_append_right _ (List.mem_cons_of_mem _ List.mem_cons_self)
  have hinside : m.tree ∈ m.namedTrees q ++ Cursor.endTrees b := List.mem_append_left _ hmem
  have hkind : q.kind ≠ .path := by
    cases q <;> exact Kind.noConfusion
  have hsingle : Tree.nodesOfAll .path [.node q.kind (m.namedTrees q ++ Cursor.endTrees b)]
      = [m.tree] := by
    rw [Tree.nodesOfAll, Tree.nodesOf_node_of_ne hkind, Tree.nodesOfAll_append, hnamed, hend]
    rfl
  cases q with
  | external sub =>
      refine ⟨?_, _, List.mem_cons_self, rfl, rfl, hmem⟩
      rw [lineTrees, Tree.nodesOfAll, Tree.nodesOf_node_of_ne (by decide), hnamed, hend]
      rfl
  | script => exact ⟨hsingle, _, List.mem_cons_self, rfl, rfl, hinside⟩
  | handler => exact ⟨hsingle, _, List.mem_cons_self, rfl, rfl, hinside⟩
  | redirect overwrite => exact ⟨hsingle, _, List.mem_cons_self, rfl, rfl, hinside⟩

/-- The document with a line that names a file: its section is the line, or a request that ends in
it. -/
lemma exists_document (q : PathPlace) (b : Bool) : ∃ d trees,
    Document.parse Document.defaultLimits (m.source q b) = .ok d ∧ d.diagnostics = [] ∧
      d.tree = .node .document [.node .section trees] ∧
      (trees = m.lineTrees q b ∨ trees = [.node .request (Cursor.pathRequestTrees m q b)]) := by
  by_cases hq : q = .script
  · subst hq
    have hscan : Token.scan (m.source .script b) = m.lineTokens .script b := Token.scan_path m _ _
    have hsection := Cursor.exact_scriptSection (b := b) m (Cursor.live_start (m.source .script b))
      (Or.inr rfl) hscan
    rw [← hscan] at hsection
    obtain ⟨p, hp, htree, hreports, _⟩ :=
      Parsed.ofSource_of_section (by rw [hscan]; exact List.cons_ne_nil _ _) hsection
    exact ⟨_, _, Document.parse_of_single hp hreports (congrArg Document.sectionsOf htree) rfl, rfl,
      htree, .inl rfl⟩
  · have hscan : ∃ ts, Token.scan (m.source q b) = ⟨.word, "GET"⟩ :: Token.blank :: ts := by
      have hfront : ∃ ts, Token.scan q.request = ⟨.word, "GET"⟩ :: Token.blank :: ts := by
        rcases q with _ | (_ | _) | _ | (_ | _)
        · exact absurd rfl hq
        all_goals exact ⟨[⟨.slash, "/"⟩, Token.lineFeed, Token.lineFeed], by decide +kernel⟩
      obtain ⟨ts, hts⟩ := hfront
      exact ⟨ts ++ m.lineTokens q b, by rw [Token.scan_path, hts]; rfl⟩
    obtain ⟨ts, hts⟩ := hscan
    obtain ⟨d, hd, hdiagnostics, htree, _⟩ := Document.exists_of_request (by decide) hts
      fun c hc hr => Cursor.exact_pathRequest m hq hc hr
    exact ⟨d, _, hd, hdiagnostics, htree, .inr rfl⟩

/-- **Parsing undoes printing** for paths. Wherever the parser may read a path that is accepted to
the last token of the model, it reads just those, and reports nothing. In every place a line with the
path is parsed without diagnostics, its path is the only one, and it has the text of the model and its
references, closed and with their names. -/
theorem parse_path :
    (∀ (us : List Token) (c : Cursor), c.Live → c.rest = m.tokens ++ us →
      Lookahead.pathLength c.rest = m.tokens.length → Cursor.Exact m.tokens [m.tree] c c.path) ∧
    (∀ o, (Value.ofTree ⟨o, m.tree⟩).text = m.text ∧
      (Value.ofTree ⟨o, m.tree⟩).references = m.reading.references) ∧
    ∀ (q : PathPlace) (b : Bool), ∃ d, Document.parse Document.defaultLimits (m.source q b) = .ok d ∧
      d.diagnostics = [] ∧ d.tree.nodesOf .path = [m.tree] ∧
      ∃ u ∈ d.tree.nodesOf q.kind, m.tree ∈ u.children := by
  refine ⟨fun us c hc hr hlength => Cursor.exact_path m hc hr hlength, m.value_tree,
    fun q b => ?_⟩
  obtain ⟨d, trees, hd, hdiagnostics, htree, htrees⟩ := m.exists_document q b
  obtain ⟨hpaths, t, ht, hnode, hkind, hmem⟩ := m.nodesOfAll_line q b
  -- the line is the section or ends a request, the rest of which has no path
  have hline : Tree.nodesOfAll .path trees = [m.tree] ∧ t ∈ Tree.nodesOfAll q.kind trees := by
    have hself : t ∈ Tree.nodesOfAll q.kind (m.lineTrees q b) :=
      Tree.mem_nodesOfAll_of_mem ht (hkind ▸ Tree.mem_nodesOf_self hnode)
    rcases htrees with rfl | rfl
    · exact ⟨hpaths, hself⟩
    · have hfront : ∀ K, Tree.nodesOfAll K (Cursor.pathRequestTrees m q b)
          = Tree.nodesOfAll K (Cursor.urlRequestTrees "GET" [.leaf .text "/"] true)
            ++ Tree.nodesOfAll K (m.lineTrees q b) := by
        intro K
        rw [Cursor.pathRequestTrees, Tree.nodesOfAll_append, Tree.nodesOfAll, Tree.nodesOf_leaf,
          List.nil_append]
      refine ⟨?_, Tree.mem_nodesOfAll_of_mem List.mem_cons_self (Tree.mem_nodesOf_node ?_)⟩
      · rw [Tree.nodesOfAll, Tree.nodesOf_node_of_ne (by decide), hfront, hpaths]
        rfl
      · rw [hfront]
        exact List.mem_append_right _ hself
  refine ⟨d, hd, hdiagnostics, ?_, t, ?_, hmem⟩
  · rw [htree, Tree.nodesOf_node_of_ne (by decide), Tree.nodesOfAll,
      Tree.nodesOf_node_of_ne (by decide), hline.1]
    rfl
  · rw [htree]
    exact Tree.mem_nodesOf_node (Tree.mem_nodesOfAll_of_mem List.mem_cons_self
      (Tree.mem_nodesOf_node hline.2))

/-- A blank behind a backslash, and a reference behind one. -/
def escaped : PathModel where
  text := "a\\ b/\\\x7b\x7bc\x7d\x7d.d"
  reading := ⟨Token.scanFrom false 0 "a\\ b/\\".toList,
    [⟨[⟨.word, "c"⟩], Token.scanFrom false 0 ".d".toList, by decide, by decide⟩], by decide⟩
  scanned := by decide
  text_ne := by decide
  whole := by decide

/-- The escaped blank and the reference are in the path, where it stands alone and where it names the
body of a request. -/
theorem parse_path_escaped :
    (∃ c : Cursor, c.Live ∧ c.rest = escaped.tokens ∧
      Cursor.Exact escaped.tokens [escaped.tree] c c.path) ∧
    (Value.ofTree ⟨0, escaped.tree⟩).references = [⟨"\x7b\x7bc\x7d\x7d", some "c", true⟩] ∧
    ∃ d, Document.parse Document.defaultLimits
        "GET /\n\n<@ a\\ b/\\\x7b\x7bc\x7d\x7d.d\n" = .ok d ∧
      d.diagnostics = [] ∧ d.tree.nodesOf .path = [escaped.tree] ∧
      ∃ u ∈ d.tree.nodesOf .externalBody, escaped.tree ∈ u.children := by
  obtain ⟨hpath, hvalue, hdocument⟩ := escaped.parse_path
  have hscan : Token.scan escaped.text = escaped.tokens := by decide
  have hsource : escaped.source (.external true) true
      = "GET /\n\n<@ a\\ b/\\\x7b\x7bc\x7d\x7d.d\n" := by decide +kernel
  refine ⟨⟨Cursor.start .unlimited (Token.scan escaped.text), Cursor.live_start _, hscan, ?_⟩,
    (hvalue 0).2, ?_⟩
  · exact hpath [] _ (Cursor.live_start _) (hscan.trans (List.append_nil _).symm)
      ((congrArg Lookahead.pathLength hscan).trans escaped.whole)
  · rw [← hsource]
    exact hdocument (.external true) true

/-- A backslash in front of an opener keeps it in the path, but does not make it text. A reference
behind one is read as a reference, and an opener that begins none is reported. -/
theorem not_parse_path :
    (∃ d, Document.parse Document.defaultLimits "GET /\n\n< \\\x7b\x7ba\x7d\x7d\n" = .ok d ∧
      ∃ u ∈ d.tree.nodesOf .path, u.text = "\\\x7b\x7ba\x7d\x7d" ∧ u.childrenOf .variable ≠ []) ∧
    Lookahead.pathLength (Token.scanFrom false 0 "\\\x7b\x7ba".toList) = 3 ∧
    ∃ d, Document.parse Document.defaultLimits "GET /\n\n< \\\x7b\x7ba\n" = .ok d ∧
      d.diagnostics ≠ [] := by
  have hread : ∃ d, Document.parse Document.defaultLimits
      "GET /\n\n< \\\x7b\x7ba\x7d\x7d\n" = .ok d ∧
        ((d.tree.nodesOf .path).any fun u => u.text == "\\\x7b\x7ba\x7d\x7d" &&
          !(u.childrenOf .variable).isEmpty) :=
    Document.exists_ok_of_any (by decide +kernel)
  have hopen : ∃ d, Document.parse Document.defaultLimits "GET /\n\n< \\\x7b\x7ba\n" = .ok d ∧
      !d.diagnostics.isEmpty :=
    Document.exists_ok_of_any (by decide +kernel)
  obtain ⟨d, hd, hany⟩ := hread
  obtain ⟨u, hu, htext⟩ := List.any_eq_true.mp hany
  obtain ⟨e, he, hempty⟩ := hopen
  exact ⟨⟨d, hd, u, hu, by simpa using htext⟩, by decide, e, he, by simpa using hempty⟩

end PathModel

end RequestFile
