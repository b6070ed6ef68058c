import Mathlib.Data.List.DropRight
import RequestFile.Proofs.Canonical.Exact
import RequestFile.Proofs.Horizon
import RequestFile.Proofs.Origin
import RequestFile.Proofs.TextLines

/-!
How far text bodies go.

A JSON or XML body takes whole lines, from the one that it begins on to the last that is not blank in
front of the first one that begins with a separator marker or an angle; a raw body also stops in front
of a blank line. Both are one leaf for what stands on a line and one for its terminator
(`Parsed.ofSource_textBodies`).

* **Runs.** A line is one turn of the loop over the lines of a body (`Cursor.exact_textLine`), and the
  lines are read by induction on their number (`Cursor.exact_textLines`).
* **Lines.** How many tokens a body takes is measured in lines (`Lookahead.exists_lines`), and these
  are lines of the source (`Tree.Site.HasOrigin.exists_extent`).
-/

namespace RequestFile

/-! ### Runs over lines -/

namespace Lookahead

variable {ts us : List Token} {l : List Token} {ls : List (List Token)}

/-- A line of tokens: those in front of its terminator, and the terminator, if it has one. -/
lemma exists_of_splitLines (h : splitLines ts = l :: ls) :
    ∃ us e vs, l = us ++ e ∧ ts = us ++ (e ++ vs) ∧ ls = splitLines vs ∧ l ≠ [] ∧
      (∀ t ∈ us, t.kind ≠ .newline) ∧ (e = [] ∧ vs = [] ∨ ∃ t, e = [t] ∧ t.kind = .newline) := by
  have hne : ts ≠ [] := by
    rintro rfl
    cases h
  rw [splitLines_eq hne] at h
  obtain ⟨rfl, rfl⟩ := List.cons.inj h
  refine ⟨line ts, (ts.drop (lineLength ts)).take 1, ts.drop (lineLength ts + 1), ?_, ?_, rfl, ?_,
    fun t ht => kind_of_mem_line ht, ?_⟩
  · rw [List.take_add, take_lineLength]
  · rw [← List.drop_drop, List.take_append_drop, ← take_lineLength, List.take_append_drop]
  · simpa using hne
  · rcases head_drop_lineLength ts with hnil | hnl
    · exact .inl ⟨by rw [hnil, List.take_nil], by rw [← List.drop_drop, hnil, List.drop_nil]⟩
    · obtain ⟨t, us, hr, hk⟩ := exists_of_startsWith hnl
      exact .inr ⟨t, by rw [hr]; rfl, hk⟩

/-- Lines of tokens, put together again, are the tokens. -/
lemma flatten_splitLines (ts : List Token) : (splitLines ts).flatten = ts := by
  induction ts with
  | nil => rfl
  | cons t ts ih =>
      rw [splitLines]
      split_ifs
      · rw [List.flatten_cons, ih, List.singleton_append]
      · cases hs : splitLines ts with
        | nil =>
            rw [hs] at ih
            rw [← ih]
            rfl
        | cons l ls =>
            rw [hs] at ih
            rw [← ih]
            rfl

/-- **The lines of a text**: the first, those up to the last that is not blank in front of the first
one that ends the text, and the blank lines behind them. -/
lemma exists_lines (p : List Token → Bool) (hne : ts ≠ []) : ∃ first ls blanks after,
    splitLines ts = first :: (ls ++ (blanks ++ after)) ∧
      textLength p ts = total List.length (first :: ls) ∧
      (∀ l ∈ ls ++ blanks, p l = false) ∧ (∀ l ∈ ls.getLast?, isBlankLine l = false) ∧
      (∀ l ∈ blanks, isBlankLine l) ∧ ∀ l ∈ after.head?, p l := by
  obtain ⟨first, others, hlines⟩ := List.exists_cons_of_ne_nil
    (show splitLines ts ≠ [] by rw [splitLines_eq hne]; exact List.cons_ne_nil _ _)
  let front := others.takeWhile fun l => !p l
  have hfront : front.rdropWhile isBlankLine ++ front.rtakeWhile isBlankLine = front :=
    List.rdropWhile_append_rtakeWhile
  refine ⟨first, front.rdropWhile isBlankLine, front.rtakeWhile isBlankLine,
    others.dropWhile fun l => !p l, ?_, ?_, fun l hl => ?_, fun l hl => ?_,
    fun l hl => List.mem_rtakeWhile_imp hl, fun l hl => ?_⟩
  · rw [hlines, ← List.append_assoc, hfront, List.takeWhile_append_dropWhile]
  · rw [textLength, hlines, total_cons, List.rdropWhile, total_reverse]
    rfl
  · rw [hfront] at hl
    simpa using List.mem_takeWhile_imp hl
  · obtain ⟨hnil, rfl⟩ := List.mem_getLast?_eq_getLast hl
    exact Bool.eq_false_iff.mpr (List.rdropWhile_last_not _ _ hnil)
  · have hhead := List.head?_dropWhile_not (fun l => !p l) others
    rw [hl] at hhead
    simpa using hhead

end Lookahead

namespace Token

variable {us e : List Token}

/-- The leaves of a line by its parts. -/
lemma lineTrees_append (hus : ∀ t ∈ us, t.kind ≠ .newline)
    (he : e = [] ∨ ∃ t, e = [t] ∧ t.kind = .newline) :
    lineTrees (us ++ e) = (if us = [] then [] else [.leaf .text (textOf us)]) ++
      e.map fun t => .leaf .newline t.text := by
  have hline : Lookahead.line (us ++ e) = us := by
    rw [Lookahead.line, List.takeWhile_append_of_pos (by simpa using hus)]
    rcases he with rfl | ⟨t, rfl, hk⟩
    · simp
    · simp [hk]
  have hlength : Lookahead.lineLength (us ++ e) = us.length := congrArg List.length hline
  rw [lineTrees, hline, hlength, List.drop_left]

variable {tss : List (List Token)}

/-- Lines of tokens have the text of the lines that they hold. -/
lemma ofList_lines (h : ∀ ts ∈ tss, OverLine ts (lineOf ts)) :
    String.ofList ((tss.map lineOf).flatMap TextLine.chars) = textOf tss.flatten := by
  induction tss with
  | nil => rfl
  | cons ts tss ih =>
      obtain ⟨hts, htss⟩ := List.forall_mem_cons.mp h
      rw [List.map_cons, List.flatMap_cons, String.ofList_append, ih htss, ← hts.text,
        List.flatten_cons, textOf_append]

/-- Lines of tokens have the leaves of the lines that they hold. -/
lemma trees_lines (h : ∀ ts ∈ tss, OverLine ts (lineOf ts)) :
    tss.flatMap lineTrees = (tss.map lineOf).flatMap TextLine.trees := by
  induction tss with
  | nil => rfl
  | cons ts tss ih =>
      obtain ⟨hts, htss⟩ := List.forall_mem_cons.mp h
      rw [List.map_cons, List.flatMap_cons, List.flatMap_cons, ih htss, hts.trees]

end Token

namespace Cursor

variable {stop : Nat} {us e vs : List Token} {c : Cursor} {K : Kind}

/-- **A line of a text body** is read as its leaves. -/
lemma exact_textLine (hc : c.Live) (hr : c.rest = us ++ (e ++ vs))
    (hus : ∀ t ∈ us, t.kind ≠ .newline)
    (he : e = [] ∧ vs = [] ∨ ∃ t, e = [t] ∧ t.kind = .newline)
    (hle : c.read + (us ++ e).length ≤ stop) :
    Exact (us ++ e) (Token.lineTrees (us ++ e)) c (textLine stop c) := by
  have hend : c.lineEnd = c.read + us.length := by
    rcases he with ⟨rfl, rfl⟩ | ⟨t, rfl, hk⟩
    · rw [List.append_nil, List.append_nil] at hr
      rw [lineEnd, Lookahead.lineLength, hr, List.takeWhile_eq_self_iff.mpr (by simpa using hus)]
    · exact lineEnd_eq hr hus hk
  have hmin : min c.lineEnd stop = c.read + us.length := by
    rw [hend]
    rw [List.length_append] at hle
    omega
  -- a line without text has no leaf for it
  have htext : Exact us (if us = [] then [] else [.leaf .text (Token.textOf us)]) c
      (c.textUntil (c.read + us.length)) := by
    split_ifs with hnil
    · have hnone : c.textUntil (c.read + us.length) = c := by simp [textUntil, segment, hnil]
      rw [hnone, hnil]
      exact .refl hc
    · exact exact_textUntil hc hr hnil rfl
  have hrest := htext.rest_eq hr
  have hread := htext.read
  rw [Token.lineTrees_append hus (he.imp_left And.left), textLine, hmin]
  generalize c.textUntil (c.read + us.length) = d at *
  rcases he with ⟨rfl, rfl⟩ | ⟨t, rfl, hk⟩
  · have hskip : Exact [] [] d (if d.read < stop then d.eatNewline else d) := by
      split_ifs
      · exact exact_eat_skip htext.live (by simp [sees, hrest])
      · exact .refl htext.live
    exact htext.trans hskip
  · rw [List.length_append, List.length_singleton] at hle
    rw [if_pos (show d.read < stop by omega)]
    exact htext.trans (exact_eat htext.live hrest hk)

/-- **Lines of a text body**, by induction on their number. -/
lemma exact_textLines {ls : List (List Token)} (hc : c.Live)
    (hls : ls <+: Lookahead.splitLines c.rest) (hs : stop = c.read + total List.length ls) :
    Exact ls.flatten (ls.flatMap Token.lineTrees) c (c.textLines stop) := by
  induction ls generalizing c with
  | nil =>
      rw [textLines, loopWhile_of_not (by simp [hs])]
      exact .refl hc
  | cons l ls ih =>
      have hw : WithinInput stop c :=
        ⟨by omega, hs ▸ Nat.add_le_add_left (Lookahead.lineBreak_of_prefix hls).le _⟩
      obtain ⟨others, hothers⟩ := hls
      obtain ⟨us, e, vs, rfl, hr, hvs, hne, hus, he⟩ := Lookahead.exists_of_splitLines hothers.symm
      rw [total_cons] at hs
      have hline : Exact (us ++ e) (Token.lineTrees (us ++ e)) c (textLine stop c) :=
        exact_textLine hc hr hus he (by omega)
      have hlines := ih hline.live (by rw [hline.rest_eq (by rw [hr, List.append_assoc]), ← hvs]
                                       exact List.prefix_append _ _)
        (by rw [hline.read]; omega)
      have hpos := List.length_pos_of_ne_nil hne
      have hmore : (decide (c.read < stop) && !c.stopped) = true := by
        have hend : c.atEnd = false := by
          rw [atEnd, hr, ← List.append_assoc, List.isEmpty_eq_false_iff]
          exact List.append_ne_nil_of_left_ne_nil hne _
        have hlt : c.read < stop := by omega
        simp [hc.stopped_eq, hend, hlt]
      have hloop : c.textLines stop = (textLine stop c).textLines stop :=
        loopWhile_eq (e := true) run_textLine_turn hc hw hmore
      rw [hloop]
      exact hline.trans hlines

/-- A text body over whole lines. -/
lemma exact_textNode {ls : List (List Token)} (hc : c.Live)
    (hls : ls <+: Lookahead.splitLines c.rest) (hs : stop = c.read + total List.length ls) :
    Exact ls.flatten [.node K (ls.flatMap Token.lineTrees)] c (c.textNode K stop) :=
  (exact_textLines hc.opened hls hs).node

end Cursor

/-! ### Lines of bodies -/

/-- A line that begins a body is not blank. -/
lemma BodyLine.isBlankLine_of_body {ts : List Token} {k : Kind} (h : (ofTokens ts).body? = some k) :
    Lookahead.isBlankLine ts = false := by
  rw [ofTokens] at h
  by_contra hblank
  rw [if_pos (by simpa using hblank)] at h
  cases h

namespace Tree

open Lookahead (isBlankLine isBodyStop splitLines textLength)

variable {source : String} {s : Site}

/-- Where a body has been built that is all that its line begins, a line of the source begins that is
not blank. -/
lemma Site.HasOrigin.exists_start {all : List Token} (h : s.HasOrigin all) (hbody : s.IsBody)
    (hk : s.tree.kind ∈ bodyKinds) (hnode : s.tree.isNode) {line : BodyLine}
    (hline : line.body? = some s.tree.kind)
    (hone : ∀ d : Cursor, ∃ t, (d.bodyItem line).built.toList = d.built.toList ++ [t]) :
    ∃ (before : List (List Token)) (c : Cursor), c.Live ∧ c.Aligned ∧ c.rest ≠ [] ∧
      isBlankLine c.rest = false ∧ splitLines all = before ++ splitLines c.rest ∧
      Token.textOf before.flatten = String.join (s.front.map Prod.snd) ∧
      (c.bodyItem line).built.toList = c.built.toList ++ [s.tree] := by
  obtain ⟨c, line', front, lead, tail, hopens, ⟨before, hall, hover, hstart⟩, hfront, hb⟩ :=
    h.body hbody
  have hline' := hopens.body hnode hk
  obtain rfl : line' = line := BodyLine.body?_inj hline' hline
  -- the production builds one tree, so nothing stands in front of the body or behind it
  obtain ⟨hlead, htail⟩ : lead = [] ∧ tail = [] := by
    obtain ⟨t, ht⟩ := hone c
    have hlength := congrArg List.length (List.append_cancel_left (ht.symm.trans hb))
    simp only [List.length_append, List.length_cons, List.length_nil] at hlength
    exact ⟨List.eq_nil_of_length_eq_zero (by omega), List.eq_nil_of_length_eq_zero (by omega)⟩
  subst hlead htail
  have hterminated : Lookahead.Terminated before := by
    intro t ht
    rw [hopens.lineStart, ht] at hstart
    exact of_decide_eq_true hstart.symm
  refine ⟨splitLines before, c, hopens.live, .inr hopens.lineStart, hopens.nonempty,
    BodyLine.isBlankLine_of_body (hopens.told ▸ hline'), ?_, ?_, hb⟩
  · rw [hall, Lookahead.splitLines_append hterminated]
  · rw [hfront, leavesOf, List.append_nil, hover.join_eq, Lookahead.flatten_splitLines]

/-- A body that is text takes the lines of tokens that have been measured. -/
lemma Site.HasOrigin.exists_lines {all : List Token} (h : s.HasOrigin all) (hbody : s.IsBody)
    (hk : s.tree.kind ∈ bodyKinds) (hnode : s.tree.isNode) {line : BodyLine}
    {p : List Token → Bool} (hline : line.body? = some s.tree.kind)
    (hitem : ∀ d : Cursor, d.bodyItem line = d.textNode s.tree.kind (d.read + textLength p d.rest)) :
    ∃ before first ls blanks after,
      splitLines all = before ++ first :: (ls ++ (blanks ++ after)) ∧
      Token.textOf before.flatten = String.join (s.front.map Prod.snd) ∧
      s.tree.children = (first :: ls).flatMap Token.lineTrees ∧ isBlankLine first = false ∧
      (∀ l ∈ ls ++ blanks, p l = false) ∧ (∀ l ∈ ls.getLast?, isBlankLine l = false) ∧
      (∀ l ∈ blanks, isBlankLine l) ∧ ∀ l ∈ after.head?, p l := by
  obtain ⟨before, c, hc, _, hne, hblank', hall, hfront, hb⟩ :=
    h.exists_start hbody hk hnode hline fun d => ⟨_, by rw [hitem]; exact Array.toList_push⟩
  obtain ⟨first, ls, blanks, after, hlines, hlength, hstop, hlast, hblank, hafter⟩ :=
    Lookahead.exists_lines p hne
  have hexact := Cursor.exact_textNode (K := s.tree.kind) hc
    (show first :: ls <+: splitLines c.rest by rw [hlines]; exact ⟨_, rfl⟩)
    (congrArg (c.read + ·) hlength)
  -- what the production builds there is the body, since it builds one tree
  have htree : s.tree = .node s.tree.kind ((first :: ls).flatMap Token.lineTrees) := by
    have hone := hexact.built
    rw [← hitem, hb] at hone
    exact List.singleton_inj.mp (List.append_cancel_left hone)
  have hfirst : isBlankLine first = false := by
    have hrest := Lookahead.splitLines_eq hne
    rw [hlines] at hrest
    rw [(List.cons.inj hrest).1, Lookahead.isBlankLine_take]
    exact hblank'
  refine ⟨before, first, ls, blanks, after, by rw [hall, hlines], hfront, ?_, hfirst, hstop, hlast,
    hblank, hafter⟩
  rw [htree]
  rfl

/-- A body at a site takes lines of the source, one leaf for what stands on each and one for its
terminator. Behind it stand blank lines, and then what ends it. -/
structure Site.Extent (source : String) (s : Site) (before body blanks after : List TextLine) :
    Prop where
  lines : textLines source.toList = before ++ (body ++ (blanks ++ after))
  front : String.ofList (before.flatMap TextLine.chars) = String.join (s.front.map Prod.snd)
  children : s.tree.children = body.flatMap TextLine.trees
  last : ∃ l ∈ body.getLast?, l.isBlank = false
  blank : ∀ l ∈ blanks, l.isBlank

/-- The lines of a body that is text, as lines of the source. -/
lemma Site.HasOrigin.exists_extent (h : s.HasOrigin (Token.scan source)) (hbody : s.IsBody)
    (hk : s.tree.kind ∈ bodyKinds) (hnode : s.tree.isNode) {line : BodyLine}
    {p : List Token → Bool} {q : TextLine → Bool} (hline : line.body? = some s.tree.kind)
    (hitem : ∀ d : Cursor, d.bodyItem line = d.textNode s.tree.kind (d.read + textLength p d.rest))
    (hpq : ∀ ts l, Token.OverLine ts l → p ts = q l) :
    ∃ before body blanks after, s.Extent source before body blanks after ∧
      (∀ l ∈ body.tail ++ blanks, q l = false) ∧ ∀ l ∈ after.head?, q l := by
  obtain ⟨before, first, ls, blanks, after, hlines, hfront, hchildren, hfirst, hstop, hlast, hblank,
    hafter⟩ := h.exists_lines hbody hk hnode hline hitem
  obtain ⟨hmap, hover⟩ := Token.textLines_eq_map source
  rw [hlines] at hmap hover
  -- lines of tokens and lines of text correspond one by one
  have hsub : ∀ tss : List (List Token),
      (∀ ts ∈ tss, ts ∈ before ++ first :: (ls ++ (blanks ++ after))) →
      ∀ ts ∈ tss, Token.OverLine ts (Token.lineOf ts) :=
    fun tss hsub ts hts => hover ts (hsub ts hts)
  have hbody := hsub (first :: ls) (by simp +contextual)
  refine ⟨before.map Token.lineOf, (first :: ls).map Token.lineOf, blanks.map Token.lineOf,
    after.map Token.lineOf, ⟨?_, ?_, ?_, ?_, ?_⟩, ?_, ?_⟩
  · simp [hmap]
  · rw [← hfront, Token.ofList_lines (hsub before (by simp +contextual))]
  · rw [hchildren, Token.trees_lines hbody]
  · obtain ⟨l, hl, hnot⟩ : ∃ l ∈ (first :: ls).getLast?, isBlankLine l = false := by
      rw [List.getLast?_cons]
      cases hlast' : ls.getLast? with
      | none => exact ⟨first, rfl, hfirst⟩
      | some l => exact ⟨l, rfl, hlast l hlast'⟩
    refine ⟨Token.lineOf l, by rw [List.getLast?_map, Option.mem_def.mp hl]; rfl, ?_⟩
    rw [← (hbody l (List.mem_of_getLast? hl)).blank, hnot]
  · rw [List.forall_mem_map]
    exact fun l hl => (hover l (by simp [hl])).blank ▸ hblank l hl
  · rw [List.map_cons, List.tail_cons, ← List.map_append, List.forall_mem_map]
    intro l hl
    have hmem : l ∈ before ++ first :: (ls ++ (blanks ++ after)) := by
      rcases List.mem_append.mp hl with h | h <;> simp [h]
    rw [← hpq _ _ (hover l hmem), hstop l hl]
  · rw [List.head?_map]
    intro l hl
    obtain ⟨ts, hts, rfl⟩ := Option.map_eq_some_iff.mp hl
    rw [← hpq _ _ (hover ts (by simp [List.mem_of_mem_head? hts]))]
    exact hafter ts hts

end Tree

/-- **How far text bodies go**, whatever the source is. A JSON or XML body of a request or a response
takes whole lines, the last of which is not blank. No line of it but the first begins with a separator
marker or an angle, and behind it stand blank lines, and then such a line or the end of the source. A
raw body stops in front of a blank line, too. -/
theorem Parsed.ofSource_textBodies (source : String) :
    ∃ p, Parsed.ofSource .unlimited source = .ok p ∧ ∀ s ∈ p.tree.sites [] [],
      (s.tree.kind ∈ [.jsonBody, .xmlBody] → (∃ k ∈ s.around.head?, k ∈ Tree.messageKinds) →
        ∃ before body blanks after, s.Extent source before body blanks after ∧
          (∀ l ∈ body.tail, l.stopsBody = false) ∧ ∀ l ∈ after.head?, l.stopsBody) ∧
      (s.tree.kind = .rawBody →
        ∃ before body after, s.Extent source before body [] after ∧
          (∀ l ∈ body.tail, l.isBlank = false ∧ l.stopsBody = false) ∧
          ∀ l ∈ after.head?, l.isBlank ∨ l.stopsBody) := by
  obtain ⟨p, hp, _⟩ := Parsed.ofSource_unlimited source
  refine ⟨p, hp, fun s hs => ?_⟩
  have horigin := Parsed.hasOrigin hp s hs
  have hnode := Tree.isNode_of_mem_sites hs
  refine ⟨fun hk haround => ?_, fun hk => ?_⟩
  · have hbody : s.tree.kind ∈ Tree.bodyKinds := by
      rcases List.mem_pair.mp hk with hk | hk <;> rw [hk] <;> decide
    obtain ⟨line, hline, hitem⟩ : ∃ line : BodyLine, line.body? = some s.tree.kind ∧
        ∀ d : Cursor, d.bodyItem line = d.textNode s.tree.kind
          (d.read + Lookahead.textLength Lookahead.isBodyStop d.rest) := by
      rcases List.mem_pair.mp hk with hk | hk <;> rw [hk]
      · exact ⟨.json, rfl, fun _ => rfl⟩
      · exact ⟨.xml, rfl, fun _ => rfl⟩
    obtain ⟨before, body, blanks, after, hextent, hstop, hafter⟩ :=
      horigin.exists_extent (.inr ⟨hbody, haround⟩) hbody hnode hline hitem fun _ _ h => h.stop
    exact ⟨before, body, blanks, after, hextent,
      fun l hl => hstop l (List.mem_append_left _ hl), hafter⟩
  · have hraw : s.tree.kind ∈ Tree.wholeBodyKinds := by rw [hk]; decide
    have hline : BodyLine.raw.body? = some s.tree.kind := by rw [hk]; rfl
    obtain ⟨before, body, blanks, after, hextent, hstop, hafter⟩ :=
      horigin.exists_extent (.inl hraw) (Tree.mem_bodyKinds_of_whole _ hraw) hnode hline
        (fun _ => by rw [hk]; rfl)
        (fun ts l h => show _ = (l.isBlank || l.stopsBody) by rw [← h.blank, ← h.stop])
    -- a raw body stops in front of the first blank line, so none are left between
    have hnone : blanks = [] := List.eq_nil_iff_forall_not_mem.mpr fun l hl => by
      have hnot := hstop l (List.mem_append_right _ hl)
      rw [hextent.blank l hl] at hnot
      cases hnot
    subst hnone
    exact ⟨before, body, after, hextent,
      fun l hl => Bool.or_eq_false_iff.mp (hstop l (List.mem_append_left _ hl)),
      fun l hl => (Bool.or_eq_true _ _).mp (hafter l hl)⟩

/-- A body with a blank line in it, and one behind it that it leaves. -/
example : ∃ p, Parsed.ofSource .unlimited "POST /u\n\n[\n\n]\n\n> h\n" = .ok p ∧
    (p.tree.nodesOf .jsonBody).map Tree.leaves = [[(.text, "["), (.newline, "\n"), (.newline, "\n"),
      (.text, "]"), (.newline, "\n")]] :=
  ⟨_, rfl, by decide +kernel⟩

end RequestFile
