import RequestFile.Proofs.LineHeads
import RequestFile.Proofs.TextBody
import RequestFile.Proofs.Yields

/-!
The parts of a GraphQL body.

A GraphQL body is a query, and behind blank lines there may be JSON variables, and behind further ones
a file with variables (`Parsed.ofSource_graphqlBodies`).

* **Lines.** A part goes on to its last line that is not blank in front of the first one that ends a
  text, or that begins a later part behind a blank line (`TextPart`, `Lookahead.exists_part`).
* **Runs.** Where a part has stopped stand blank lines, and a line that begins a later part stands
  behind one of them (`Lookahead.PartEnd`). So what is asked there once more finds the line that has
  ended the part, and what it begins has a blank line in front (`Cursor.yields_graphqlVariables`,
  `Cursor.yields_graphqlFile`).
* **Sources.** The lines of a part are lines of the source
  (`Tree.Site.HasOrigin.exists_graphqlParts`).
-/

namespace RequestFile

/-! ### How far a part goes -/

/-- Lines of a part: the last is not blank, none but the first ends a text, and none behind a blank
line begins a later part. -/
structure TextPart {α : Type} (blank stop tail : α → Bool) (ls : List α) : Prop where
  last : ∃ l ∈ ls.getLast?, blank l = false
  stop : ∀ l ∈ ls.tail, stop l = false
  tail : ls.IsChain fun a b => blank a → tail b = false

/-- Lines that are told in the same way are parts in the same way. -/
lemma TextPart.map {α β : Type} {blank stop tail : α → Bool} {blank' stop' tail' : β → Bool}
    {ls : List α} {f : α → β} (h : TextPart blank stop tail ls)
    (hf : ∀ l ∈ ls, blank l = blank' (f l) ∧ stop l = stop' (f l) ∧ tail l = tail' (f l)) :
    TextPart blank' stop' tail' (ls.map f) where
  last := by
    obtain ⟨l, hl, hlast⟩ := h.last
    refine ⟨f l, by rw [List.getLast?_map, Option.mem_def.mp hl]; rfl, ?_⟩
    rw [← (hf l (List.mem_of_getLast? hl)).1, hlast]
  stop := by
    rw [← List.map_tail, List.forall_mem_map]
    intro l hl
    rw [← (hf l (List.mem_of_mem_tail hl)).2.1, h.stop l hl]
  tail := by
    rw [List.isChain_map]
    refine h.tail.imp_of_mem_imp fun a b ha hb hab hblank => ?_
    rw [← (hf b hb).2.2]
    exact hab ((hf a ha).1.trans hblank)

lemma TextPart.ne_nil {α : Type} {blank stop tail : α → Bool} {ls : List α}
    (h : TextPart blank stop tail ls) : ls ≠ [] := by
  rintro rfl
  obtain ⟨l, hl, -⟩ := h.last
  cases hl

namespace Lookahead

variable {ts l : List Token} {ls blanks after : List (List Token)} {tail : List Token → Bool}

lemma isBlankLine_of_isBodyStop (h : isBodyStop l) : isBlankLine l = false := by
  cases l with
  | nil => cases h
  | cons t ts =>
      simp only [isBodyStop, startsWith_cons, Bool.or_eq_true, decide_eq_true_eq] at h
      rw [isBlankLine_cons]
      rcases h with (h | h) | h <;> simp [h]

/-- A later part begins on a line that is not blank and ends no text. -/
lemma of_isGraphqlTail (h : isGraphqlTail l) : isBlankLine l = false ∧ isBodyStop l = false := by
  cases l with
  | nil => cases h
  | cons t ts =>
      have hk : t.kind = .braceOpen ∨ t.kind = .bracketOpen ∨ t.kind = .angleOpen := by
        simp only [isGraphqlTail, isExternal, Bool.or_eq_true, Bool.and_eq_true, startsWith_cons,
          decide_eq_true_eq] at h
        rcases h with h | ⟨⟨h, -⟩, -⟩
        · have hjson : t.kind = .braceOpen ∨ t.kind = .bracketOpen := by
            simpa [isJson, startsIn, KindSet.contains, jsonKinds] using h
          exact hjson.imp_right .inl
        · exact .inr (.inr h)
      rw [isBlankLine_cons]
      rcases hk with h | h | h <;> simp [h, isBodyStop]

lemma of_isExternal (h : isExternal l) : isBlankLine l = false ∧ isBodyStop l = false :=
  of_isGraphqlTail (by rw [isGraphqlTail, h, Bool.or_true])

/-- **Lines up to a later part**, by induction on them: each is told by whether the one in front of it
is blank. -/
lemma exists_linesBeforeTail (tail : List Token → Bool) (htail : ∀ l, tail l → isBlankLine l = false)
    (first : List Token) (ls : List (List Token)) : ∃ front after, ls = front ++ after ∧
      linesBeforeTail tail (isBlankLine first) ls = front ∧ (∀ l ∈ front, isBodyStop l = false) ∧
      (first :: front).IsChain (fun a b => isBlankLine a → tail b = false) ∧
      ∀ l ∈ after.head?, isBlankLine l = false ∧ (isBodyStop l = false →
        isBlankLine ((first :: front).getLast (List.cons_ne_nil _ _))) := by
  induction ls generalizing first with
  | nil => exact ⟨[], [], rfl, rfl, by simp, .singleton _, by simp⟩
  | cons l ls ih =>
      by_cases hstop : isBodyStop l
      · exact ⟨[], l :: ls, rfl, by simp [linesBeforeTail, hstop], by simp, .singleton _,
          by simp [hstop, isBlankLine_of_isBodyStop hstop]⟩
      by_cases hnext : isBlankLine first ∧ tail l
      · exact ⟨[], l :: ls, rfl, by simp [linesBeforeTail, hnext, htail l hnext.2], by simp,
          .singleton _, by simp [hnext.1, htail l hnext.2]⟩
      obtain ⟨front, after, rfl, hfront, hstops, hchain, hafter⟩ := ih l
      have hgo : isBlankLine first → tail l = false := fun hb =>
        Bool.eq_false_iff.mpr fun ht => hnext ⟨hb, ht⟩
      refine ⟨l :: front, after, rfl, ?_, List.forall_mem_cons.mpr ⟨by simpa using hstop, hstops⟩,
        .cons_cons hgo hchain, ?_⟩
      · rw [linesBeforeTail, if_neg, hfront]
        simp only [Bool.or_eq_true, Bool.and_eq_true, not_or]
        exact ⟨hstop, fun h => hnext ⟨h.1.1, h.2⟩⟩
      · rwa [List.getLast_cons_cons]

/-- Lines at which a part has stopped: blank ones, and then one that is not blank. It begins a later
part only behind a blank one. -/
structure PartEnd (tail : List Token → Bool) (blanks after : List (List Token)) : Prop where
  blank : ∀ l ∈ blanks, isBlankLine l
  head : ∀ l ∈ after.head?, isBlankLine l = false ∧ (tail l → blanks ≠ [])

/-- **The lines of a part**, and those at which it has stopped. -/
lemma exists_part (htail : ∀ l, tail l → isBlankLine l = false ∧ isBodyStop l = false)
    (hne : ts ≠ []) (hfirst : isBlankLine ts = false) : ∃ body blanks after,
      splitLines ts = body ++ (blanks ++ after) ∧
      lengthBeforeTail tail ts = total List.length body ∧ TextPart isBlankLine isBodyStop tail body ∧
      PartEnd tail blanks after := by
  rw [← isBlankLine_take] at hfirst
  rw [splitLines_eq hne, lengthBeforeTail, splitLines_eq hne]
  dsimp only
  generalize ts.take (lineLength ts + 1) = first at *
  -- the lines up to the next part, and the blank ones at their end cut off
  obtain ⟨front, after, hfront, hlines, hstop, hchain, hafter⟩ :=
    exists_linesBeforeTail tail (fun l h => (htail l h).1) first
      (splitLines (ts.drop (lineLength ts + 1)))
  rw [hfirst] at hlines
  have hcut : front.rdropWhile isBlankLine ++ front.rtakeWhile isBlankLine = front :=
    List.rdropWhile_append_rtakeWhile
  have hlast : isBlankLine ((first :: front.rdropWhile isBlankLine).getLast
      (List.cons_ne_nil _ _)) = false := by
    by_cases hnil : front.rdropWhile isBlankLine = []
    · simpa [hnil] using hfirst
    · rw [List.getLast_cons hnil]
      exact Bool.eq_false_iff.mpr (List.rdropWhile_last_not _ _ hnil)
  refine ⟨first :: front.rdropWhile isBlankLine, front.rtakeWhile isBlankLine, after, ?_, ?_,
    ⟨⟨_, List.getLast?_eq_some_getLast _, hlast⟩, fun l hl => ?_, ?_⟩,
    fun l hl => List.mem_rtakeWhile_imp hl, fun l hl => ?_⟩
  · rw [hfront, List.cons_append, ← List.append_assoc, hcut]
  · rw [hlines, total_cons, List.rdropWhile, total_reverse]
    rfl
  · exact hstop l ((List.rdropWhile_prefix isBlankLine front).subset hl)
  · exact hchain.prefix
      (List.cons_prefix_cons.mpr ⟨rfl, List.rdropWhile_prefix isBlankLine front⟩)
  · obtain ⟨hblank, hend⟩ := hafter l hl
    refine ⟨hblank, fun hbegins hnil => ?_⟩
    rw [hnil, List.append_nil] at hcut
    have hend := hend (htail l hbegins).2
    simp only [hcut, hend] at hlast
    cases hlast

/-- Tokens are as blank as their first line. -/
lemma isBlankLine_of_splitLines (h : splitLines ts = l :: ls) :
    ts ≠ [] ∧ isBlankLine ts = isBlankLine l := by
  have hne : ts ≠ [] := by
    rintro rfl
    cases h
  rw [splitLines_eq hne, List.cons.injEq] at h
  exact ⟨hne, by rw [← isBlankLine_take, h.1]⟩

/-- Behind lines stand the lines behind them. -/
lemma splitLines_of_append {us : List Token} (hts : ts = ls.flatten ++ us)
    (h : splitLines ts = ls ++ after) : splitLines us = after := by
  induction ls generalizing ts with
  | nil =>
      rw [hts] at h
      exact h
  | cons l ls ih =>
      obtain ⟨vs, e, ws, rfl, rfl, hls, _⟩ := exists_of_splitLines h
      rw [List.flatten_cons, List.append_assoc, List.append_assoc, List.append_cancel_left_eq,
        List.append_cancel_left_eq] at hts
      exact ih hts hls.symm

lemma total_length (ls : List (List Token)) : total List.length ls = ls.flatten.length := by
  induction ls with
  | nil => rfl
  | cons l ls ih => rw [total_cons, ih, List.flatten_cons, List.length_append]

lemma blankLinesLength_of_lines (h : splitLines ts = blanks ++ after)
    (hblank : ∀ l ∈ blanks, isBlankLine l) (hafter : ∀ l ∈ after.head?, isBlankLine l = false) :
    blankLinesLength ts = blanks.flatten.length := by
  have hnone : after.takeWhile isBlankLine = [] := by
    cases after with
    | nil => rfl
    | cons l ls => simp [hafter l rfl]
  rw [blankLinesLength, h, List.takeWhile_append_of_pos hblank, hnone, List.append_nil,
    total_length]

/-- What is asked of the tokens ahead is asked of the first line. -/
lemma eq_any_head {q : List Token → Bool} (hq : LineLocal q) (hnil : q [] = false)
    (h : splitLines ts = ls) : q ts = ls.head?.any q := by
  by_cases hne : ts = []
  · subst hne h
    exact hnil
  · rw [← h, splitLines_eq hne, List.head?_cons, Option.any_some, hq.take]

/-- What is asked where a part has stopped. -/
lemma PartEnd.eq_any_head {q : List Token → Bool} (hp : PartEnd tail blanks after)
    (hq : LineLocal q) (hnil : q [] = false)
    (h : splitLines ts = blanks ++ after) :
    q (ts.drop (blankLinesLength ts)) = after.head?.any q := by
  have hts : ts = blanks.flatten ++ after.flatten := by
    rw [← List.flatten_append, ← h, flatten_splitLines]
  refine Lookahead.eq_any_head hq hnil (splitLines_of_append ?_ h)
  rw [blankLinesLength_of_lines h hp.blank fun l hl => (hp.head l hl).1, hts, List.drop_left]

end Lookahead

/-! ### Parts in order -/

/-- A line is told by its tokens as by its text. -/
structure Token.Told (ts : List Token) : Prop where
  line : OverLine ts (lineOf ts)
  json : Lookahead.isJson ts = (lineOf ts).opensJson
  file : Lookahead.isExternal ts = (lineOf ts).namesFile

/-- Blank lines in front of a later part, and the leaves over them. -/
structure BlankGap (lines : List TextLine) (leaves : List Tree) : Prop where
  ne_nil : lines ≠ []
  blank : ∀ l ∈ lines, l.isBlank
  isNode : ∀ t ∈ leaves, t.isNode = false
  text : Tree.textOf leaves = String.ofList (lines.flatMap TextLine.chars)

/-- The variables of a GraphQL body, and the lines that they take: none, or JSON behind blank lines
that goes on to a file behind a blank line. -/
inductive GraphqlVariables : List TextLine → List TextLine → List Tree → Prop
  | absent : GraphqlVariables [] [] []
  | present {gap json : List TextLine} {leaves : List Tree} : BlankGap gap leaves →
      (∃ l ∈ json.head?, l.opensJson) →
      TextPart TextLine.isBlank TextLine.stopsBody TextLine.namesFile json →
      GraphqlVariables gap json (leaves ++ [.node .jsonBody (json.flatMap TextLine.trees)])

/-- The file with variables of a GraphQL body, and the lines in front of it and from it on: none, or
a path behind blank lines, maybe with an error behind it. -/
inductive GraphqlFile : List TextLine → List TextLine → List Tree → Prop
  | absent {after : List TextLine} : GraphqlFile [] after []
  | present {gap after : List TextLine} {l : TextLine} {leaves path rest : List Tree} :
      BlankGap gap leaves → l.namesFile → (∀ t ∈ rest, t.isNode → t.kind = .error) →
      GraphqlFile gap (l :: after) (leaves ++ .node .externalBody path :: rest)

namespace Cursor

open Lookahead (PartEnd splitLines isBlankLine isBodyStop)
open Token (lineOf Told)

variable {blanks after : List (List Token)} {tail : List Token → Bool} {c : Cursor}

/-- Blank lines are taken as leaves. -/
lemma yields_skipTo (hc : c.Live) (ha : c.Aligned) (h : splitLines c.rest = blanks ++ after)
    (hp : PartEnd tail blanks after) : ∃ leaves, (∀ t ∈ leaves, t.isNode = false) ∧
      Yields blanks.flatten leaves c (c.skipTo (c.read + Lookahead.blankLinesLength c.rest)) ∧
      (c.skipTo (c.read + Lookahead.blankLinesLength c.rest)).Aligned ∧
      splitLines (c.skipTo (c.read + Lookahead.blankLinesLength c.rest)).rest = after := by
  obtain ⟨hrun, ha', hrest⟩ := run_skipBlankLines (e := true) hc ha
  have hlength := Lookahead.blankLinesLength_of_lines h hp.blank fun l hl => (hp.head l hl).1
  have hflat : c.rest = blanks.flatten ++ after.flatten := by
    rw [← List.flatten_append, ← h, Lookahead.flatten_splitLines]
  rw [hlength] at hrun ha' hrest ⊢
  rw [hflat, List.drop_left] at hrest
  obtain ⟨ts, leaves, hleaves, hyields⟩ := hrun.exists_yields
  obtain rfl : ts = blanks.flatten :=
    List.append_cancel_right (hyields.rest.symm.trans (hflat.trans (by rw [hrest])))
  refine ⟨leaves, fun t ht => Bool.eq_false_iff.mpr fun hnode => ?_, hyields, ha',
    Lookahead.splitLines_of_append hyields.rest h⟩
  cases Form.none_of_tally (p := fun _ => true) (by decide) hleaves t ht hnode

/-- Such lines are a gap. -/
lemma gap_of_yields {leaves : List Tree} {c' : Cursor} (hy : Yields blanks.flatten leaves c c')
    (hleaves : ∀ t ∈ leaves, t.isNode = false) (hne : blanks ≠ [])
    (hblank : ∀ l ∈ blanks, isBlankLine l) (htold : ∀ l ∈ blanks, Told l) :
    BlankGap (blanks.map lineOf) leaves where
  ne_nil := by simpa using hne
  blank := by
    rw [List.forall_mem_map]
    exact fun l hl => (htold l hl).line.blank ▸ hblank l hl
  isNode := hleaves
  text := by rw [hy.text, Token.ofList_lines fun l hl => (htold l hl).line]

/-- A part is a node over its lines. -/
lemma yields_part {K : Kind}
    (htail : ∀ l, tail l → isBlankLine l = false ∧ isBodyStop l = false) (hc : c.Live)
    (hne : c.rest ≠ []) (hfirst : isBlankLine c.rest = false) : ∃ body blanks after,
      splitLines c.rest = body ++ (blanks ++ after) ∧ TextPart isBlankLine isBodyStop tail body ∧
      PartEnd tail blanks after ∧
      Yields body.flatten [.node K (body.flatMap Token.lineTrees)] c
        (c.textNode K (c.read + Lookahead.lengthBeforeTail tail c.rest)) ∧
      splitLines (c.textNode K (c.read + Lookahead.lengthBeforeTail tail c.rest)).rest
        = blanks ++ after := by
  obtain ⟨body, blanks, after, h, hlength, hpart, hend⟩ := Lookahead.exists_part htail hne hfirst
  have hexact := exact_textNode (K := K) hc
    (show body <+: splitLines c.rest by rw [h]; exact ⟨_, rfl⟩) (congrArg (c.read + ·) hlength)
  exact ⟨body, blanks, after, h, hpart, hend, hexact.yields,
    Lookahead.splitLines_of_append hexact.rest h⟩

/-- **The file** is there if and only if a line names it where the part in front has stopped. -/
lemma yields_graphqlFile (hc : c.Live) (ha : c.Aligned) (h : splitLines c.rest = blanks ++ after)
    (hp : PartEnd Lookahead.isExternal blanks after) (htold : ∀ l ∈ blanks ++ after, Told l) :
    ∃ gap others trees ts, blanks ++ after = gap ++ others ∧
      GraphqlFile (gap.map lineOf) (others.map lineOf) trees ∧ Yields ts trees c c.graphqlFile := by
  obtain ⟨leaves, hleaves, hskip, -, hafter⟩ := yields_skipTo hc ha h hp
  rw [graphqlFile, hp.eq_any_head Lookahead.lineLocal_isExternal rfl h]
  generalize c.skipTo (c.read + Lookahead.blankLinesLength c.rest) = d at *
  by_cases hfile : after.head?.any Lookahead.isExternal
  swap
  · rw [if_neg hfile]
    exact ⟨[], blanks ++ after, [], [], rfl, .absent, .refl hc⟩
  rw [if_pos hfile]
  obtain ⟨l, hl, hnames⟩ := (Option.any_eq_true _ _).mp hfile
  obtain ⟨ls, rfl⟩ := List.head?_eq_some_iff.mp hl
  have hsees : d.sees .angleOpen := by
    have hexternal := Lookahead.eq_any_head Lookahead.lineLocal_isExternal rfl hafter
    exact Lookahead.startsWith_of_isExternal (hexternal.trans hfile)
  obtain ⟨ts, new, hnew, hyields⟩ :=
    (run_externalBody (e := true) hskip.live hsees).toRun.exists_yields
  obtain ⟨w, hw, rest, hrest, rfl⟩ := Language.mem_mul.mp hnew
  obtain ⟨path, -, rfl⟩ := hw
  have hgap : BlankGap (blanks.map lineOf) leaves :=
    gap_of_yields hskip hleaves ((hp.head l rfl).2 hnames) hp.blank fun l hl =>
      htold l (List.mem_append_left _ hl)
  refine ⟨blanks, l :: ls, _, _, rfl, .present hgap ?_ fun t ht hnode => ?_, hskip.trans hyields⟩
  · rw [← (htold l (by simp)).file, hnames]
  · have hkind := Form.none_of_tally (p := fun k => k != .error) (by decide) hrest t ht hnode
    simpa using hkind

/-- **The variables** are there if and only if a line begins them where the query has stopped. -/
lemma yields_graphqlVariables (hc : c.Live) (ha : c.Aligned)
    (h : splitLines c.rest = blanks ++ after) (hp : PartEnd Lookahead.isGraphqlTail blanks after)
    (htold : ∀ l ∈ blanks ++ after, Told l) :
    ∃ gap json blanks' after' trees ts, blanks ++ after = gap ++ (json ++ (blanks' ++ after')) ∧
      GraphqlVariables (gap.map lineOf) (json.map lineOf) trees ∧
      Yields ts trees c c.graphqlVariables ∧ c.graphqlVariables.Aligned ∧
      splitLines c.graphqlVariables.rest = blanks' ++ after' ∧
      PartEnd Lookahead.isExternal blanks' after' := by
  have ha' := (run_graphqlVariables (e := true) hc ha).2
  obtain ⟨leaves, hleaves, hskip, -, hafter⟩ := yields_skipTo hc ha h hp
  rw [graphqlVariables, hp.eq_any_head Lookahead.lineLocal_isJson rfl h] at *
  dsimp only at *
  generalize c.skipTo (c.read + Lookahead.blankLinesLength c.rest) = d at *
  by_cases hjson : after.head?.any Lookahead.isJson
  swap
  · rw [if_neg hjson]
    exact ⟨[], [], blanks, after, [], [], rfl, .absent, .refl hc, ha, h, hp.blank, fun l hl =>
      ⟨(hp.head l hl).1, fun hnames => (hp.head l hl).2 (by simp [Lookahead.isGraphqlTail, hnames])⟩⟩
  rw [if_pos hjson] at ha' ⊢
  obtain ⟨l, hl, hbegins⟩ := (Option.any_eq_true _ _).mp hjson
  obtain ⟨ls, rfl⟩ := List.head?_eq_some_iff.mp hl
  obtain ⟨hne, hfirst⟩ := Lookahead.isBlankLine_of_splitLines hafter
  rw [(hp.head l rfl).1] at hfirst
  obtain ⟨json, blanks', after', hlines, hpart, hend, hyields, hrest⟩ :=
    yields_part (K := .jsonBody) (fun _ => Lookahead.of_isExternal) hskip.live hne hfirst
  rw [hafter] at hlines
  -- a line that begins the variables ends the query only behind blank lines, so there is a gap
  have hgap : BlankGap (blanks.map lineOf) leaves :=
    gap_of_yields hskip hleaves ((hp.head l rfl).2 (by simp [Lookahead.isGraphqlTail, hbegins]))
      hp.blank fun l hl => htold l (List.mem_append_left _ hl)
  have htold' : ∀ l ∈ json, Told l := fun l hl => htold l (by rw [hlines]; simp [hl])
  refine ⟨blanks, json, blanks', after', _, _, by rw [hlines], ?_, hskip.trans hyields, ha', hrest,
    hend⟩
  rw [Token.trees_lines fun l hl => (htold' l hl).line]
  refine .present hgap ?_ (hpart.map fun l hl =>
    ⟨(htold' l hl).line.blank, (htold' l hl).line.stop, (htold' l hl).file⟩)
  obtain ⟨l', ls', rfl⟩ := List.exists_cons_of_ne_nil hpart.ne_nil
  rw [List.cons_append, List.cons.injEq] at hlines
  refine ⟨lineOf l', rfl, ?_⟩
  rw [← (htold' l' List.mem_cons_self).json, ← hlines.1, hbegins]

/-- **A GraphQL body** has its parts in order. -/
lemma yields_graphqlBody (hc : c.Live) (ha : c.Aligned) (hne : c.rest ≠ [])
    (hfirst : isBlankLine c.rest = false) (htold : ∀ l ∈ splitLines c.rest, Told l) :
    ∃ query gap json gap' others vars file ts,
      splitLines c.rest = query ++ (gap ++ (json ++ (gap' ++ others))) ∧
      TextPart isBlankLine isBodyStop Lookahead.isGraphqlTail query ∧
      GraphqlVariables (gap.map lineOf) (json.map lineOf) vars ∧
      GraphqlFile (gap'.map lineOf) (others.map lineOf) file ∧
      Yields ts [.node .graphqlBody
        (.node .graphqlData (query.flatMap Token.lineTrees) :: (vars ++ file))] c c.graphqlBody := by
  have haligned := (run_textNode (e := true) (K := .graphqlData) hc.opened ha
    (Lookahead.lineBreak_lengthBeforeTail Lookahead.isGraphqlTail _)).2.2
  obtain ⟨query, blanks, after, hlines, hpart, hend, hquery, hrest⟩ :=
    yields_part (K := .graphqlData) (fun _ => Lookahead.of_isGraphqlTail) hc.opened hne hfirst
  have htold' : ∀ l ∈ blanks ++ after, Told l := fun l hl =>
    htold l (hlines.symm ▸ List.mem_append_right _ hl)
  obtain ⟨gap, json, blanks', after', vars, ts, hvarLines, hvars, hyields, ha', hrest', hend'⟩ :=
    yields_graphqlVariables hquery.live haligned hrest hend htold'
  obtain ⟨gap', others, file, us, hfileLines, hfile, hyields'⟩ :=
    yields_graphqlFile hyields.live ha' hrest' hend' fun l hl => htold' l (by
      rw [hvarLines]
      exact List.mem_append_right _ (List.mem_append_right _ hl))
  exact ⟨query, gap, json, gap', others, vars, file, _,
    hlines.trans (by rw [hvarLines, hfileLines]), hpart, hvars, hfile,
    ((hquery.trans hyields).trans hyields').node⟩

end Cursor

namespace Tree

/-! ### The kinds of the parts -/

/-- The kinds of the nodes in a row that report no error. -/
def soundKinds (ts : List Tree) : List Kind :=
  (ts.filter fun t => t.isNode && t.kind != .error).map kind

lemma soundKinds_append (ts us : List Tree) :
    soundKinds (ts ++ us) = soundKinds ts ++ soundKinds us := by
  rw [soundKinds, List.filter_append, List.map_append]
  rfl

lemma soundKinds_eq_nil {ts : List Tree} (h : ∀ t ∈ ts, t.isNode → t.kind = .error) :
    soundKinds ts = [] := by
  rw [soundKinds, List.map_eq_nil_iff, List.filter_eq_nil_iff]
  intro t ht hsound
  rw [Bool.and_eq_true] at hsound
  simp [h t ht hsound.1] at hsound

lemma soundKinds_node {k : Kind} (hk : k ≠ .error) (kids ts : List Tree) :
    soundKinds (.node k kids :: ts) = k :: soundKinds ts := by
  rw [soundKinds, List.filter_cons_of_pos (by simpa [isNode, kind] using hk)]
  rfl

end Tree

namespace BlankGap

variable {lines : List TextLine} {leaves : List Tree}

lemma soundKinds_append (h : BlankGap lines leaves) (ts : List Tree) :
    Tree.soundKinds (leaves ++ ts) = Tree.soundKinds ts := by
  rw [Tree.soundKinds_append, Tree.soundKinds_eq_nil fun t ht hnode => ?_, List.nil_append]
  rw [h.isNode t ht] at hnode
  cases hnode

end BlankGap

lemma GraphqlVariables.soundKinds {gap json : List TextLine} {trees : List Tree}
    (h : GraphqlVariables gap json trees) : (Tree.soundKinds trees).Sublist [.jsonBody] := by
  cases h with
  | absent => exact List.nil_sublist _
  | present hgap =>
      rw [hgap.soundKinds_append, Tree.soundKinds_node (by decide)]
      rfl

lemma GraphqlFile.soundKinds {gap after : List TextLine} {trees : List Tree}
    (h : GraphqlFile gap after trees) : (Tree.soundKinds trees).Sublist [.externalBody] := by
  cases h with
  | absent => exact List.nil_sublist _
  | present hgap _ hrest =>
      rw [hgap.soundKinds_append, Tree.soundKinds_node (by decide), Tree.soundKinds_eq_nil hrest]

namespace Tree

/-! ### GraphQL bodies of a source -/

variable {source : String} {s : Site}

/-- A GraphQL body at a site takes lines of the source: a query, and behind blank lines JSON, and
behind further ones a file. -/
structure Site.GraphqlParts (source : String) (s : Site)
    (before query gap json gap' after : List TextLine) (vars file : List Tree) : Prop where
  lines : textLines source.toList = before ++ (query ++ (gap ++ (json ++ (gap' ++ after))))
  front : String.ofList (before.flatMap TextLine.chars) = String.join (s.front.map Prod.snd)
  children : s.tree.children = .node .graphqlData (query.flatMap TextLine.trees) :: (vars ++ file)
  data : TextPart TextLine.isBlank TextLine.stopsBody (fun l => l.opensJson || l.namesFile) query
  json : GraphqlVariables gap json vars
  file : GraphqlFile gap' after file

/-- The parts of a GraphQL body, as lines of the source. -/
lemma Site.HasOrigin.exists_graphqlParts (h : s.HasOrigin (Token.scan source))
    (hk : s.tree.kind = .graphqlBody) (hnode : s.tree.isNode) :
    ∃ before query gap json gap' after vars file,
      s.GraphqlParts source before query gap json gap' after vars file := by
  have hwhole : s.tree.kind ∈ wholeBodyKinds := by rw [hk]; decide
  obtain ⟨before, c, hc, ha, hne, hfirst, hall, hfront, hb⟩ :=
    h.exists_start (.inl hwhole) (mem_bodyKinds_of_whole _ hwhole) hnode
      (show BodyLine.graphql.body? = some s.tree.kind by rw [hk]; rfl)
      fun d => ⟨_, Array.toList_push⟩
  obtain ⟨hmap, hover⟩ := Token.textLines_eq_map source
  have htold : ∀ l ∈ Lookahead.splitLines (Token.scan source), Token.Told l := fun l hl =>
    ⟨hover l hl, (Token.heads_scanFrom _ _ l hl).1, (Token.heads_scanFrom _ _ l hl).2⟩
  rw [hall] at hmap htold
  obtain ⟨query, gap, json, gap', after, vars, file, ts, hlines, hpart, hvars, hfile, hyields⟩ :=
    Cursor.yields_graphqlBody hc ha hne hfirst fun l hl => htold l (List.mem_append_right _ hl)
  have htree : s.tree = .node .graphqlBody
      (.node .graphqlData (query.flatMap Token.lineTrees) :: (vars ++ file)) :=
    List.singleton_inj.mp (List.append_cancel_left (hb.symm.trans hyields.built))
  rw [hlines] at hmap htold
  have hquery : ∀ l ∈ query, Token.Told l := fun l hl => htold l (by simp [hl])
  refine ⟨before.map Token.lineOf, query.map Token.lineOf, gap.map Token.lineOf,
    json.map Token.lineOf, gap'.map Token.lineOf, after.map Token.lineOf, vars, file, ?_, ?_, ?_,
    hpart.map fun l hl => ?_, hvars, hfile⟩
  · simpa using hmap
  · rw [← hfront, Token.ofList_lines fun l hl => (htold l (by simp [hl])).line]
  · rw [htree, ← Token.trees_lines fun l hl => (hquery l hl).line]
    rfl
  · refine ⟨(hquery l hl).line.blank, (hquery l hl).line.stop, ?_⟩
    rw [Lookahead.isGraphqlTail, (hquery l hl).json, (hquery l hl).file]

end Tree

/-- **The parts of a GraphQL body**, whatever the source is. Its nodes that report no error are a
query, then at most one JSON text, and then at most one file. The query and the JSON text end with a
line that is not blank. No line of them but the first begins with a separator marker or an angle. No
line of the query behind a blank one begins JSON or names a file, and none of the JSON text behind a
blank one names a file. JSON and the file stand behind blank lines. -/
theorem Parsed.ofSource_graphqlBodies (source : String) :
    ∃ p, Parsed.ofSource .unlimited source = .ok p ∧
      ∀ s ∈ p.tree.sites [] [], s.tree.kind = .graphqlBody →
        (∃ ks, Tree.soundKinds s.tree.children = .graphqlData :: ks ∧
          ks.Sublist [.jsonBody, .externalBody]) ∧
        ∃ before query gap json gap' after vars file,
          s.GraphqlParts source before query gap json gap' after vars file := by
  obtain ⟨p, hp, _⟩ := Parsed.ofSource_unlimited source
  refine ⟨p, hp, fun s hs hk => ?_⟩
  obtain ⟨before, query, gap, json, gap', after, vars, file, hparts⟩ :=
    (Parsed.hasOrigin hp s hs).exists_graphqlParts hk (Tree.isNode_of_mem_sites hs)
  refine ⟨⟨_, ?_, hparts.json.soundKinds.append hparts.file.soundKinds⟩,
    before, query, gap, json, gap', after, vars, file, hparts⟩
  rw [hparts.children, Tree.soundKinds_node (by decide), Tree.soundKinds_append]

/-- A selection behind a blank line is taken for variables, and so is not a part of the query. -/
example : ∃ p, Parsed.ofSource .unlimited "POST /u\n\nquery q\n\n\x7ba\x7d\n\n< v.json\n" = .ok p ∧
    (p.tree.nodesOf .graphqlBody).map (fun t => Tree.soundKinds t.children)
      = [[.graphqlData, .jsonBody, .externalBody]] :=
  ⟨_, rfl, by decide +kernel⟩

end RequestFile
