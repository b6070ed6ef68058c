import RequestFile.Proofs.Canonical.Lines
import RequestFile.Proofs.Section
import RequestFile.Proofs.Yields

/-!
Exact runs.

`Exact ts new c c'` says that a production takes the tokens `ts` and nothing else, builds the trees
`new` and reports nothing: it is what the production yields (`Exact.yields`) together with the silence.
Exact runs compose, and every step that productions are made of has one for the tokens that it is made
for.

A URL may be cut into pieces in many ways. What counts is that without an opener of a reference
nothing is reported (`urlLine_reports`); `Run.exact` makes an exact run of that.
-/

namespace RequestFile

open scoped Computability

namespace Cursor

/-- A production takes these tokens, builds these trees and reports nothing. -/
structure Exact (ts : List Token) (new : List Tree) (c c' : Cursor) : Prop extends Took ts c c' where
  live : c'.Live
  built : c'.built.toList = c.built.toList ++ new
  text : Tree.textOf new = Token.textOf ts
  reports : c'.reports = c.reports

variable {e : Bool} {k : Kind} {stop : Nat} {ts us : List Token} {new news : List Tree}
  {c c' c'' : Cursor}

/-- A run without reports that yields something is exact. -/
lemma Yields.exact (h : Yields ts new c c') (hq : c'.reports = c.reports) : Exact ts new c c' :=
  ⟨h.toTook, h.live, h.built, h.text, hq⟩

namespace Exact

lemma yields (h : Exact ts new c c') : Yields ts new c c' :=
  ⟨h.toTook, h.live, h.built, h.text⟩

lemma refl (hc : c.Live) : Exact [] [] c c :=
  (Yields.refl hc).exact rfl

/-- Exact runs compose. -/
lemma trans (h : Exact ts new c c') (h' : Exact us news c' c'') :
    Exact (ts ++ us) (new ++ news) c c'' :=
  (h.yields.trans h'.yields).exact (h'.reports.trans h.reports)

/-- An exact run with a step after it that does nothing. -/
lemma quiet (h : Exact ts new c c') (h' : Exact [] [] c' c'') : Exact ts new c c'' := by
  have hboth := h.trans h'
  rwa [List.append_nil, List.append_nil] at hboth

/-- What is left after an exact run. -/
lemma rest_eq (h : Exact ts new c c') (hr : c.rest = ts ++ us) : c'.rest = us :=
  h.yields.rest_eq hr

/-- A node over what a production builds. -/
lemma node {K : Kind} (h : Exact ts new c.opened c') :
    Exact ts [.node K new] c (c'.closed K c.built) :=
  h.yields.node.exact h.reports

/-- After the end of a line a line begins. -/
lemma aligned {t : Token} (h : Exact (ts ++ [t]) new c c') (ht : t.kind = .newline) :
    c'.Aligned := by
  refine Or.inr ?_
  rw [h.lineStart, List.getLast?_concat]
  exact decide_eq_true ht

/-- A production one level deeper. -/
lemma nested {body : Cursor → Cursor} (hc : c.Live)
    (h : Exact ts new c.lowered (body c.lowered)) : Exact ts new c (c.nested body) := by
  refine (Yields.nested hc h.yields).exact ?_
  rw [hc.nested_eq]
  exact h.reports

end Exact

/-- A run that reports nothing takes and builds something exactly. -/
lemma Run.exact {n : Nat} {L : TreeLanguage} (h : Run true n L c c') (hq : c'.reports = c.reports)
    (hr : c.rest = ts ++ us) (hread : c'.read = c.read + ts.length) :
    ∃ new ∈ L, Exact ts new c c' := by
  obtain ⟨new, hnew, hyields⟩ := h.yields hr hread
  exact ⟨new, hnew, hyields.exact hq⟩

/-! ### Steps -/

lemma exact_look (hc : c.Live) : Exact [] [] c c.look :=
  ⟨⟨by simp, by simp, by simp, by simp⟩, (run_look (e := true) hc).live, by simp, rfl, by simp⟩

lemma exact_take (hc : c.Live) (hr : c.rest = ts ++ us) (k : Kind) :
    Exact ts [.leaf k (Token.textOf ts)] c (c.take k ts.length) := by
  have htake : c.rest.take ts.length = ts := by rw [hr, List.take_left]
  have htook := took_take c k ts.length
  rw [htake] at htook
  exact ⟨htook, hc.take k _, by simp [take, htake], Tree.textOf_leaf _ _, rfl⟩

lemma exact_bump {t : Token} (hc : c.Live) (hr : c.rest = t :: us) :
    Exact [t] [.leaf t.kind t.text] c c.bump := by
  have heq : c.bump = c.take t.kind 1 := by rw [bump, hr]
  have hr' : c.rest = [t] ++ us := hr
  have htake := exact_take hc hr' t.kind
  rw [Token.textOf_cons, Token.textOf_nil, String.append_empty] at htake
  rwa [heq]

lemma exact_textUntil (hc : c.Live) (hr : c.rest = ts ++ us) (hne : ts ≠ [])
    (hs : stop = c.read + ts.length) :
    Exact ts [.leaf .text (Token.textOf ts)] c (c.textUntil stop) := by
  have hlen : stop - c.read = ts.length := by omega
  have hsegment : c.segment stop = ts := by rw [segment, hlen, hr, List.take_left]
  have heq : c.textUntil stop = c.take .text ts.length := by
    rw [textUntil, hsegment, if_neg (by simpa using hne), hlen]
  rw [heq]
  exact exact_take hc hr .text

lemma exact_leaf {K : Kind} (hc : c.Live) (hr : c.rest = ts ++ us) (hne : ts ≠ [])
    (hs : stop = c.read + ts.length) :
    Exact ts [.node K [.leaf .text (Token.textOf ts)]] c (c.leaf K stop) :=
  (exact_textUntil hc.opened hr hne hs).node

lemma exact_eat {t : Token} (hc : c.Live) (hr : c.rest = t :: us) (hk : t.kind = k) :
    Exact [t] [.leaf k t.text] c (c.eat k) := by
  have hs : c.sees k := by simp [sees, hr, hk]
  have heq : c.eat k = c.look.bump := by
    rw [eat, if_neg (by simp [atEnd, hr]), on_pos hs]
  have hlook := exact_look hc
  rw [heq, ← hk]
  exact hlook.trans (exact_bump hlook.live ((look_rest c).trans hr))

lemma exact_eat_skip (hc : c.Live) (hs : ¬c.sees k) : Exact [] [] c (c.eat k) := by
  rw [eat]
  split_ifs
  · exact .refl hc
  · rw [on_neg hs]
    exact exact_look hc

lemma exact_eatBlank (hc : c.Live) (hr : c.rest = Token.blank :: us) :
    Exact [Token.blank] [.leaf .whitespace " "] c c.eatBlank :=
  exact_eat hc hr rfl

lemma exact_eatBlank_skip (hc : c.Live) (hs : ¬c.sees .whitespace) : Exact [] [] c c.eatBlank :=
  exact_eat_skip hc hs

lemma exact_eatNewline (hc : c.Live) (hr : c.rest = Token.lineFeed :: us) :
    Exact [Token.lineFeed] [.leaf .newline "\n"] c c.eatNewline :=
  exact_eat hc hr rfl

/-- Nothing is left on a line. -/
lemma exact_finishLine (hc : c.Live) (hr : c.rest = Token.lineFeed :: us) (s : String) :
    Exact [] [] c (c.finishLine s) := by
  rw [finishLine, if_neg (by simp [atEnd, hr]), on_pos (by simp [sees, hr, Token.lineFeed])]
  exact exact_look hc

/-- In front of tokens of other kinds a kind is not seen. -/
lemma not_sees_of_kinds (hr : c.rest = ts ++ us) (hne : ts ≠ []) (h : ∀ t ∈ ts, t.kind ≠ k) :
    ¬c.sees k := by
  obtain ⟨t, ts, rfl⟩ := List.exists_cons_of_ne_nil hne
  simpa [sees, hr] using h t List.mem_cons_self

lemma exact_operator {t : Token} (hc : c.Live) (hr : c.rest = t :: us) :
    Exact [t] [.node .operator [.leaf t.kind t.text]] c c.operator :=
  (exact_bump hc.opened hr).node

end Cursor

/-! ### Searches -/

lemma KindSet.contains_eq_false {set : KindSet} {k : Kind} (h : ∀ k' ∈ set.members, k ≠ k') :
    set.contains k = false := by
  rw [KindSet.contains, List.contains_eq_mem, decide_eq_false_iff_not]
  exact fun hmem => h k hmem rfl

namespace Lookahead

variable {set : KindSet} {ts us : List Token}

/-- Tokens that a search for some kinds passes over, whatever follows them. -/
def Skips (set : KindSet) (ts : List Token) : Prop :=
  ∀ us, lengthOutsideVariables set (ts ++ us) = ts.length + lengthOutsideVariables set us

lemma skips_of_forall (h : ∀ t ∈ ts, t.kind ≠ .varOpen ∧ set.contains t.kind = false) :
    Skips set ts := by
  intro us
  induction ts with
  | nil => exact (Nat.zero_add _).symm
  | cons t ts ih =>
      obtain ⟨⟨hopen, hset⟩, hts⟩ := List.forall_mem_cons.mp h
      rw [List.cons_append, lengthOutsideVariables, lengthOutsideVariablesFrom, if_neg hopen, hset,
        if_neg Bool.false_ne_true, ← lengthOutsideVariables, ih hts, List.length_cons]
      omega

/-- A search passes over tokens of other kinds. -/
lemma skips_of_kinds (h : ∀ k ∈ Kind.varOpen :: set.members, ∀ t ∈ ts, t.kind ≠ k) : Skips set ts :=
  skips_of_forall fun t ht => ⟨h .varOpen List.mem_cons_self t ht,
    KindSet.contains_eq_false fun k hk => h k (List.mem_cons_of_mem _ hk) t ht⟩

lemma lengthBefore_eq (hts : ∀ t ∈ ts, set.contains t.kind = false)
    (hus : ∀ t ∈ us.head?, set.contains t.kind) : lengthBefore set (ts ++ us) = ts.length := by
  rw [lengthBefore, List.takeWhile_append_of_pos (by simpa using hts)]
  cases us with
  | nil => simp
  | cons u us => simp [hus u rfl]

/-- A search ends at what it looks for. -/
lemma lengthOutsideVariables_of_head (hopen : set.contains .varOpen = false)
    (h : ∀ t ∈ us.head?, set.contains t.kind) : lengthOutsideVariables set us = 0 := by
  cases us with
  | nil => rfl
  | cons t us =>
      have ht := h t rfl
      have hne : t.kind ≠ .varOpen := fun hk => by
        rw [hk, hopen] at ht
        cases ht
      rw [lengthOutsideVariables, lengthOutsideVariablesFrom, if_neg hne, if_pos ht]

end Lookahead

namespace Cursor

variable {set : KindSet} {stop : Nat} {ts us : List Token} {c : Cursor}

/-- What is ahead up to a position behind some tokens. -/
lemma segment_eq (hr : c.rest = ts ++ us) (hle : c.read + ts.length ≤ stop) :
    c.segment stop = ts ++ us.take (stop - (c.read + ts.length)) := by
  rw [segment, hr, List.take_append, List.take_of_length_le (by omega), Nat.sub_sub]

/-- Up to a position nothing is ahead, or what is ahead begins in the same way. -/
lemma forall_head_take {n : Nat} {P : Token → Prop} (h : stop = n ∨ ∀ t ∈ us.head?, P t) :
    ∀ t ∈ (us.take (stop - n)).head?, P t := by
  intro t ht
  rcases h with rfl | h
  · rw [Nat.sub_self] at ht
    cases ht
  · rw [List.head?_take] at ht
    split_ifs at ht with hzero
    · cases ht
    · exact h t ht

/-- A search behind tokens that it passes over ends at its bound or at what it looks for. -/
lemma outsideVariables_eq (hr : c.rest = ts ++ us) (hskips : Lookahead.Skips set ts)
    (hopen : set.contains .varOpen = false) (hle : c.read + ts.length ≤ stop)
    (hend : stop = c.read + ts.length ∨ ∀ t ∈ us.head?, set.contains t.kind) :
    c.outsideVariables set stop = c.read + ts.length := by
  rw [outsideVariables, segment_eq hr hle, hskips,
    Lookahead.lengthOutsideVariables_of_head hopen (forall_head_take hend), Nat.add_zero]

lemma before_eq (hr : c.rest = ts ++ us) (hts : ∀ t ∈ ts, set.contains t.kind = false)
    (hle : c.read + ts.length ≤ stop)
    (hend : stop = c.read + ts.length ∨ ∀ t ∈ us.head?, set.contains t.kind) :
    c.before set stop = c.read + ts.length := by
  rw [before, segment_eq hr hle, Lookahead.lengthBefore_eq hts (forall_head_take hend)]

/-- Nothing is trimmed from tokens that do not end with a blank. -/
lemma trimmedEnd_eq (hr : c.rest = ts ++ us) (hlast : ∀ t ∈ ts.getLast?, t.kind ≠ .whitespace) :
    c.trimmedEnd (c.read + ts.length) = c.read + ts.length := by
  rw [trimmedEnd, segment, Nat.add_sub_cancel_left, hr, List.take_left,
    Lookahead.trimmedLength_eq hlast]

variable {e : Bool} {k : Kind} {new news : List Tree} {c' c'' : Cursor}

/-! ### Loops -/

lemma loopWhile_of_not {more : Cursor → Bool} {body : Cursor → Cursor} (h : more c = false) :
    c.loopWhile more body = c := by
  rw [loopWhile, loop, iterate, if_neg (by simp [h])]

/-! ### Values -/

lemma le_lineEnd (hr : c.rest = ts ++ us) (hl : ∀ t ∈ ts, t.kind ≠ .newline) :
    c.read + ts.length ≤ c.lineEnd := by
  refine Nat.add_le_add_left ?_ _
  rw [Lookahead.lineLength, hr, List.takeWhile_append_of_pos (by simpa using hl), List.length_append]
  exact Nat.le_add_right _ _

lemma more_of_lt (hc : c.Live) (hr : c.rest = ts ++ us) (hne : ts ≠ [])
    (hs : stop = c.read + ts.length) : (decide (c.read < stop) && !c.stopped) = true := by
  have hpos := List.length_pos_of_ne_nil hne
  have hend : c.atEnd = false := by simp [atEnd, hr, hne]
  simp [hc.stopped_eq, hend, hs, hpos]

/-- A piece of text with references that is all of it. -/
lemma exact_interpolated_piece (hc : c.Live) (hr : c.rest = ts ++ us) (hne : ts ≠ [])
    (hl : ∀ t ∈ ts, t.kind ≠ .newline) (hs : stop = c.read + ts.length)
    (h : Exact ts new c (interpolatedPiece stop c)) : Exact ts new c (c.interpolated stop) := by
  have hw : WithinLine stop c := ⟨by omega, hs ▸ le_lineEnd hr hl⟩
  have hloop : c.interpolated stop = interpolatedPiece stop c := by
    refine (loopWhile_eq (e := true) run_interpolated_turn hc hw (more_of_lt hc hr hne hs)).trans ?_
    rw [loopWhile_of_not (by rw [h.read, hs]; simp)]
  rw [hloop]
  exact h

/-- Text without references is one leaf. -/
lemma exact_interpolated (hc : c.Live) (hr : c.rest = ts ++ us) (hne : ts ≠ [])
    (hl : ∀ t ∈ ts, t.kind ≠ .newline) (hv : ∀ t ∈ ts, t.kind ≠ .varOpen)
    (hs : stop = c.read + ts.length) :
    Exact ts [.leaf .text (Token.textOf ts)] c (c.interpolated stop) := by
  refine exact_interpolated_piece hc hr hne hl hs ?_
  have hlook := exact_look hc
  have hr' := (look_rest c).trans hr
  have hs' : stop = c.look.read + ts.length := by rw [hs, look_read]
  have hbefore : c.look.before varOpenKinds stop = c.look.read + ts.length :=
    before_eq hr' (by simpa [varOpenKinds, KindSet.contains] using hv) hs'.ge (.inl hs')
  rw [interpolatedPiece, on_neg (not_sees_of_kinds hr hne hv), hbefore]
  exact hlook.trans (exact_textUntil hlook.live hr' hne rfl)

lemma exact_value (hc : c.Live) (hr : c.rest = ts ++ us) (hne : ts ≠ [])
    (hl : ∀ t ∈ ts, t.kind ≠ .newline) (hv : ∀ t ∈ ts, t.kind ≠ .varOpen)
    (hs : stop = c.read + ts.length) :
    Exact ts [.node .value [.leaf .text (Token.textOf ts)]] c (c.value stop) := by
  have hpos := List.length_pos_of_ne_nil hne
  rw [value, if_neg (by omega)]
  exact (exact_interpolated hc.opened hr hne hl hv hs).node

/-- A part that is there. -/
lemma exact_part {K : Kind} (hne : ts ≠ []) (hs : stop = c.read + ts.length)
    (h : Exact ts new c.opened (c.opened.interpolated stop)) :
    Exact ts [.node K new] c (c.part K stop) := by
  have hpos := List.length_pos_of_ne_nil hne
  rw [part, if_pos (by omega)]
  exact h.node

/-- A part without references. -/
lemma exact_part_text {K : Kind} (hc : c.Live) (hr : c.rest = ts ++ us) (hne : ts ≠ [])
    (hl : ∀ t ∈ ts, t.kind ≠ .newline) (hv : ∀ t ∈ ts, t.kind ≠ .varOpen)
    (hs : stop = c.read + ts.length) :
    Exact ts [.node K [.leaf .text (Token.textOf ts)]] c (c.part K stop) :=
  exact_part hne hs (exact_interpolated hc.opened hr hne hl hv hs)

/-! ### Ends of lines -/

/-- The end of a line on which nothing is left. -/
lemma exact_endLine (hc : c.Live) (hr : c.rest = Token.lineFeed :: us) (s : String) :
    Exact [Token.lineFeed] [.leaf .newline "\n"] c ((c.eatBlank.finishLine s).eatNewline) := by
  have hblank := exact_eatBlank_skip hc (by simp [sees, hr, Token.lineFeed])
  have hrest : c.eatBlank.rest = Token.lineFeed :: us := hblank.rest_eq hr
  have hfinish := exact_finishLine hblank.live hrest s
  exact (hblank.trans hfinish).trans (exact_eatNewline hfinish.live (hfinish.rest_eq hrest))

lemma lineEnd_eq {t : Token} (hr : c.rest = ts ++ t :: us) (hl : ∀ t ∈ ts, t.kind ≠ .newline)
    (ht : t.kind = .newline) : c.lineEnd = c.read + ts.length := by
  rw [lineEnd, Lookahead.lineLength, hr, List.takeWhile_append_of_pos (by simpa using hl)]
  simp [ht]

/-- The trees of a text after a blank, if there is any. -/
def spacedTrees (s : String) : List Tree :=
  if s = "" then [] else [.leaf .whitespace " ", .node .value [.leaf .text s]]

/-- A text up to the end of the line, after a blank. -/
lemma exact_spaced (hc : c.Live) (hr : c.rest = Token.spaced ts ++ Token.lineFeed :: us)
    (ht : Token.InlineTokens ts) (hs : stop = c.read + (Token.spaced ts).length) :
    Exact (Token.spaced ts) (spacedTrees (Token.textOf ts)) c
      ((c.eatBlank.value (c.eatBlank.trimmedEnd stop)).eatBlank) := by
  -- an empty text is printed without the blank, so there is no value to be read
  by_cases hnil : ts = []
  · subst hnil
    have hsees : ¬c.sees .whitespace := by simp [sees, hr, Token.spaced, Token.lineFeed]
    have hblank := exact_eatBlank_skip hc hsees
    have hread : c.eatBlank.read = c.read := hblank.read
    have hvalue : c.eatBlank.value (c.eatBlank.trimmedEnd stop) = c.eatBlank := by
      refine if_pos ?_
      rw [trimmedEnd, segment, hs, hread]
      simp [Token.spaced, Lookahead.trimmedLength]
    rw [hvalue]
    exact hblank.trans (exact_eatBlank_skip hblank.live
      (by rwa [sees, hblank.rest_eq (List.nil_append c.rest).symm]))
  · have hspaced : Token.spaced ts = [Token.blank] ++ ts := if_neg hnil
    rw [hspaced, List.append_assoc] at hr
    have hblank := exact_eatBlank hc hr
    have hrest := hblank.rest_eq hr
    have hread := hblank.read
    have htext : Token.textOf ts ≠ "" := fun h0 => by
      have hlexed := hblank.live.lexed
      rw [hrest] at hlexed
      have hpos := sizeOf_pos hlexed.left hnil
      rw [Token.sizeOf_eq, h0] at hpos
      exact absurd hpos (by decide)
    have hstop : c.eatBlank.trimmedEnd stop = c.eatBlank.read + ts.length := by
      have hlen : stop - c.eatBlank.read = ts.length := by
        rw [hs, hread, hspaced, List.length_append]
        omega
      rw [trimmedEnd, segment, hlen, hrest, List.take_left, Lookahead.trimmedLength_eq ht.last]
    have hvalue := exact_value hblank.live hrest hnil ht.newline ht.varOpen hstop
    have hend := exact_eatBlank_skip hvalue.live
      (by simp [sees, hvalue.rest_eq hrest, Token.lineFeed])
    rw [hspaced, spacedTrees, if_neg htext]
    exact (hblank.trans hvalue).quiet hend

end Cursor

end RequestFile
