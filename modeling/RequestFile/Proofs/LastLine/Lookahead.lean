import Mathlib.Data.List.DropRight
import RequestFile.Proofs.Canonical.Tokens
import RequestFile.Proofs.Lines

/-!
What a line feed at the end of the source changes ahead.

* **Tokens.** If the last line has no terminator, a line feed after it is one more token
  (`Token.scan_lineFeed`).
* **Lines.** What is told by one line is told whether the line ends with a line feed or with the
  input (`LineLocal.concat`). There is one exception, a lone opening angle bracket on the last line
  (`bodyLine_lone`).
* **Texts.** A text that goes on to the end of the input has one token more (`Reaches`).
-/

namespace RequestFile

open Token (lineFeed)

/-- The last line has no terminator. -/
def Unended (ts : List Token) : Prop :=
  ∀ t ∈ ts.getLast?, t.kind ≠ .newline

namespace Unended

variable {ts : List Token} {t : Token}

lemma of_cons (h : Unended (t :: ts)) : Unended ts := by
  intro u hu
  refine h u ?_
  rw [List.getLast?_cons, Option.mem_def.mp hu]
  rfl

lemma drop (h : Unended ts) (n : Nat) : Unended (ts.drop n) := by
  intro t ht
  rw [Option.mem_def, List.getLast?_drop] at ht
  split_ifs at ht
  exact h t ht

/-- Behind a line terminator something is left. -/
lemma ne_nil (h : Unended (t :: ts)) (ht : t.kind = .newline) : ts ≠ [] := by
  rintro rfl
  exact h t rfl ht

end Unended

namespace Token

variable {source : String}

lemma scan_ne_nil (hne : source ≠ "") : scan source ≠ [] := by
  intro hnil
  rw [← textOf_scan source, hnil] at hne
  exact hne rfl

/-- The last token is a line terminator only if the last character is one. -/
lemma unended_scan (h : endsWithBreak source.toList = false) : Unended (scan source) := by
  intro t ht hk
  have hne : source ≠ "" := by
    rintro rfl
    cases ht
  have hline := (lexed_scan source).lineBegins_textOf true
  rw [textOf_scan, lineBegins_of_ne hne, h, Option.mem_def.mp ht, Option.map_some,
    Option.getD_some, hk] at hline
  cases hline

/-- **A line feed at the end** of a source without one is a token of its own. -/
lemma scan_lineFeed (h : endsWithBreak source.toList = false) :
    scan (source ++ "\n") = scan source ++ [lineFeed] := by
  have hstop : ∀ c ∈ source.toList.getLast?, Stops c '\n' := by
    intro c hc
    refine ⟨Or.inl rfl, ?_, fun hspace => by cases hspace⟩
    rintro rfl
    rw [endsWithBreak, Option.mem_def.mp hc] at h
    cases h
  have htext : (source ++ "\n").toList = source.toList ++ ['\n'] := String.toList_append
  rw [scan, htext, scanFrom_stop hstop (Or.inl rfl), scanFrom_lineFeed]
  rfl

end Token

namespace Lookahead

variable {α : Type*} {f : List Token → α} {ts us : List Token} {k : Kind} {n : Nat}

/-! ### What a line begins -/

lemma takeWhile_lineFeed {p : Token → Bool} (hp : p lineFeed = false) (ts : List Token) :
    (ts ++ [lineFeed]).takeWhile p = ts.takeWhile p := by
  induction ts with
  | nil => simp [hp]
  | cons t ts ih => rw [List.cons_append, List.takeWhile_cons, List.takeWhile_cons, ih]

@[simp]
lemma lineLength_lineFeed (ts : List Token) : lineLength (ts ++ [lineFeed]) = lineLength ts := by
  rw [lineLength, takeWhile_lineFeed rfl, lineLength]

@[simp]
lemma line_lineFeed (ts : List Token) : line (ts ++ [lineFeed]) = line ts :=
  takeWhile_lineFeed rfl ts

/-- What is told by the line is told whether a line feed ends it or the input does. -/
lemma LineLocal.concat (hf : LineLocal f) (ts : List Token) : f (ts ++ [lineFeed]) = f ts :=
  hf.eq (line_lineFeed ts)

/-- Behind the last token there is the line feed or nothing. -/
lemma LineLocal.drop_concat (hf : LineLocal f) (ts : List Token) (n : Nat) :
    f ((ts ++ [lineFeed]).drop n) = f (ts.drop n) := by
  rcases le_or_gt n ts.length with hle | hlt
  · rw [List.drop_append_of_le_length hle, hf.concat]
  · rw [List.drop_of_length_le (l := ts) hlt.le, List.drop_of_length_le]
    rw [List.length_append, List.length_singleton]
    omega

lemma headText_lineFeed (hne : ts ≠ []) : headText (ts ++ [lineFeed]) = headText ts := by
  obtain ⟨t, us, rfl⟩ := List.exists_cons_of_ne_nil hne
  rfl

lemma nextLineIsIndented_lineFeed (ts : List Token) :
    nextLineIsIndented (ts ++ [lineFeed]) = nextLineIsIndented ts := by
  simp only [nextLineIsIndented, lineLength_lineFeed, List.drop_drop]
  exact lineLocal_blankThenText.drop_concat ts _

/-- What a line of a body begins, unless it is a lone opening angle bracket on the last line. -/
lemma bodyLine_lineFeed (h : ∀ t, ts = [t] → t.kind ≠ .angleOpen) :
    BodyLine.ofTokens (ts ++ [lineFeed]) = BodyLine.ofTokens ts := by
  cases ts with
  | nil => rfl
  | cons t us =>
      have hform : BodyLine.formOrRaw (t :: us ++ [lineFeed]) = BodyLine.formOrRaw (t :: us) := by
        rw [BodyLine.formOrRaw, lineLocal_isForm.concat, BodyLine.formOrRaw]
      rw [BodyLine.ofTokens, BodyLine.ofTokens, hform, lineLocal_isBlankLine.concat,
        lineLocal_isExternal.concat, headText_lineFeed (List.cons_ne_nil t us)]
      have hblank : LineLocal (startsWith .whitespace) := lineLocal_startsWith (by decide)
      simp only [List.cons_append, List.drop_succ_cons, List.drop_zero, List.head?_cons,
        hblank.concat, lineLocal_isBlankLine.concat, Option.map_some]
      cases us with
      | cons u us => rfl
      | nil =>
          -- only behind an opening angle bracket is a line terminator asked for
          have ht := h t rfl
          generalize t.kind = k at ht
          split
          · rfl
          · cases k with
            | angleOpen => exact absurd rfl ht
            | _ => rfl

/-- **A lone opening angle bracket** begins XML at the end of the input, and plain text in front of
a line feed. -/
lemma bodyLine_lone {t : Token} (ht : t.kind = .angleOpen) :
    BodyLine.ofTokens [t] = .xml ∧ BodyLine.ofTokens [t, lineFeed] = .raw := by
  have hblank : ∀ us, isBlankLine (t :: us) = false := fun us => by simp [isBlankLine_cons, ht]
  have hforbidden : formFirstForbidden.contains .angleOpen = true := by decide
  constructor
  · simp [BodyLine.ofTokens, hblank, ht, isExternal]
  · simp [BodyLine.ofTokens, BodyLine.formOrRaw, isForm, hblank, ht, isExternal, hforbidden,
      lineFeed]

/-! ### Texts over several lines -/

lemma total_length_splitLines (ts : List Token) :
    total List.length (splitLines ts) = ts.length := by
  induction ts with
  | nil => rfl
  | cons t ts ih =>
      rw [splitLines]
      split_ifs
      · rw [total_cons, ih, List.length_singleton, List.length_cons, Nat.add_comm]
      · cases hs : splitLines ts with
        | nil =>
            rw [hs] at ih
            rw [List.length_cons, ← ih]
            rfl
        | cons l ls =>
            rw [hs, total_cons] at ih
            simp only [total_cons, List.length_cons]
            omega

/-- The line feed goes to the last line. -/
lemma splitLines_lineFeed (hne : ts ≠ []) (h : Unended ts) :
    ∃ ls l, l ≠ [] ∧ splitLines ts = ls ++ [l] ∧
      splitLines (ts ++ [lineFeed]) = ls ++ [l ++ [lineFeed]] := by
  induction ts with
  | nil => exact absurd rfl hne
  | cons t ts ih =>
      by_cases hts : ts = []
      · subst hts
        have ht : t.kind ≠ .newline := h t rfl
        exact ⟨[], [t], List.cons_ne_nil _ _, by simp [splitLines],
          by simp [splitLines, ht, lineFeed]⟩
      · obtain ⟨ls, l, hl, heq, heq'⟩ := ih hts h.of_cons
        rw [List.cons_append, splitLines, splitLines, heq, heq']
        split_ifs
        · exact ⟨[t] :: ls, l, hl, rfl, rfl⟩
        · cases ls with
          | nil => exact ⟨[], t :: l, List.cons_ne_nil _ _, rfl, rfl⟩
          | cons m ls => exact ⟨(t :: m) :: ls, l, hl, rfl, rfl⟩

/-- Lines from the front of the same source, without and with the line feed: some lines in front of
the last one, or all of them. -/
def Front (ls : List (List Token)) (l : List Token) (ms ms' : List (List Token)) : Prop :=
  (ms' = ms ∧ ms <+: ls) ∨ (ms = ls ++ [l] ∧ ms' = ls ++ [l ++ [lineFeed]])

variable {ls ms ms' : List (List Token)} {l m : List Token}

lemma Front.cons (h : Front ls l ms ms') (m : List Token) :
    Front (m :: ls) l (m :: ms) (m :: ms') := by
  rcases h with ⟨rfl, hpre⟩ | ⟨rfl, rfl⟩
  · exact Or.inl ⟨rfl, List.cons_prefix_cons.mpr ⟨rfl, hpre⟩⟩
  · exact Or.inr ⟨rfl, rfl⟩

lemma front_nil : Front ls l [] [] :=
  Or.inl ⟨rfl, List.nil_prefix⟩

lemma front_last : Front [] l [l] [l ++ [lineFeed]] :=
  Or.inr ⟨rfl, rfl⟩

lemma front_takeWhile {p : List Token → Bool} (hp : LineLocal p) (ls : List (List Token)) :
    Front ls l ((ls ++ [l]).takeWhile p) ((ls ++ [l ++ [lineFeed]]).takeWhile p) := by
  induction ls with
  | nil =>
      rw [List.nil_append, List.nil_append, List.takeWhile_cons, List.takeWhile_cons,
        hp.concat]
      split_ifs
      · exact front_last
      · exact front_nil
  | cons m ls ih =>
      rw [List.cons_append, List.cons_append, List.takeWhile_cons, List.takeWhile_cons]
      split_ifs
      · exact ih.cons m
      · exact front_nil

lemma front_linesBeforeTail {tail : List Token → Bool} (ht : LineLocal tail) (b : Bool)
    (ls : List (List Token)) :
    Front ls l (linesBeforeTail tail b (ls ++ [l]))
      (linesBeforeTail tail b (ls ++ [l ++ [lineFeed]])) := by
  induction ls generalizing b with
  | nil =>
      simp only [List.nil_append, linesBeforeTail, lineLocal_isBodyStop.concat,
        lineLocal_isBlankLine.concat, ht.concat]
      split_ifs
      · exact front_nil
      · exact front_last
  | cons m ls ih =>
      rw [List.cons_append, List.cons_append, linesBeforeTail, linesBeforeTail]
      split_ifs
      · exact front_nil
      · exact (ih _).cons m

lemma contentLength_le (ms : List (List Token)) : contentLength ms ≤ total List.length ms := by
  obtain ⟨ns, ⟨os, rfl⟩, heq⟩ := contentLength_eq ms
  rw [heq, total_append]
  exact Nat.le_add_right _ _

/-- Only a last line that is not blank counts. -/
lemma contentLength_concat (ls : List (List Token)) (l : List Token) :
    contentLength (ls ++ [l])
      = if isBlankLine l then contentLength ls else total List.length ls + l.length := by
  rw [contentLength, List.reverse_append, List.reverse_singleton, List.singleton_append,
    List.dropWhile_cons, contentLength]
  split_ifs
  · rfl
  · rw [total_cons, total_reverse, Nat.add_comm]

/-- A length of whole lines, without and with the line feed: it grows if it goes to the end. -/
def Reaches (ts : List Token) (n n' : Nat) : Prop :=
  (n < ts.length ∧ n' = n) ∨ (n = ts.length ∧ n' = n + 1)

/-- Lines in front of the last one do not go to the end. -/
lemma Front.content (h : Front ls l ms ms') (hl : l ≠ []) :
    (contentLength ms < total List.length ls + l.length ∧ contentLength ms' = contentLength ms) ∨
      (contentLength ms = total List.length ls + l.length ∧
        contentLength ms' = contentLength ms + 1) := by
  have hpos := List.length_pos_iff.mpr hl
  rcases h with ⟨rfl, os, rfl⟩ | ⟨rfl, rfl⟩
  · have hle := contentLength_le ms'
    rw [total_append]
    exact Or.inl ⟨by omega, rfl⟩
  · have hle := contentLength_le ls
    rw [contentLength_concat, contentLength_concat, lineLocal_isBlankLine.concat,
      List.length_append, List.length_singleton]
    split_ifs
    · exact Or.inl ⟨by omega, rfl⟩
    · exact Or.inr ⟨rfl, by omega⟩

/-- A text from the first line on. -/
lemma reaches_text (hne : ts ≠ []) (h : Unended ts)
    {f : List (List Token) → List (List Token)}
    (hf : ∀ ls l, Front ls l (f (ls ++ [l])) (f (ls ++ [l ++ [lineFeed]])))
    (hnil : f [] = []) {len : List Token → Nat}
    (hlen : ∀ us first others, splitLines us = first :: others →
      len us = first.length + contentLength (f others)) :
    Reaches ts (len ts) (len (ts ++ [lineFeed])) := by
  have htotal := total_length_splitLines ts
  obtain ⟨ls, l, hl, heq, heq'⟩ := splitLines_lineFeed hne h
  rw [heq, total_append, total_cons, total_nil, Nat.add_zero] at htotal
  cases ls with
  | nil =>
      rw [total_nil, Nat.zero_add] at htotal
      rw [hlen _ _ _ heq, hlen _ _ _ heq', hnil, List.length_append, List.length_singleton]
      exact Or.inr ⟨htotal, Nat.add_right_comm _ _ _⟩
  | cons first ls =>
      rw [total_cons] at htotal
      rw [List.cons_append] at heq heq'
      rw [hlen _ _ _ heq, hlen _ _ _ heq', Reaches, ← htotal]
      rcases (hf ls l).content hl with ⟨hlt, hsame⟩ | ⟨hall, hmore⟩
      · exact Or.inl ⟨by omega, by rw [hsame]⟩
      · exact Or.inr ⟨by omega, by omega⟩

lemma reaches_textLength (hne : ts ≠ []) (h : Unended ts) {stop : List Token → Bool}
    (hstop : LineLocal stop) :
    Reaches ts (textLength stop ts) (textLength stop (ts ++ [lineFeed])) :=
  reaches_text hne h (f := List.takeWhile fun l => !stop l)
    (fun ls _ => front_takeWhile (hstop.map not) ls) rfl fun us first others hus => by
      rw [textLength, hus]

lemma reaches_lengthBeforeTail (hne : ts ≠ []) (h : Unended ts) {tail : List Token → Bool}
    (ht : LineLocal tail) :
    Reaches ts (lengthBeforeTail tail ts) (lengthBeforeTail tail (ts ++ [lineFeed])) :=
  reaches_text hne h (f := linesBeforeTail tail false)
    (fun ls _ => front_linesBeforeTail ht false ls) rfl fun us first others hus => by
      rw [lengthBeforeTail, hus]

lemma reaches_blankLinesLength (hne : ts ≠ []) (h : Unended ts) :
    Reaches ts (blankLinesLength ts) (blankLinesLength (ts ++ [lineFeed])) := by
  have htotal := total_length_splitLines ts
  obtain ⟨ls, l, hl, heq, heq'⟩ := splitLines_lineFeed hne h
  rw [heq, total_append, total_cons, total_nil, Nat.add_zero] at htotal
  have hpos := List.length_pos_iff.mpr hl
  rw [blankLinesLength, blankLinesLength, heq, heq', Reaches, ← htotal]
  rcases front_takeWhile lineLocal_isBlankLine ls with ⟨hsame, os, hpre⟩ | ⟨hall, hmore⟩
  · have hle := congrArg (total List.length) hpre
    rw [total_append] at hle
    rw [hsame]
    exact Or.inl ⟨by omega, rfl⟩
  · rw [hall, hmore]
    simp only [total_append, total_cons, total_nil, List.length_append, List.length_singleton]
    exact Or.inr ⟨by omega, by omega⟩

end Lookahead

end RequestFile
