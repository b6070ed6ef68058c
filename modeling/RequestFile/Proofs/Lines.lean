import Mathlib.Tactic
import RequestFile.Proofs.FirstLine

/-!
Where the lines ahead end.

Bodies are measured in whole lines. `splitLines_eq` cuts the first line off, `LineBreak ts n` says
that `n` tokens of `ts` are whole lines, and every length that a body is measured with is such a
position: `lineBreak_textLength`, `lineBreak_lengthBeforeTail`.
-/

namespace RequestFile

lemma total_reverse {α : Type} (f : α → Nat) (l : List α) : total f l.reverse = total f l := by
  induction l with
  | nil => rfl
  | cons x xs ih =>
      rw [List.reverse_cons, total_append, ih, total_cons, total_cons, total_nil, Nat.add_zero,
        Nat.add_comm]

namespace Lookahead

/-! ### Cutting lines off -/

lemma splitLines_eq {ts : List Token} (h : ts ≠ []) :
    splitLines ts
      = ts.take (lineLength ts + 1) :: splitLines (ts.drop (lineLength ts + 1)) := by
  induction ts with
  | nil => exact absurd rfl h
  | cons t ts ih =>
      rw [splitLines, lineLength_cons]
      by_cases ht : t.kind = .newline
      · simp [ht]
      · rw [if_neg ht, if_neg ht, List.take_succ_cons, List.drop_succ_cons]
        cases ts with
        | nil => simp [splitLines]
        | cons u us => rw [ih (List.cons_ne_nil u us)]

/-- A line is as blank as the tokens that begin with it. -/
lemma isBlankLine_take (ts : List Token) :
    isBlankLine (ts.take (lineLength ts + 1)) = isBlankLine ts :=
  lineLocal_isBlankLine.take ts

lemma blankLinesLength_of_blank {ts : List Token} (h : ts ≠ []) (hb : isBlankLine ts) :
    blankLinesLength ts
      = (ts.take (lineLength ts + 1)).length
        + blankLinesLength (ts.drop (lineLength ts + 1)) := by
  rw [blankLinesLength, splitLines_eq h, List.takeWhile_cons, isBlankLine_take, if_pos hb]
  rfl

lemma blankLinesLength_of_not_blank {ts : List Token} (hb : ¬isBlankLine ts) :
    blankLinesLength ts = 0 := by
  have h : ts ≠ [] := fun h => hb (by rw [h]; rfl)
  rw [blankLinesLength, splitLines_eq h, List.takeWhile_cons, isBlankLine_take, if_neg hb]
  rfl

/-! ### Line breaks -/

/-- The first `n` tokens are whole lines. -/
inductive LineBreak : List Token → Nat → Prop
  | here (ts : List Token) : LineBreak ts 0
  | next {ts : List Token} {n : Nat} : ts ≠ [] → LineBreak (ts.drop (lineLength ts + 1)) n →
      LineBreak ts ((ts.take (lineLength ts + 1)).length + n)

lemma LineBreak.le {ts : List Token} {n : Nat} (h : LineBreak ts n) : n ≤ ts.length := by
  induction h with
  | here ts => exact Nat.zero_le _
  | next _ _ ih =>
      rw [List.length_drop] at ih
      rw [List.length_take]
      omega

/-- Whole lines end with a terminator or with the input. -/
lemma LineBreak.ends {ts : List Token} {n : Nat} (h : LineBreak ts n) :
    n = 0 ∨ ts.drop n = [] ∨ ∃ t, (ts.take n).getLast? = some t ∧ t.kind = .newline := by
  induction h with
  | here ts => exact Or.inl rfl
  | @next ts n hne hb ih =>
      right
      have hle := hb.le
      rw [List.length_drop] at hle
      rcases (lineLength_le ts).lt_or_eq with hlt | heq
      · have hlen : (ts.take (lineLength ts + 1)).length = lineLength ts + 1 :=
          List.length_take_of_le hlt
        rw [hlen, ← List.drop_drop]
        rcases ih with rfl | hnil | ⟨t, ht, hk⟩
        · right
          obtain ⟨t, us, hr, hk⟩ := exists_of_startsWith ((head_drop_lineLength ts).resolve_left
            (by simpa using hlt))
          have hat : ts[lineLength ts]? = some t := by
            rw [← Nat.add_zero (lineLength ts), ← List.getElem?_drop, hr, List.getElem?_cons_zero]
          refine ⟨t, ?_, hk⟩
          rw [Nat.add_zero, List.take_add_one, hat, Option.toList_some, List.getLast?_concat]
        · exact Or.inl hnil
        · right
          refine ⟨t, ?_, hk⟩
          rw [List.take_add, List.getLast?_append, ht]
          rfl
      · left
        exact List.drop_of_length_le (by rw [List.length_take]; omega)

lemma lineBreak_of_prefix {ls : List (List Token)} {ts : List Token} (h : ls <+: splitLines ts) :
    LineBreak ts (total List.length ls) := by
  induction ls generalizing ts with
  | nil => exact .here ts
  | cons l ls ih =>
      have hne : ts ≠ [] := by
        rintro rfl
        simp [splitLines] at h
      rw [splitLines_eq hne, List.cons_prefix_cons] at h
      obtain ⟨rfl, hls⟩ := h
      exact .next hne (ih hls)

lemma lineBreak_blankLinesLength (ts : List Token) : LineBreak ts (blankLinesLength ts) :=
  lineBreak_of_prefix (List.takeWhile_prefix _)

/-- Without the blank lines at their end, lines are some of them from the front. -/
lemma contentLength_eq (ls : List (List Token)) :
    ∃ ls', ls' <+: ls ∧ contentLength ls = total List.length ls' := by
  refine ⟨(ls.reverse.dropWhile isBlankLine).reverse, ?_, ?_⟩
  · rw [← List.reverse_suffix, List.reverse_reverse]
    exact List.dropWhile_suffix _
  · rw [contentLength, total_reverse]

/-- A text that begins on the first line ends with a line. -/
lemma lineBreak_of_content {ts : List Token} {first : List Token} {others ls : List (List Token)}
    (h : splitLines ts = first :: others) (hls : ls <+: others) :
    LineBreak ts (first.length + contentLength ls) := by
  obtain ⟨ls', hpre, heq⟩ := contentLength_eq ls
  rw [heq]
  have hlines : first :: ls' <+: splitLines ts := by
    rw [h, List.cons_prefix_cons]
    exact ⟨rfl, hpre.trans hls⟩
  exact lineBreak_of_prefix hlines

lemma length_first_pos {ts : List Token} {first : List Token} {others : List (List Token)}
    (h : splitLines ts = first :: others) : 0 < first.length := by
  cases ts with
  | nil => simp [splitLines] at h
  | cons t ts =>
      rw [splitLines_eq (List.cons_ne_nil t ts), List.cons.injEq] at h
      rw [← h.1]
      simp

lemma lineBreak_textLength (stop : List Token → Bool) (ts : List Token) :
    LineBreak ts (textLength stop ts) := by
  rw [textLength]
  split
  · exact .here ts
  · next h => exact lineBreak_of_content h (List.takeWhile_prefix _)

lemma textLength_pos (stop : List Token → Bool) {ts : List Token} (hne : ts ≠ []) :
    0 < textLength stop ts := by
  rw [textLength]
  split
  · next h => rw [splitLines_eq hne] at h; simp at h
  · next h => exact Nat.add_pos_left (length_first_pos h) _

lemma linesBeforeTail_front (tail : List Token → Bool) (b : Bool) (ls : List (List Token)) :
    linesBeforeTail tail b ls <+: ls := by
  induction ls generalizing b with
  | nil => exact List.prefix_rfl
  | cons l ls ih =>
      rw [linesBeforeTail]
      split_ifs
      · exact List.nil_prefix
      · exact List.cons_prefix_cons.mpr ⟨rfl, ih _⟩

lemma lineBreak_lengthBeforeTail (tail : List Token → Bool) (ts : List Token) :
    LineBreak ts (lengthBeforeTail tail ts) := by
  rw [lengthBeforeTail]
  split
  · exact .here ts
  · next h => exact lineBreak_of_content h (linesBeforeTail_front ..)

lemma lengthBeforeTail_pos (tail : List Token → Bool) {ts : List Token} (hne : ts ≠ []) :
    0 < lengthBeforeTail tail ts := by
  rw [lengthBeforeTail]
  split
  · next h => rw [splitLines_eq hne] at h; simp at h
  · next h => exact Nat.add_pos_left (length_first_pos h) _

end Lookahead

end RequestFile
