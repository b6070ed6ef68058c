import RequestFile.Proofs.FirstLine
import RequestFile.Proofs.Terminator.Text

/-!
Looking ahead where line terminators were replaced.

Replacing terminators keeps the tokens before the end of a line, so what is told by the line
(`Lookahead.LineLocal`) is told before and after (`Terminator.same_line`). What looks further asks for
kinds of tokens, which stay, too; the lemmas follow the order of the functions they are about.
-/

namespace RequestFile

namespace Terminator

open Lookahead

variable (e : Terminator) (k : Kind) (set : KindSet) (ts : List Token)

/-! ### The first token -/

@[simp]
lemma startsWith_map : startsWith k (ts.map e.token) = startsWith k ts := by
  cases ts with
  | nil => rfl
  | cons t ts => simp [startsWith]

@[simp]
lemma startsIn_map : startsIn set (ts.map e.token) = startsIn set ts := by
  cases ts with
  | nil => rfl
  | cons t ts => simp [startsIn]

variable {k ts} in
/-- Only the text of a terminator may change. -/
lemma headText_map (h : startsWith k ts) (hk : k ≠ .newline) :
    headText (ts.map e.token) = headText ts := by
  cases ts with
  | nil => rfl
  | cons t ts =>
      have hkind : t.kind = k := by simpa [startsWith] using h
      have hne : t.kind ≠ .newline := by rwa [hkind]
      simp [headText, token_eq_self hne]

/-! ### Lines -/

lemma takeWhile_map (p : Kind → Bool) :
    (ts.map e.token).takeWhile (fun t => p t.kind)
      = (ts.takeWhile fun t => p t.kind).map e.token := by
  rw [List.takeWhile_map]
  simp [Function.comp_def]

lemma dropWhile_map (p : Kind → Bool) :
    (ts.map e.token).dropWhile (fun t => p t.kind)
      = (ts.dropWhile fun t => p t.kind).map e.token := by
  rw [List.dropWhile_map]
  simp [Function.comp_def]

@[simp]
lemma lineLength_map : lineLength (ts.map e.token) = lineLength ts :=
  (congrArg List.length (e.takeWhile_map ts (· ≠ .newline))).trans (List.length_map _)

lemma line_map : line (ts.map e.token) = line ts :=
  (e.takeWhile_map ts (· ≠ .newline)).trans (e.map_token_eq_self fun _ ht => kind_of_mem_line ht)

/-- What is told by the line is told with any terminator. -/
lemma same_line {α : Type*} {f : List Token → α} (hf : LineLocal f) (ts : List Token) :
    f (ts.map e.token) = f ts :=
  hf.eq (e.line_map ts)

@[simp]
lemma skipBlanks_map : skipBlanks (ts.map e.token) = (skipBlanks ts).map e.token :=
  e.dropWhile_map ts (· = .whitespace)

@[simp]
lemma isBlankLine_map : isBlankLine (ts.map e.token) = isBlankLine ts :=
  e.same_line lineLocal_isBlankLine ts

@[simp]
lemma splitLines_map : splitLines (ts.map e.token) = (splitLines ts).map (List.map e.token) := by
  induction ts with
  | nil => rfl
  | cons t ts ih =>
      rw [List.map_cons, splitLines, splitLines, token_kind, ih]
      cases splitLines ts <;> split_ifs <;> rfl

@[simp]
lemma isSeparatorLine_map : isSeparatorLine (ts.map e.token) = isSeparatorLine ts :=
  e.startsWith_map _ ts

/-! ### Segments -/

@[simp]
lemma trimmedLength_map : trimmedLength (ts.map e.token) = trimmedLength ts := by
  rw [trimmedLength, ← List.map_reverse]
  exact (congrArg List.length (e.dropWhile_map _ (· = .whitespace))).trans (List.length_map _)

@[simp]
lemma lengthBefore_map : lengthBefore set (ts.map e.token) = lengthBefore set ts :=
  (congrArg List.length (e.takeWhile_map ts (!set.contains ·))).trans (List.length_map _)

@[simp]
lemma groupLength?_map : groupLength? k (ts.map e.token) = groupLength? k ts := by
  induction ts with
  | nil => rfl
  | cons t ts ih => rw [List.map_cons, groupLength?, groupLength?, token_kind, ih]

lemma lengthOutsideVariablesFrom_map (skip : Nat) :
    lengthOutsideVariablesFrom set skip (ts.map e.token)
      = lengthOutsideVariablesFrom set skip ts := by
  induction ts generalizing skip with
  | nil => rfl
  | cons t ts ih => cases skip <;> simp [lengthOutsideVariablesFrom, ih]

@[simp]
lemma lengthOutsideVariables_map :
    lengthOutsideVariables set (ts.map e.token) = lengthOutsideVariables set ts :=
  e.lengthOutsideVariablesFrom_map set ts 0

/-! ### Heads -/

@[simp]
lemma argumentsOffset?_map : argumentsOffset? (ts.map e.token) = argumentsOffset? ts := by
  induction ts with
  | nil => rfl
  | cons t ts ih => simp only [List.map_cons, argumentsOffset?, token_kind, skipBlanks_map,
      startsWith_map, ih]

@[simp]
lemma nextLineIsIndented_map : nextLineIsIndented (ts.map e.token) = nextLineIsIndented ts := by
  simp only [nextLineIsIndented, lineLength_map, ← List.map_drop, startsWith_map, isBlankLine_map]

/-! ### Bodies -/

@[simp]
lemma bodyLine_map : BodyLine.ofTokens (ts.map e.token) = BodyLine.ofTokens ts := by
  cases ts with
  | nil => rfl
  | cons t ts =>
      have hblank := e.isBlankLine_map (t :: ts)
      by_cases hk : t.kind = .newline
      · have hline : isBlankLine (t :: ts) = true := by simp [isBlankLine, skipBlanks, hk]
        rw [BodyLine.ofTokens, BodyLine.ofTokens, hblank, if_pos hline, if_pos hline]
      · have hform := e.same_line lineLocal_isForm (t :: ts)
        have hexternal := e.same_line lineLocal_isExternal (t :: ts)
        rw [List.map_cons, token_eq_self hk] at hblank hform hexternal ⊢
        simp only [BodyLine.ofTokens, BodyLine.formOrRaw, hblank, hform, hexternal,
          List.drop_succ_cons, List.drop_zero, startsWith_map, isBlankLine_map, headText,
          List.head?_cons]

lemma total_length_map (ls : List (List Token)) :
    total List.length (ls.map (List.map e.token)) = total List.length ls := by
  induction ls with
  | nil => rfl
  | cons l ls ih => simp only [List.map_cons, total_cons, List.length_map, ih]

@[simp]
lemma contentLength_map (ls : List (List Token)) :
    contentLength (ls.map (List.map e.token)) = contentLength ls := by
  rw [contentLength, ← List.map_reverse, List.dropWhile_map, total_length_map, contentLength]
  simp [Function.comp_def]

variable {stop tail : List Token → Bool}

lemma textLength_map (hs : LineLocal stop) :
    textLength stop (ts.map e.token) = textLength stop ts := by
  rw [textLength, splitLines_map, textLength]
  cases splitLines ts with
  | nil => rfl
  | cons l ls => simp [List.takeWhile_map, Function.comp_def, e.same_line hs]

lemma linesBeforeTail_map (ht : LineLocal tail) (b : Bool) (ls : List (List Token)) :
    linesBeforeTail tail b (ls.map (List.map e.token))
      = (linesBeforeTail tail b ls).map (List.map e.token) := by
  induction ls generalizing b with
  | nil => rfl
  | cons l ls ih =>
      simp only [List.map_cons, linesBeforeTail, e.same_line lineLocal_isBodyStop, isBlankLine_map,
        e.same_line ht, ih]
      split_ifs <;> rfl

lemma lengthBeforeTail_map (ht : LineLocal tail) :
    lengthBeforeTail tail (ts.map e.token) = lengthBeforeTail tail ts := by
  rw [lengthBeforeTail, splitLines_map, lengthBeforeTail]
  cases splitLines ts with
  | nil => rfl
  | cons l ls => simp [e.linesBeforeTail_map ht]

@[simp]
lemma blankLinesLength_map : blankLinesLength (ts.map e.token) = blankLinesLength ts := by
  rw [blankLinesLength, splitLines_map, List.takeWhile_map, total_length_map, blankLinesLength]
  simp [Function.comp_def]

end Terminator

end RequestFile
