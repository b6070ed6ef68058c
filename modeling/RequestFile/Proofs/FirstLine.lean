import RequestFile.Parse.Body
import RequestFile.Proofs.Lookahead

/-!
What is told by the first line.

Productions look ahead on the line they stand on: names, paths, versions and headers, and what a
line begins, are told by the tokens before its end. Which terminator ends the line, or whether the
input does, is not seen, and neither is what stands behind it.

* **Locality.** `LineLocal f` says that `f` is told by the first line, so that tokens with the same
  first line have the same answer (`LineLocal.eq`).
* **Combinations.** Local questions may be asked together (`LineLocal.and`), behind a token that does
  not end the line (`LineLocal.behind`), and further on the line (`LineLocal.further`).
* **Questions.** One lemma for each function that is local. The text of the first token is not, since
  a terminator has one, too, and neither is `BodyLine.ofTokens`, which asks for the terminator behind
  an opening angle bracket.
-/

namespace RequestFile

namespace Lookahead

variable {α β : Type*} {f : List Token → α} {p q : List Token → Bool}
variable {k : Kind} {ts us : List Token}

/-! ### Locality -/

/-- A function of the tokens ahead that is told by their first line. -/
def LineLocal (f : List Token → α) : Prop :=
  ∀ ts, f (line ts) = f ts

/-- The first line with its terminator. -/
lemma line_take (ts : List Token) : line (ts.take (lineLength ts + 1)) = line ts := by
  induction ts with
  | nil => rfl
  | cons t ts ih =>
      rw [lineLength_cons]
      by_cases ht : t.kind = .newline
      · rw [if_pos ht, List.take_succ_cons, line_newline ht, line_newline ht]
      · rw [if_neg ht, List.take_succ_cons, line_cons ht, line_cons ht, ih]

namespace LineLocal

lemma eq (hf : LineLocal f) (h : line ts = line us) : f ts = f us := by
  rw [← hf ts, h, hf us]

lemma take (hf : LineLocal f) (ts : List Token) : f (ts.take (lineLength ts + 1)) = f ts :=
  hf.eq (line_take ts)

/-- A line is empty or it is not. -/
lemma of_cons (hnil : ∀ t us, t.kind = .newline → f (t :: us) = f [])
    (hcons : ∀ t us, t.kind ≠ .newline → f (t :: line us) = f (t :: us)) : LineLocal f := by
  intro ts
  cases ts with
  | nil => rfl
  | cons t us =>
      by_cases ht : t.kind = .newline
      · rw [line_newline ht, hnil t us ht]
      · rw [line_cons ht, hcons t us ht]

lemma map (hf : LineLocal f) (g : α → β) : LineLocal fun ts => g (f ts) :=
  fun ts => congrArg g (hf ts)

lemma and (hp : LineLocal p) (hq : LineLocal q) : LineLocal fun ts => p ts && q ts :=
  fun ts => congrArg₂ _ (hp ts) (hq ts)

lemma or (hp : LineLocal p) (hq : LineLocal q) : LineLocal fun ts => p ts || q ts :=
  fun ts => congrArg₂ _ (hp ts) (hq ts)

/-- What is asked further on the line. -/
lemma further {n : List Token → Nat} (hn : LineLocal n) (hle : ∀ ts, n ts ≤ lineLength ts)
    (hf : LineLocal f) : LineLocal fun ts => f (ts.drop (n ts)) := by
  intro ts
  simp only [hn ts]
  rw [← line_drop (hle ts), hf]

end LineLocal

lemma lineLocal_startsWith (hk : k ≠ .newline) : LineLocal (startsWith k) :=
  .of_cons (fun t us ht => by simp [ht, hk.symm]) fun _ _ _ => rfl

lemma lineLocal_startsIn {set : KindSet} (hs : set.contains .newline = false) :
    LineLocal (startsIn set) :=
  .of_cons (fun t us ht => by simp [startsIn, ht, hs]) fun _ _ _ => rfl

/-- What is asked behind a token that does not end the line. -/
lemma LineLocal.behind (hk : k ≠ .newline) (hp : LineLocal p) :
    LineLocal fun ts => startsWith k ts && p (ts.drop 1) :=
  .of_cons (fun t us ht => by simp [ht, hk.symm]) fun t us _ => by
    simp only [startsWith_cons, List.drop_succ_cons, List.drop_zero, hp us]

/-- What is asked behind such a token, or in its place if there is none. -/
lemma LineLocal.past (hk : k ≠ .newline) (hf : LineLocal f) :
    LineLocal fun ts => f (if startsWith k ts then ts.drop 1 else ts) := by
  refine .of_cons (fun t us ht => ?_) fun t us ht => ?_
  · have hline := hf (t :: us)
    rw [line_newline ht] at hline
    simp [ht, hk.symm, hline]
  · have hline := hf (t :: us)
    rw [line_cons ht] at hline
    simp only [startsWith_cons, List.drop_succ_cons, List.drop_zero]
    split_ifs
    · exact hf us
    · exact hline

/-- What is asked of the text of such a token. -/
lemma lineLocal_headText (hk : k ≠ .newline) (P : String → Bool) :
    LineLocal fun ts => startsWith k ts && P (headText ts) :=
  .of_cons (fun t us ht => by simp [ht, hk.symm]) fun _ _ _ => rfl

/-- A run of tokens of which none ends the line. -/
lemma lineLocal_takeWhile {p : Token → Bool} (hp : ∀ t, t.kind = .newline → p t = false) :
    LineLocal fun ts => ts.takeWhile p := by
  intro ts
  induction ts with
  | nil => rfl
  | cons t ts ih =>
      by_cases ht : t.kind = .newline
      · simp [line_newline ht, hp t ht]
      · simp only [line_cons ht, List.takeWhile_cons, ih]

lemma lineLocal_line : LineLocal line :=
  lineLocal_takeWhile fun t ht => by simp [ht]

lemma lineLocal_lineLength : LineLocal lineLength :=
  lineLength_line

/-! ### Blanks -/

lemma skipBlanks_line (ts : List Token) : skipBlanks (line ts) = line (skipBlanks ts) := by
  induction ts with
  | nil => rfl
  | cons t ts ih =>
      rw [skipBlanks_cons]
      split_ifs with ht
      · rw [line_cons (by rw [ht]; decide), skipBlanks_cons, if_pos ht, ih]
      · by_cases hn : t.kind = .newline
        · rw [line_newline hn]
          rfl
        · rw [line_cons hn, skipBlanks_cons, if_neg ht]

lemma LineLocal.skipBlanks (hf : LineLocal f) : LineLocal fun ts => f (skipBlanks ts) := by
  intro ts
  simp only [skipBlanks_line, hf (Lookahead.skipBlanks ts)]

lemma lineLocal_isBlankLine : LineLocal isBlankLine := by
  intro ts
  rw [isBlankLine, isBlankLine, skipBlanks_line]
  cases skipBlanks ts with
  | nil => rfl
  | cons t us =>
      by_cases ht : t.kind = .newline
      · simp [line_newline ht, ht]
      · rw [line_cons ht]

/-- A blank and something more on the line. -/
lemma lineLocal_blankThenText :
    LineLocal fun ts => startsWith .whitespace ts && !isBlankLine ts :=
  (lineLocal_startsWith (by decide)).and (lineLocal_isBlankLine.map not)

/-! ### Names and paths -/

lemma lineLocal_groupLength? {closer : Kind} (hc : closer ≠ .newline) :
    LineLocal (groupLength? closer) := by
  intro ts
  induction ts with
  | nil => rfl
  | cons t ts ih =>
      by_cases ht : t.kind = .newline
      · simp [line_newline ht, groupLength?, ht, hc.symm]
      · rw [line_cons ht, groupLength?, groupLength?, ih]

lemma lineLocal_identifierRun : LineLocal identifierRun := by
  have hset : identifierKinds.contains .newline = false := by decide
  exact (lineLocal_takeWhile fun t ht => by rw [ht, hset]).map List.length

/-- The groups of a name, from a token on this line on. -/
lemma identifierTailFrom_line {skip : Nat} (hs : skip ≤ lineLength ts) :
    identifierTailFrom skip (line ts) = identifierTailFrom skip ts := by
  induction ts generalizing skip with
  | nil => rfl
  | cons t ts ih =>
      rw [lineLength_cons] at hs
      by_cases ht : t.kind = .newline
      · obtain rfl : skip = 0 := by simpa [ht] using hs
        simp [line_newline ht, identifierTailFrom, ht]
      rw [if_neg ht] at hs
      rw [line_cons ht]
      cases skip with
      | succ n => rw [identifierTailFrom, identifierTailFrom, ih (by omega)]
      | zero =>
          rw [identifierTailFrom, identifierTailFrom, lineLocal_groupLength? (by decide),
            lineLocal_groupLength? (by decide), lineLocal_identifierRun, ih (identifierRun_le ts)]
          split
          · split
            · next n hn => rw [ih (groupLength?_le (by decide) hn)]
            · rfl
          · split
            · next n hn => rw [ih (groupLength?_le (by decide) hn)]
            · rfl
          · rfl
          · rfl

lemma lineLocal_identifierLength? : LineLocal identifierLength? := by
  have htail : LineLocal (identifierTailFrom 0) := fun ts => identifierTailFrom_line (Nat.zero_le _)
  intro ts
  have hrun := identifierRun_le ts
  rw [identifierLength?, identifierLength?, lineLocal_identifierRun]
  split
  · rfl
  · rw [← line_drop hrun, htail]

/-- A path, from a token on this line on. -/
lemma pathLengthFrom_line {skip : Nat} (hs : skip ≤ lineLength ts) :
    pathLengthFrom skip (line ts) = pathLengthFrom skip ts := by
  induction ts generalizing skip with
  | nil => rfl
  | cons t ts ih =>
      rw [lineLength_cons] at hs
      by_cases ht : t.kind = .newline
      · obtain rfl : skip = 0 := by simpa [ht] using hs
        have hset : pathKinds.contains .newline = false := by decide
        simp [line_newline ht, pathLengthFrom, ht, hset]
      rw [if_neg ht] at hs
      rw [line_cons ht]
      cases skip with
      | succ n => rw [pathLengthFrom, pathLengthFrom, ih (by omega)]
      | zero =>
          -- a backslash takes no terminator along: it takes nothing where the line ends
          have hescaped : (line ts).head?.any (·.kind ≠ .newline)
              = ts.head?.any (·.kind ≠ .newline) :=
            LineLocal.of_cons (f := fun us => us.head?.any (·.kind ≠ .newline))
              (fun t us ht => by simp [ht]) (fun _ _ _ => rfl) ts
          have hle : (if ts.head?.any (·.kind ≠ .newline) then 1 else 0) ≤ lineLength ts := by
            cases ts with
            | nil => simp
            | cons u us =>
                rw [lineLength_cons]
                by_cases hu : u.kind = .newline <;> simp [hu]
          rw [pathLengthFrom, pathLengthFrom, lineLocal_groupLength? (by decide), hescaped, ih hle,
            ih (groupLength?_getD_le (by decide) ts), ih (Nat.zero_le _)]

lemma lineLocal_pathLength : LineLocal pathLength :=
  fun _ => pathLengthFrom_line (Nat.zero_le _)

/-! ### Lines in front of a request -/

lemma lineLocal_isMetadata : LineLocal isMetadata :=
  (LineLocal.behind (by decide) (lineLocal_identifierLength?.map Option.isSome)).skipBlanks

/-- What is asked of the tokens after the first word of a request. -/
lemma lineLocal_wordThenText : LineLocal fun ts =>
    startsWith .word ts && startsWith .whitespace (ts.drop 1) && !isBlankLine (ts.drop 1) := by
  intro ts
  simp only [Bool.and_assoc]
  exact LineLocal.behind (by decide) lineLocal_blankThenText ts

lemma lineLocal_isCommand : LineLocal isCommand := by
  have hshape : ∀ us, isCommand us = ((startsWith .word us
      && startsWith .whitespace (us.drop 1) && !isBlankLine (us.drop 1))
        && (startsWith .word us && commandNames.contains (headText us))) := by
    intro us
    rw [isCommand]
    cases startsWith .word us <;> simp [Bool.and_comm, Bool.and_left_comm]
  intro ts
  rw [hshape, hshape]
  exact (lineLocal_wordThenText.and (lineLocal_headText (by decide) _)) ts

lemma lineLocal_isVersion : LineLocal isVersion := by
  have hshape : ∀ us, isVersion us = ((startsWith .word us && headText us == "HTTP")
      && (startsWith .word us && (startsWith .slash (us.drop 1)
        && (startsWith .word ((us.drop 1).drop 1)
          && isVersionNumber (headText ((us.drop 1).drop 1)))))) := by
    intro us
    rw [isVersion, List.drop_drop]
    cases startsWith .word us <;> simp [Bool.and_assoc]
  have hnumber := lineLocal_headText (k := .word) (by decide) isVersionNumber
  intro ts
  rw [hshape, hshape]
  exact ((lineLocal_headText (by decide) (· == "HTTP")).and
    (.behind (by decide) (.behind (by decide) hnumber))) ts

lemma lineLocal_preambleLine : LineLocal PreambleLine.ofTokens := by
  refine .of_cons (fun t us ht => ?_) fun t us ht => ?_
  · simp [PreambleLine.ofTokens, ht]
  · have hline := line_cons ht us
    have hcommand := lineLocal_isCommand (t :: us)
    have hversion := lineLocal_isVersion (t :: us)
    rw [hline] at hcommand hversion
    rw [PreambleLine.ofTokens, PreambleLine.ofTokens, hcommand, hversion, lineLocal_isMetadata,
      lineLocal_startsWith (by decide)]

/-! ### Headers -/

lemma lineLocal_headerNameLength : LineLocal headerNameLength := by
  have hset : headerNameKinds.contains .newline = false := by decide
  exact (lineLocal_takeWhile fun t ht => by rw [ht, hset]).map List.length

lemma headerNameLength_le (ts : List Token) : headerNameLength ts ≤ lineLength ts :=
  length_takeWhile_le_lineLength (by decide) ts

lemma lineLocal_isHeader : LineLocal isHeader :=
  (lineLocal_headerNameLength.map fun n => decide (n ≠ 0)).and
    (lineLocal_headerNameLength.further headerNameLength_le
      (lineLocal_startsWith (by decide)).skipBlanks)

/-! ### Lines of a body -/

lemma lineLocal_isJson : LineLocal isJson :=
  lineLocal_startsIn (by decide)

lemma lineLocal_isBodyStop : LineLocal isBodyStop :=
  ((lineLocal_startsWith (by decide)).or (lineLocal_startsWith (by decide))).or
    (lineLocal_startsWith (by decide))

lemma lineLocal_formContinues : LineLocal Cursor.formContinues :=
  (lineLocal_isBlankLine.map not).and (lineLocal_isBodyStop.map not)

lemma lineLocal_isBoundary : LineLocal isBoundary :=
  .behind (by decide) ((lineLocal_startsWith (by decide)).map not)

lemma lineLocal_isHandler : LineLocal isHandler := by
  have hblank : LineLocal (startsWith .whitespace) := lineLocal_startsWith (by decide)
  intro ts
  rw [isHandler, isHandler, Bool.and_or_distrib_right, Bool.and_or_distrib_right]
  exact (LineLocal.behind (by decide) hblank).or (LineLocal.behind (by decide) hblank) ts

/-- What names a file stands on one line. -/
lemma lineLocal_isExternal : LineLocal isExternal := by
  have hshape : ∀ us, isExternal us = (startsWith .angleOpen us &&
      (fun vs => startsWith .whitespace vs && !isBlankLine vs)
        (if startsWith .at (us.drop 1) then (us.drop 1).drop 1 else us.drop 1)) := by
    intro us
    rw [isExternal, Bool.and_assoc, List.drop_drop]
  intro ts
  rw [hshape, hshape]
  exact LineLocal.behind (by decide) (.past (by decide) lineLocal_blankThenText) ts

lemma lineLocal_isGraphqlTail : LineLocal isGraphqlTail :=
  lineLocal_isJson.or lineLocal_isExternal

lemma lineLocal_isForm : LineLocal isForm := by
  have hlength : LineLocal fun ts => lengthOutsideVariables formSearchEnd (line ts) :=
    lineLocal_line.map _
  have hle : ∀ ts, lengthOutsideVariables formSearchEnd (line ts) ≤ lineLength ts := fun ts =>
    length_line ts ▸ lengthOutsideVariables_le _ _
  have hequals := hlength.further hle (lineLocal_startsWith (k := .equals) (by decide))
  refine .of_cons (fun t us ht => ?_) fun t us ht => ?_
  · simp [isForm, line_newline ht, ht, lengthOutsideVariables, lengthOutsideVariablesFrom]
  · have h := hequals (t :: us)
    simp only [line_cons ht] at h
    rw [isForm, isForm]
    simp only [line_cons ht, h]

end Lookahead

end RequestFile
