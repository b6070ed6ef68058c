import RequestFile.Proofs.Lines

/-!
Looking ahead does not see what comes after.

Productions stop at line ends and at separators, so tokens that are put behind those ahead change
nothing of what a production sees.

* **Lines.** Behind a line that has its terminator (`HasLineEnd`) anything may stand: what is told
  by the line stays as it is (`LineLocal.append`).
* **Bodies.** Behind tokens that end with a line (`Terminated`) a separator may stand (`Opens`):
  texts end in front of it as they do at the end (`textLength_append`, `lengthBeforeTail_append`).
-/

namespace RequestFile

namespace Lookahead

variable {ts w : List Token}

/-! ### Lines with a terminator -/

/-- The first line has its terminator. -/
def HasLineEnd (ts : List Token) : Prop :=
  lineLength ts < ts.length

lemma hasLineEnd_cons (t : Token) (ts : List Token) :
    HasLineEnd (t :: ts) ↔ t.kind = .newline ∨ HasLineEnd ts := by
  rw [HasLineEnd, HasLineEnd, lineLength_cons, List.length_cons]
  split_ifs with ht
  · simp [ht]
  · simp [ht]

lemma not_hasLineEnd_nil : ¬HasLineEnd [] :=
  lt_irrefl _

lemma HasLineEnd.ne_nil (h : HasLineEnd ts) : ts ≠ [] := by
  rintro rfl
  exact not_hasLineEnd_nil h

lemma HasLineEnd.of_cons {t : Token} (h : HasLineEnd (t :: ts)) (ht : t.kind ≠ .newline) :
    HasLineEnd ts :=
  ((hasLineEnd_cons t ts).mp h).resolve_left ht

lemma HasLineEnd.drop (h : HasLineEnd ts) {n : Nat} (hn : n ≤ lineLength ts) :
    HasLineEnd (ts.drop n) := by
  rw [HasLineEnd, lineLength_drop hn, List.length_drop]
  have : lineLength ts < ts.length := h
  omega

lemma lineLength_append (h : HasLineEnd ts) : lineLength (ts ++ w) = lineLength ts := by
  induction ts with
  | nil => exact absurd h not_hasLineEnd_nil
  | cons t ts ih =>
      rw [List.cons_append, lineLength_cons, lineLength_cons]
      by_cases ht : t.kind = .newline
      · rw [if_pos ht, if_pos ht]
      · rw [if_neg ht, if_neg ht, ih (h.of_cons ht)]

lemma line_append (h : HasLineEnd ts) : line (ts ++ w) = line ts := by
  rw [← take_lineLength, ← take_lineLength, lineLength_append h,
    List.take_append_of_le_length (lineLength_le ts)]

/-- What is told by the line is told by it with anything behind. -/
lemma LineLocal.append {α : Type*} {f : List Token → α} (hf : LineLocal f) (h : HasLineEnd ts) :
    f (ts ++ w) = f ts :=
  hf.eq (line_append h)

lemma headText_append (h : HasLineEnd ts) : headText (ts ++ w) = headText ts := by
  cases ts with
  | nil => exact absurd h not_hasLineEnd_nil
  | cons t ts => rfl

/-! ### Separators after the end -/

/-- Nothing follows, or a section does. -/
def Opens (w : List Token) : Prop :=
  w = [] ∨ startsWith .separatorMarker w

/-- Every line has its terminator, the last one too. -/
def Terminated (ts : List Token) : Prop :=
  ∀ t ∈ ts.getLast?, t.kind = .newline

lemma Terminated.of_cons {t : Token} (h : Terminated (t :: ts)) : Terminated ts := by
  intro u hu
  refine h u ?_
  rw [List.getLast?_cons, Option.mem_def.mp hu]
  rfl

lemma Terminated.hasLineEnd (h : Terminated ts) (hne : ts ≠ []) : HasLineEnd ts := by
  induction ts with
  | nil => exact absurd rfl hne
  | cons t ts ih =>
      rw [hasLineEnd_cons]
      cases ts with
      | nil => exact Or.inl (h t rfl)
      | cons u us => exact Or.inr (ih h.of_cons (List.cons_ne_nil u us))

/-- A separator is none of the tokens that are asked for at the end. -/
lemma startsWith_append {k : Kind} (ht : Opens w) (hk : k ≠ .separatorMarker)
    (ts : List Token) : startsWith k (ts ++ w) = startsWith k ts := by
  cases ts with
  | cons t ts => rfl
  | nil =>
      rcases ht with rfl | hsep
      · rfl
      · obtain ⟨t, us, rfl, hkind⟩ := exists_of_startsWith hsep
        simpa [hkind] using hk.symm

/-- A separator answers some questions as the end does. -/
lemma LineLocal.append_of_opens {α : Type*} {f : List Token → α} (hf : LineLocal f) (ht : Opens w)
    (hts : Terminated ts) (hsep : ∀ us, startsWith .separatorMarker us → f us = f []) :
    f (ts ++ w) = f ts := by
  cases ts with
  | cons t ts => exact hf.append (hts.hasLineEnd (List.cons_ne_nil t ts))
  | nil =>
      rcases ht with rfl | h
      · rfl
      · exact hsep w h

lemma isHandler_append (ht : Opens w) (ts : List Token) :
    isHandler (ts ++ w) = isHandler ts := by
  simp only [isHandler, startsWith_append ht (show Kind.angleClose ≠ .separatorMarker by decide),
    startsWith_append ht (show Kind.redirectMarker ≠ .separatorMarker by decide)]
  cases ts with
  | cons t ts =>
      rw [List.cons_append, List.drop_succ_cons, List.drop_succ_cons, List.drop_zero,
        List.drop_zero, startsWith_append ht (by decide)]
  | nil => rfl

lemma nextLineIsIndented_append (ht : Opens w) (h : HasLineEnd ts) (hts : Terminated ts) :
    nextLineIsIndented (ts ++ w) = nextLineIsIndented ts := by
  have hlt : lineLength ts < ts.length := h
  have hdrop : ((ts ++ w).drop (lineLength ts)).drop 1
      = (ts.drop (lineLength ts)).drop 1 ++ w := by
    rw [List.drop_drop, List.drop_drop, List.drop_append_of_le_length (by omega)]
  have hnext : Terminated ((ts.drop (lineLength ts)).drop 1) := by
    intro t hmem
    rw [List.drop_drop] at hmem
    rw [Option.mem_def, List.getLast?_drop] at hmem
    split_ifs at hmem
    exact hts t hmem
  simp only [nextLineIsIndented]
  rw [lineLength_append h, hdrop]
  generalize (ts.drop (lineLength ts)).drop 1 = next at *
  rw [startsWith_append ht (by decide)]
  cases next with
  | nil => simp
  | cons u us => rw [lineLocal_isBlankLine.append (hnext.hasLineEnd (List.cons_ne_nil u us))]

lemma isExternal_append (ht : Opens w) (hts : Terminated ts) :
    isExternal (ts ++ w) = isExternal ts :=
  lineLocal_isExternal.append_of_opens ht hts fun us hsep => by
    obtain ⟨t, vs, rfl, hk⟩ := exists_of_startsWith hsep
    simp [isExternal, hk]

lemma bodyLine_append (h : HasLineEnd ts) :
    BodyLine.ofTokens (ts ++ w) = BodyLine.ofTokens ts := by
  obtain ⟨t, us, rfl⟩ := List.exists_cons_of_ne_nil h.ne_nil
  have hform : BodyLine.formOrRaw (t :: us ++ w) = BodyLine.formOrRaw (t :: us) := by
    rw [BodyLine.formOrRaw, BodyLine.formOrRaw, lineLocal_isForm.append h]
  rw [BodyLine.ofTokens, BodyLine.ofTokens, hform, lineLocal_isBlankLine.append h,
    lineLocal_isExternal.append h, headText_append h]
  by_cases hb : isBlankLine (t :: us)
  · rw [if_pos hb, if_pos hb]
  obtain ⟨_, _, heq, hk⟩ := exists_of_not_isBlankLine hb
  obtain ⟨rfl, rfl⟩ := List.cons.inj heq
  have h' := h.of_cons hk
  obtain ⟨v, vs, rfl⟩ := List.exists_cons_of_ne_nil h'.ne_nil
  have hrest := lineLocal_isBlankLine.append (w := w) h'
  rw [List.cons_append] at hrest
  simp only [List.cons_append, List.drop_succ_cons, List.drop_zero, List.head?_cons,
    startsWith_cons, hrest]

/-! ### Texts over several lines -/

lemma isJson_append (ht : Opens w) (hts : Terminated ts) : isJson (ts ++ w) = isJson ts :=
  lineLocal_isJson.append_of_opens ht hts fun us hsep => by
    obtain ⟨t, vs, rfl, hk⟩ := exists_of_startsWith hsep
    have hset : jsonKinds.contains .separatorMarker = false := by decide
    simp [isJson, startsIn, hk, hset]

lemma splitLines_append (hts : Terminated ts) :
    splitLines (ts ++ w) = splitLines ts ++ splitLines w := by
  induction ts with
  | nil => rfl
  | cons t ts ih =>
      rw [List.cons_append, splitLines, splitLines, ih hts.of_cons]
      by_cases ht : t.kind = .newline
      · rw [if_pos ht, if_pos ht, List.cons_append]
      · have hne : ts ≠ [] := by
          rintro rfl
          exact ht (hts t rfl)
        rw [if_neg ht, if_neg ht, splitLines_eq hne]
        rfl

/-- The first line after the end, if there is one, is that of a separator. -/
lemma splitLines_of_opens (ht : Opens w) :
    splitLines w = [] ∨ ∃ l ls, splitLines w = l :: ls ∧ startsWith .separatorMarker l := by
  rcases ht with rfl | hsep
  · exact Or.inl rfl
  · obtain ⟨t, us, rfl, hk⟩ := exists_of_startsWith hsep
    refine Or.inr ⟨_, _, splitLines_eq (List.cons_ne_nil t us), ?_⟩
    simp [hk]

/-- Lines are taken up to a separator as they are up to the end. -/
lemma takeWhile_append_of_opens {p : List Token → Bool} (ht : Opens w)
    (hp : ∀ l, startsWith .separatorMarker l → p l = false) (ls : List (List Token)) :
    (ls ++ splitLines w).takeWhile p = ls.takeWhile p := by
  induction ls with
  | nil =>
      rcases splitLines_of_opens ht with hnil | ⟨l, ls, hcons, hsep⟩
      · rw [hnil]
        rfl
      · simp [hcons, hp l hsep]
  | cons l ls ih => rw [List.cons_append, List.takeWhile_cons, List.takeWhile_cons, ih]

lemma linesBeforeTail_append (begins : List Token → Bool) (ht : Opens w) (b : Bool)
    (ls : List (List Token)) :
    linesBeforeTail begins b (ls ++ splitLines w) = linesBeforeTail begins b ls := by
  induction ls generalizing b with
  | nil =>
      rcases splitLines_of_opens ht with hnil | ⟨l, ls, hcons, hsep⟩
      · rw [hnil]
        rfl
      · simp [hcons, linesBeforeTail, isBodyStop, hsep]
  | cons l ls ih => rw [List.cons_append, linesBeforeTail, linesBeforeTail, ih]

lemma textLength_append {stop : List Token → Bool} (ht : Opens w) (hts : Terminated ts)
    (hne : ts ≠ []) (hstop : ∀ l, startsWith .separatorMarker l → stop l) :
    textLength stop (ts ++ w) = textLength stop ts := by
  rw [textLength, textLength, splitLines_append hts, splitLines_eq hne]
  simp only [List.cons_append]
  rw [takeWhile_append_of_opens ht fun l hl => by rw [hstop l hl]; rfl]

lemma lengthBeforeTail_append (begins : List Token → Bool) (ht : Opens w)
    (hts : Terminated ts) (hne : ts ≠ []) :
    lengthBeforeTail begins (ts ++ w) = lengthBeforeTail begins ts := by
  rw [lengthBeforeTail, lengthBeforeTail, splitLines_append hts, splitLines_eq hne]
  simp only [List.cons_append]
  rw [linesBeforeTail_append begins ht]

lemma isBlankLine_of_separator {l : List Token} (h : startsWith .separatorMarker l) :
    isBlankLine l = false := by
  obtain ⟨t, us, rfl, hk⟩ := exists_of_startsWith h
  simp [isBlankLine_cons, hk]

lemma blankLinesLength_append (ht : Opens w) (hts : Terminated ts) :
    blankLinesLength (ts ++ w) = blankLinesLength ts := by
  rw [blankLinesLength, splitLines_append hts,
    takeWhile_append_of_opens ht fun l hl => isBlankLine_of_separator hl, blankLinesLength]

lemma formContinues_append (ht : Opens w) (hts : Terminated ts) :
    Cursor.formContinues (ts ++ w) = Cursor.formContinues ts :=
  lineLocal_formContinues.append_of_opens ht hts fun us hsep => by
    have hnil : isBlankLine [] = true := rfl
    simp [Cursor.formContinues, isBodyStop, hsep, hnil]

end Lookahead

end RequestFile
