import Mathlib.Tactic
import Mathlib.Data.List.TakeWhile
import RequestFile.Parse.Lookahead

/-!
How far the productions look ahead.

Every length that `Lookahead` finds is bounded by what it was found in: a segment by its own length,
and names, groups and paths by the end of the line. Productions that stop at such a length therefore
stay on their line.

* **Lines.** `lineLength_cons`, `lineLength_drop`, `head_drop_lineLength`.
* **Bounds.** `identifierLength?_bounds`, `pathLength_le`, `lengthOutsideVariables_le`.
* **Blanks.** `blank_of_mem_drop_trimmedLength`: what trimming drops is blank.
-/

namespace RequestFile

namespace Lookahead

@[simp]
lemma startsWith_nil (k : Kind) : startsWith k [] = false := rfl

@[simp]
lemma startsWith_cons (k : Kind) (t : Token) (ts : List Token) :
    startsWith k (t :: ts) = decide (t.kind = k) := rfl

lemma exists_of_startsWith {k : Kind} {ts : List Token} (h : startsWith k ts) :
    ∃ t us, ts = t :: us ∧ t.kind = k := by
  cases ts with
  | nil => simp at h
  | cons t us => exact ⟨t, us, rfl, by simpa using h⟩

/-- What is found in a stretch of tokens is found there. -/
lemma startsWith_drop_take {k : Kind} {ts : List Token} {m n : Nat}
    (h : startsWith k ((ts.take m).drop n)) : n < m ∧ startsWith k (ts.drop n) := by
  rw [List.drop_take] at h
  cases hm : m - n with
  | zero => simp [hm] at h
  | succ i =>
      refine ⟨by omega, ?_⟩
      cases hd : ts.drop n with
      | nil => simp [hd] at h
      | cons t us => simpa [hd, hm] using h

/-! ### Lines -/

@[simp]
lemma lineLength_nil : lineLength [] = 0 := rfl

lemma line_cons {t : Token} (ht : t.kind ≠ .newline) (ts : List Token) :
    line (t :: ts) = t :: line ts := by
  simp [line, ht]

lemma line_newline {t : Token} (ht : t.kind = .newline) (ts : List Token) :
    line (t :: ts) = [] := by
  simp [line, ht]

lemma lineLength_cons (t : Token) (ts : List Token) :
    lineLength (t :: ts) = if t.kind = .newline then 0 else lineLength ts + 1 := by
  by_cases h : t.kind = .newline <;> simp [lineLength, h]

lemma lineLength_le (ts : List Token) : lineLength ts ≤ ts.length :=
  (List.takeWhile_prefix _).length_le

lemma take_lineLength (ts : List Token) : ts.take (lineLength ts) = line ts :=
  (List.prefix_iff_eq_take.mp (List.takeWhile_prefix _)).symm

lemma length_line (ts : List Token) : (line ts).length = lineLength ts := rfl

lemma lineLength_line (ts : List Token) : lineLength (line ts) = lineLength ts := by
  induction ts with
  | nil => rfl
  | cons t ts ih =>
      by_cases ht : t.kind = .newline
      · rw [line_newline ht, lineLength_cons, if_pos ht]
        rfl
      · rw [line_cons ht, lineLength_cons, lineLength_cons, ih]

lemma kind_of_mem_line {ts : List Token} {t : Token} (h : t ∈ line ts) : t.kind ≠ .newline := by
  simpa using List.mem_takeWhile_imp h

/-- No token before the end of the line ends it. -/
lemma kind_of_mem_take {ts : List Token} {n : Nat} (hn : n ≤ lineLength ts) {t : Token}
    (h : t ∈ ts.take n) : t.kind ≠ .newline := by
  have hsub : ts.take n = (line ts).take n := by
    rw [← take_lineLength, List.take_take, min_eq_left hn]
  rw [hsub] at h
  exact kind_of_mem_line (List.mem_of_mem_take h)

lemma lineLength_drop {ts : List Token} {n : Nat} (hn : n ≤ lineLength ts) :
    lineLength (ts.drop n) = lineLength ts - n := by
  induction ts generalizing n with
  | nil => simp
  | cons t ts ih =>
      rw [lineLength_cons] at hn ⊢
      by_cases ht : t.kind = .newline
      · obtain rfl : n = 0 := by simpa [ht] using hn
        simp [lineLength_cons, ht]
      · rw [if_neg ht] at hn ⊢
        cases n with
        | zero => simp [lineLength_cons, ht]
        | succ n => rw [List.drop_succ_cons, ih (by omega)]; omega

lemma line_drop {ts : List Token} {n : Nat} (hn : n ≤ lineLength ts) :
    line (ts.drop n) = (line ts).drop n := by
  rw [← take_lineLength, ← take_lineLength, lineLength_drop hn, List.drop_take]

/-- The line ends with a terminator or with the input. -/
lemma head_drop_lineLength (ts : List Token) :
    ts.drop (lineLength ts) = [] ∨ startsWith .newline (ts.drop (lineLength ts)) := by
  induction ts with
  | nil => exact Or.inl rfl
  | cons t ts ih =>
      rw [lineLength_cons]
      by_cases ht : t.kind = .newline
      · exact Or.inr (by simp [ht])
      · simpa [ht] using ih

lemma skipBlanks_cons (t : Token) (ts : List Token) :
    skipBlanks (t :: ts) = if t.kind = .whitespace then skipBlanks ts else t :: ts := by
  by_cases h : t.kind = .whitespace <;> simp [skipBlanks, h]

lemma isBlankLine_cons (t : Token) (ts : List Token) :
    isBlankLine (t :: ts) = if t.kind = .whitespace then isBlankLine ts
      else decide (t.kind = .newline) := by
  rw [isBlankLine, isBlankLine, skipBlanks_cons]
  split_ifs <;> rfl

/-- A line is blank if nothing but blanks stands before its end. -/
lemma isBlankLine_of_line {ts : List Token} (h : ∀ t ∈ line ts, t.kind = .whitespace) :
    isBlankLine ts := by
  induction ts with
  | nil => rfl
  | cons t ts ih =>
      rw [isBlankLine_cons]
      by_cases hn : t.kind = .newline
      · simp [hn]
      · rw [line_cons hn] at h
        rw [if_pos (h t List.mem_cons_self)]
        exact ih fun u hu => h u (List.mem_cons_of_mem t hu)

/-- A line that is not blank has a token before its end. -/
lemma exists_of_not_isBlankLine {ts : List Token} (h : ¬isBlankLine ts) :
    ∃ t us, ts = t :: us ∧ t.kind ≠ .newline := by
  cases ts with
  | nil => exact absurd rfl h
  | cons t us =>
      refine ⟨t, us, rfl, fun hk => h ?_⟩
      simp [isBlankLine_cons, hk]

/-! ### Segments -/

lemma trimmedLength_le (segment : List Token) : trimmedLength segment ≤ segment.length := by
  rw [trimmedLength]
  calc (segment.reverse.dropWhile _).length ≤ segment.reverse.length :=
        (List.dropWhile_suffix _).length_le
    _ = segment.length := List.length_reverse

/-- Trimming parts a segment: what it keeps does not end with a blank, what it drops is blank. -/
lemma exists_trimmed (segment : List Token) :
    ∃ us vs, segment = us ++ vs ∧ us.length = trimmedLength segment ∧
      (∀ t ∈ us.getLast?, t.kind ≠ .whitespace) ∧ ∀ t ∈ vs, t.kind = .whitespace := by
  refine ⟨(segment.reverse.dropWhile fun t => decide (t.kind = .whitespace)).reverse,
    (segment.reverse.takeWhile fun t => decide (t.kind = .whitespace)).reverse, ?_, ?_,
    fun t ht => ?_, fun t ht => ?_⟩
  · rw [← List.reverse_append, List.takeWhile_append_dropWhile, List.reverse_reverse]
  · rw [List.length_reverse, trimmedLength]
  · have hnot := List.head?_dropWhile_not (fun t : Token => decide (t.kind = .whitespace))
      segment.reverse
    rw [List.getLast?_reverse] at ht
    rw [Option.mem_def.mp ht] at hnot
    simpa using hnot
  · simpa using List.mem_takeWhile_imp (List.mem_reverse.mp ht)

/-- What trimming drops is blank. -/
lemma blank_of_mem_drop_trimmedLength {segment : List Token} {t : Token}
    (h : t ∈ segment.drop (trimmedLength segment)) : t.kind = .whitespace := by
  obtain ⟨us, vs, hsplit, hlen, _, hblank⟩ := exists_trimmed segment
  rw [← hlen, hsplit, List.drop_left] at h
  exact hblank t h

/-- Trimming stops at a token that is not blank. -/
lemma getLast_take_trimmedLength {segment : List Token} {t : Token}
    (h : t ∈ (segment.take (trimmedLength segment)).getLast?) : t.kind ≠ .whitespace := by
  obtain ⟨us, vs, hsplit, hlen, hlast, _⟩ := exists_trimmed segment
  rw [← hlen, hsplit, List.take_left] at h
  exact hlast t h

/-- Trimming keeps a segment that begins with something else than a blank. -/
lemma trimmedLength_pos {t : Token} {ts : List Token} (h : t.kind ≠ .whitespace) :
    0 < trimmedLength (t :: ts) := by
  by_contra h0
  have : t ∈ (t :: ts).drop (trimmedLength (t :: ts)) := by
    rw [Nat.eq_zero_of_not_pos h0]
    exact List.mem_cons_self
  exact h (blank_of_mem_drop_trimmedLength this)

lemma trimmedLength_concat (ts : List Token) {t : Token} (ht : t.kind = .whitespace) :
    trimmedLength (ts ++ [t]) = trimmedLength ts := by
  rw [trimmedLength, List.reverse_append, List.reverse_singleton, List.singleton_append,
    List.dropWhile_cons_of_pos (by simp [ht]), trimmedLength]

/-- Trimming keeps a segment that does not end with a blank. -/
lemma trimmedLength_eq {ts : List Token} (h : ∀ t ∈ ts.getLast?, t.kind ≠ .whitespace) :
    trimmedLength ts = ts.length := by
  rw [trimmedLength]
  cases hrev : ts.reverse with
  | nil => simp [← List.length_reverse, hrev]
  | cons t us =>
      have hlast : ts.getLast? = some t := by rw [← List.head?_reverse, hrev]; rfl
      rw [List.dropWhile_cons_of_neg (by simpa using h t hlast), ← hrev, List.length_reverse]

lemma lengthBefore_le (set : KindSet) (segment : List Token) :
    lengthBefore set segment ≤ segment.length :=
  (List.takeWhile_prefix _).length_le

lemma lengthOutsideVariablesFrom_le (set : KindSet) (skip : Nat) (segment : List Token) :
    lengthOutsideVariablesFrom set skip segment ≤ segment.length := by
  induction segment generalizing skip with
  | nil => exact Nat.zero_le _
  | cons t ts ih =>
      rw [List.length_cons]
      cases skip with
      | succ n => exact Nat.succ_le_succ (ih n)
      | zero =>
          rw [lengthOutsideVariablesFrom]
          split_ifs
          · exact Nat.succ_le_succ (ih _)
          · exact Nat.zero_le _
          · exact Nat.succ_le_succ (ih _)

/-- A search finds nothing where there is nothing to find. -/
lemma lengthOutsideVariables_eq_length {set : KindSet} {segment : List Token}
    (h : ∀ t ∈ segment, t.kind ≠ .varOpen ∧ set.contains t.kind = false) :
    lengthOutsideVariables set segment = segment.length := by
  rw [lengthOutsideVariables]
  induction segment with
  | nil => rfl
  | cons t segment ih =>
      obtain ⟨⟨hopen, hset⟩, hall⟩ := List.forall_mem_cons.mp h
      rw [lengthOutsideVariablesFrom]
      simp only [hopen, hset, if_false, Bool.false_eq_true, ih hall, List.length_cons]

/-- A search for more kinds that ends at one of some of them ends where the search for these does. -/
lemma lengthOutsideVariablesFrom_of_subset {few many : KindSet}
    (hsub : ∀ k, few.contains k → many.contains k) {segment : List Token} {skip : Nat} {t : Token}
    {us : List Token}
    (h : segment.drop (lengthOutsideVariablesFrom many skip segment) = t :: us)
    (ht : few.contains t.kind) :
    lengthOutsideVariablesFrom few skip segment = lengthOutsideVariablesFrom many skip segment := by
  induction segment generalizing skip with
  | nil => rfl
  | cons u segment ih =>
      cases skip with
      | succ n => exact congrArg (· + 1) (ih h)
      | zero =>
          simp only [lengthOutsideVariablesFrom] at h ⊢
          by_cases hopen : u.kind = .varOpen
          · rw [if_pos hopen] at h
            rw [if_pos hopen, if_pos hopen]
            exact congrArg (· + 1) (ih h)
          rw [if_neg hopen] at h
          rw [if_neg hopen, if_neg hopen]
          by_cases hmany : many.contains u.kind
          · rw [if_pos hmany] at h
            obtain ⟨rfl, _⟩ := List.cons.inj h
            rw [if_pos ht, if_pos hmany]
          · rw [if_neg hmany] at h
            rw [if_neg fun hfew => hmany (hsub _ hfew), if_neg hmany]
            exact congrArg (· + 1) (ih h)

lemma lengthOutsideVariables_le (set : KindSet) (segment : List Token) :
    lengthOutsideVariables set segment ≤ segment.length :=
  lengthOutsideVariablesFrom_le set 0 segment

/-- A segment goes on behind a token that is not of the set. -/
lemma lengthOutsideVariables_pos {set : KindSet} {t : Token} (ts : List Token)
    (h : set.contains t.kind = false) : 0 < lengthOutsideVariables set (t :: ts) := by
  rw [lengthOutsideVariables, lengthOutsideVariablesFrom, h, if_neg Bool.false_ne_true]
  split_ifs
  · exact Nat.succ_pos _
  · exact Nat.succ_pos _

/-! ### Groups, names and paths -/

/-- A group ends on its line. -/
lemma groupLength?_le {closer : Kind} (hc : closer ≠ .newline) {ts : List Token} {n : Nat}
    (h : groupLength? closer ts = some n) : n ≤ lineLength ts := by
  induction ts generalizing n with
  | nil => simp [groupLength?] at h
  | cons t ts ih =>
      rw [groupLength?] at h
      split_ifs at h with hk hn
      · obtain rfl := Option.some.inj h
        rw [lineLength_cons, if_neg (by rw [hk]; exact hc)]
        exact Nat.succ_le_succ (Nat.zero_le _)
      · obtain ⟨m, hm, rfl⟩ := Option.map_eq_some_iff.mp h
        rw [lineLength_cons, if_neg hn]
        exact Nat.succ_le_succ (ih hm)

lemma groupLength?_getD_le {closer : Kind} (hc : closer ≠ .newline) (ts : List Token) :
    (groupLength? closer ts).getD 0 ≤ lineLength ts := by
  cases h : groupLength? closer ts with
  | none => exact Nat.zero_le _
  | some n => exact groupLength?_le hc h

/-- A run of tokens of a set without the terminator stays on its line. -/
lemma length_takeWhile_le_lineLength {set : KindSet} (hs : set.contains .newline = false)
    (ts : List Token) : (ts.takeWhile fun t => set.contains t.kind).length ≤ lineLength ts := by
  induction ts with
  | nil => exact Nat.zero_le _
  | cons t ts ih =>
      rw [List.takeWhile_cons]
      by_cases ht : set.contains t.kind
      · rw [if_pos ht, lineLength_cons, if_neg (fun hn => by rw [hn, hs] at ht; simp at ht)]
        exact Nat.succ_le_succ ih
      · rw [if_neg ht]
        exact Nat.zero_le _

lemma identifierRun_le (ts : List Token) : identifierRun ts ≤ lineLength ts :=
  length_takeWhile_le_lineLength (by decide) ts

lemma identifierTailFrom_le {skip : Nat} {ts : List Token} (hs : skip ≤ lineLength ts) :
    identifierTailFrom skip ts ≤ lineLength ts := by
  induction ts generalizing skip with
  | nil => exact Nat.zero_le _
  | cons t ts ih =>
      rw [lineLength_cons] at hs ⊢
      cases skip with
      | succ n =>
          by_cases ht : t.kind = .newline
          · simp [ht] at hs
          · rw [if_neg ht] at hs ⊢
            exact Nat.succ_le_succ (ih (by omega))
      | zero =>
          rw [identifierTailFrom]
          split
          · next hk =>
              rw [if_neg (by rw [hk]; decide)]
              split
              · next n hn => exact Nat.succ_le_succ (ih (groupLength?_le (by decide) hn))
              · exact Nat.zero_le _
          · next hk =>
              rw [if_neg (by rw [hk]; decide)]
              split
              · next n hn => exact Nat.succ_le_succ (ih (groupLength?_le (by decide) hn))
              · exact Nat.zero_le _
          · next hk =>
              have ht : t.kind ≠ .newline := by rw [hk]; decide
              rw [if_neg ht]
              split_ifs
              · exact Nat.succ_le_succ (ih (identifierRun_le ts))
              · exact Nat.zero_le _
          · exact Nat.zero_le _

/-- A name has at least one token and stays on its line. -/
lemma identifierLength?_bounds {ts : List Token} {n : Nat} (h : identifierLength? ts = some n) :
    0 < n ∧ n ≤ lineLength ts := by
  have hrun := identifierRun_le ts
  cases hr : identifierRun ts with
  | zero => simp [identifierLength?, hr] at h
  | succ m =>
      simp only [identifierLength?, hr, Option.some.injEq] at h
      rw [hr] at hrun
      have htail := identifierTailFrom_le (Nat.zero_le (lineLength (ts.drop (m + 1))))
      rw [lineLength_drop hrun] at htail
      omega

lemma pathLengthFrom_le {skip : Nat} {ts : List Token} (hs : skip ≤ lineLength ts) :
    pathLengthFrom skip ts ≤ lineLength ts := by
  induction ts generalizing skip with
  | nil => exact Nat.zero_le _
  | cons t ts ih =>
      rw [lineLength_cons] at hs ⊢
      by_cases ht : t.kind = .newline
      · obtain rfl : skip = 0 := by simpa [ht] using hs
        have hset : pathKinds.contains .newline = false := by decide
        simp [pathLengthFrom, ht, hset]
      rw [if_neg ht] at hs ⊢
      cases skip with
      | succ n => exact Nat.succ_le_succ (ih (by omega))
      | zero =>
          rw [pathLengthFrom]
          split_ifs with hb hesc hv hp
          · cases ts with
            | nil => simp at hesc
            | cons u us =>
                have hu : u.kind ≠ .newline := by simpa using hesc
                exact Nat.succ_le_succ (ih (by rw [lineLength_cons, if_neg hu]; omega))
          · exact Nat.succ_le_succ (ih (Nat.zero_le _))
          · exact Nat.succ_le_succ (ih (groupLength?_getD_le (by decide) ts))
          · exact Nat.succ_le_succ (ih (Nat.zero_le _))
          · exact Nat.zero_le _

/-- A path stays on its line. -/
lemma pathLength_le (ts : List Token) : pathLength ts ≤ lineLength ts :=
  pathLengthFrom_le (Nat.zero_le _)

end Lookahead

end RequestFile
