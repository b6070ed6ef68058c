import Mathlib.Tactic
import RequestFile.Text.Lines

/-!
Lines and bytes of a text.

* **Bytes.** More bytes hold more characters (`takeBytes_prefix_of_le`), and those within the bytes of
  a prefix are that prefix (`takeBytes_append`).
* **Lines.** A text is cut at its first line feed (`splitAtLineFeeds_append`). On one line, joining
  lines is trimming (`joinedLines_of_oneLine`).
* **Line numbers.** The number of a line counts the line feeds in front of it (`lineNumber_append`).
-/

namespace RequestFile

/-! ### Bytes -/

lemma utf8ByteSize_ofList_cons (c : Char) (cs : List Char) :
    (String.ofList (c :: cs)).utf8ByteSize = c.utf8Size + (String.ofList cs).utf8ByteSize := by
  have happend : String.ofList (c :: cs) = String.singleton c ++ String.ofList cs := by
    rw [String.ext_iff]
    simp
  rw [happend, String.utf8ByteSize_append, String.utf8ByteSize_singleton]

/-- The characters within the bytes of a prefix are the prefix. -/
lemma takeBytes_append (as bs : List Char) :
    takeBytes (String.ofList as).utf8ByteSize (as ++ bs) = as := by
  induction as with
  | nil =>
      cases bs with
      | nil => rfl
      | cons b bs =>
          have hpos := b.utf8Size_pos
          have hzero : (String.ofList []).utf8ByteSize = 0 := rfl
          rw [List.nil_append, takeBytes, if_neg (by omega)]
  | cons a as ih =>
      rw [List.cons_append, takeBytes, utf8ByteSize_ofList_cons, if_pos (Nat.le_add_right _ _),
        Nat.add_sub_cancel_left, ih]

lemma takeBytes_of_append (a b : String) :
    takeBytes a.utf8ByteSize (a ++ b).toList = a.toList := by
  have htake := takeBytes_append a.toList b.toList
  rwa [String.ofList_toList, ← String.toList_append] at htake

/-- Within more bytes lie more characters. -/
lemma takeBytes_prefix_of_le {m n : Nat} (h : m ≤ n) (cs : List Char) :
    takeBytes m cs <+: takeBytes n cs := by
  induction cs generalizing m n with
  | nil => exact List.prefix_rfl
  | cons c cs ih =>
      rw [takeBytes, takeBytes]
      by_cases hm : c.utf8Size ≤ m
      · rw [if_pos hm, if_pos (hm.trans h), List.prefix_cons_inj]
        exact ih (Nat.sub_le_sub_right h _)
      · rw [if_neg hm]
        exact List.nil_prefix

/-! ### Lines -/

lemma splitAtLineFeeds_eq {cs : List Char} (h : '\n' ∉ cs) : splitAtLineFeeds cs = [cs] := by
  induction cs with
  | nil => rfl
  | cons c cs ih =>
      rw [List.mem_cons, not_or] at h
      rw [splitAtLineFeeds, if_neg (Ne.symm h.1), ih h.2]

lemma splitAtLineFeeds_append {as : List Char} (h : '\n' ∉ as) (bs : List Char) :
    splitAtLineFeeds (as ++ '\n' :: bs) = as :: splitAtLineFeeds bs := by
  induction as with
  | nil => rfl
  | cons a as ih =>
      rw [List.mem_cons, not_or] at h
      rw [List.cons_append, splitAtLineFeeds, if_neg (Ne.symm h.1), ih h.2]

lemma trimList_concat {α : Type} {p : α → Bool} {x : α} (hx : p x) (l : List α) :
    trimList p (l ++ [x]) = trimList p l := by
  rw [trimList, List.dropWhile_append, trimList]
  by_cases hl : (l.dropWhile p).isEmpty
  · rw [if_pos hl, List.isEmpty_iff.mp hl, List.dropWhile_cons_of_pos hx, List.dropWhile_nil]
  · rw [if_neg hl, List.reverse_append, List.reverse_singleton, List.singleton_append,
      List.dropWhile_cons_of_pos hx]

/-- A text on one line is trimmed. -/
lemma joinedLines_of_oneLine {s : String} (h : '\n' ∉ s.toList) : joinedLines s = trimmed s := by
  rw [joinedLines, splitAtLineFeeds_eq h, List.flatMap_cons, List.flatMap_nil, List.append_nil,
    trimmed]

/-- A text without white space is its own line. -/
lemma joinedLines_eq {s : String} (h : ∀ c ∈ s.toList, isWhiteSpace c = false) :
    joinedLines s = s := by
  have hfeed : '\n' ∉ s.toList := fun hmem => absurd (h '\n' hmem) (by decide)
  have htrim : trimList isWhiteSpace s.toList = s.toList := by
    have hdrop : ∀ cs : List Char, (∀ c ∈ cs, isWhiteSpace c = false) →
        cs.dropWhile isWhiteSpace = cs := fun cs hcs => by
      cases cs with
      | nil => rfl
      | cons c cs => rw [List.dropWhile_cons_of_neg (by simp [hcs c List.mem_cons_self])]
    rw [trimList, hdrop _ h, hdrop _ (by simpa using h), List.reverse_reverse]
  rw [joinedLines_of_oneLine hfeed, trimmed, htrim, String.ofList_toList]

/-! ### Line numbers -/

/-- The line of an offset behind a prefix. -/
lemma lineNumber_append (a b : String) :
    lineNumber (a ++ b) a.utf8ByteSize = a.toList.count '\n' + 1 := by
  rw [lineNumber, takeBytes_of_append]

end RequestFile
