import Mathlib.Tactic
import RequestFile.Token

/-!
Classes of characters.

* **Tables.** Two tables lie apart if no range of one meets a range of the other; then no character
  is in both (`CodePoints.not_contains_of_apart`).
* **Classes.** Word characters, blanks and stray breaks have no character in common
  (`not_isWordChar_of_isBlank`, `not_isWordChar_of_isStrayBreak`, `not_isBlank_of_isStrayBreak`).
* **White space** is blanks, stray breaks and line terminators (`isWhiteSpace_iff`).
-/

namespace RequestFile

-- there are also instances that decide a property of all the characters there are
instance decidableForallMemChars {p : Char → Prop} [DecidablePred p] (cs : List Char) :
    Decidable (∀ c ∈ cs, p c) :=
  List.decidableBAll p cs

instance decidableExistsMemChars {p : Char → Prop} [DecidablePred p] (cs : List Char) :
    Decidable (∃ c ∈ cs, p c) :=
  List.decidableBEx p cs

instance decidableForallMemCharOption {p : Char → Prop} [DecidablePred p] (o : Option Char) :
    Decidable (∀ c ∈ o, p c) :=
  o.decidableForallMem

variable {c : Char}

/-! ### Tables -/

namespace CodePoints

variable {r q : CodePoints}

/-- Whether no range of one table meets a range of the other. -/
def apart (r q : CodePoints) : Bool :=
  r.all fun x => q.all fun y => x.2 < y.1 || y.2 < x.1

lemma exists_of_contains (h : contains c r) : ∃ x ∈ r, x.1 ≤ c.toNat ∧ c.toNat ≤ x.2 := by
  induction r with
  | nil => cases h
  | cons x r ih =>
      obtain ⟨lo, hi⟩ := x
      rw [contains, Bool.and_eq_true, Bool.or_eq_true, decide_eq_true_iff, decide_eq_true_iff] at h
      obtain ⟨hlo, hhi | hrest⟩ := h
      · exact ⟨(lo, hi), List.mem_cons_self, hlo, hhi⟩
      · obtain ⟨x, hx, hin⟩ := ih hrest
        exact ⟨x, List.mem_cons_of_mem _ hx, hin⟩

/-- A character of a table is in none that lies apart from it. -/
lemma not_contains_of_apart (h : apart r q) (hc : contains c r) : contains c q = false := by
  by_contra hq
  obtain ⟨x, hx, hxlo, hxhi⟩ := exists_of_contains hc
  obtain ⟨y, hy, hylo, hyhi⟩ := exists_of_contains (Bool.not_eq_false _ ▸ hq)
  have hxy := List.all_eq_true.mp (List.all_eq_true.mp h x hx) y hy
  rw [Bool.or_eq_true, decide_eq_true_iff, decide_eq_true_iff] at hxy
  omega

end CodePoints

/-! ### Classes -/

namespace Token

open CodePoints

/-- A class without the marks of words, in a table apart from letters and numbers, has no word
characters. -/
lemma not_isWordChar_of_contains {r : CodePoints} (hletters : apart r letters)
    (hnumbers : apart r numbers) (hmarks : ∀ m ∈ ['_', '$', '.'], contains m r = false)
    (h : contains c r) : isWordChar c = false := by
  have hl : isLetter c = false := not_contains_of_apart hletters h
  have hn : isNumber c = false := not_contains_of_apart hnumbers h
  have hmark : ∀ m ∈ ['_', '$', '.'], (c == m) = false := by
    intro m hm
    rw [beq_eq_false_iff_ne]
    rintro rfl
    rw [hmarks c hm] at h
    cases h
  simp only [List.forall_mem_cons] at hmark
  obtain ⟨hunderscore, hdollar, hdot, -⟩ := hmark
  rw [isWordChar, hunderscore, hdollar, hdot, hl, hn]
  rfl

lemma not_isWordChar_of_isBlank (h : isBlank c) : isWordChar c = false := by
  rw [isBlank, Bool.or_eq_true, beq_iff_eq] at h
  rcases h with rfl | h
  · decide
  · exact not_isWordChar_of_contains (by decide +kernel) (by decide +kernel) (by decide) h

lemma not_isWordChar_of_isStrayBreak (h : isStrayBreak c) : isWordChar c = false :=
  not_isWordChar_of_contains (by decide +kernel) (by decide +kernel) (by decide) h

lemma not_isBlank_of_isStrayBreak (h : isStrayBreak c) : isBlank c = false := by
  have hspace : contains c spaceSeparators = false :=
    not_contains_of_apart (r := strayBreaks) (by decide) h
  have htab : (c == '\t') = false := by
    rw [beq_eq_false_iff_ne]
    rintro rfl
    exact absurd h (by decide)
  rw [isBlank, hspace, htab]
  rfl

/-- **White space** is blanks, stray breaks and line terminators. -/
lemma isWhiteSpace_iff : isWhiteSpace c ↔ isBlank c ∨ isStrayBreak c ∨ c = '\n' ∨ c = '\r' := by
  have hcode : ∀ d : Char, c = d ↔ c.toNat = d.toNat := fun d => by
    rw [Char.toNat_inj]
  simp only [isWhiteSpace, isBlank, isStrayBreak, whiteSpace, spaceSeparators, strayBreaks,
    contains, Bool.and_eq_true, Bool.or_eq_true, Bool.false_eq_true, or_false, decide_eq_true_iff,
    beq_iff_eq, hcode]
  have htab : '\t'.toNat = 9 := rfl
  have hfeed : '\n'.toNat = 10 := rfl
  have hreturn : '\r'.toNat = 13 := rfl
  rw [htab, hfeed, hreturn]
  omega

lemma isWhiteSpace_of_isBlank (h : isBlank c) : isWhiteSpace c :=
  isWhiteSpace_iff.mpr (.inl h)

end Token

end RequestFile
