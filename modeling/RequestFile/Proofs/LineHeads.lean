import RequestFile.Proofs.Version

/-!
How lines of a body begin.

Whether a line begins a JSON text or names a file is asked of its tokens, and is told by its text: an
opening bracket or brace that is not part of a longer mark (`TextLine.opensJson`), or an angle, maybe
with an `@` behind it, and something else after a blank (`TextLine.namesFile`).

Both are told by the first line of the tokens ahead (`Lookahead.lineLocal_isExternal`), and the lines
of a source are told apart in this way (`Token.heads_scanFrom`).
-/

namespace RequestFile

/-! ### Lines of text -/

namespace TextLine

variable (l : TextLine)

/-- Whether a line begins with an opening bracket or brace. Two braces, or one and a percent sign, are
other marks. -/
def opensJson : Bool :=
  match l.content with
  | '[' :: _ => true
  | '\x7b' :: cs => cs.head?.all fun c => c ≠ '\x7b' && c ≠ '%'
  | _ => false

/-- Whether a line names a file: `<` or `<@`, a blank and something after it. -/
def namesFile : Bool :=
  match l.content with
  | '<' :: '@' :: cs => isIndented ⟨cs, l.ending⟩
  | '<' :: cs => isIndented ⟨cs, l.ending⟩
  | _ => false

end TextLine

namespace Token

open Lookahead (isExternal isJson startsWith splitLines lineLength)

variable {c : Char} {k : Kind} {cs : List Char} {b : Bool}

/-- Characters that are tokens by themselves, whatever stands around them. -/
def loners : List (Char × Kind) :=
  [('<', .angleOpen), ('@', .at), ('[', .bracketOpen)]

lemma scanFrom_loner (h : (c, k) ∈ loners) (b : Bool) (cs : List Char) :
    scanFrom b 0 (c :: cs) = ⟨k, String.ofList [c]⟩ :: scanFrom false 0 cs := by
  have hall : ∀ q ∈ loners, symbols.lookup q.1 = some q.2 ∧ isWordChar q.1 = false ∧
      RequestFile.isBlank q.1 = false ∧ isStrayBreak q.1 = false ∧ q.1 ≠ '#' ∧ q.1 ≠ '-' ∧
      (q.2 == .newline) = false ∧ ∀ p ∈ pairs, p.1.1 ≠ q.1 := by
    decide +kernel
  obtain ⟨hk, hw, hb, hs, hh, hd, hn, hpairs⟩ := hall _ h
  have hpair : pairKind? c cs = none := pairKind?_eq_none fun d _ k hmem => hpairs _ hmem rfl
  rw [scanFrom_cons, lead_symbol hk hw hb hs hh hd hpair, hn]
  rfl

/-- A token with one text only begins nowhere but where its text does. -/
lemma not_startsWith {s : String} {d : Char} (hopen : k ∉ openKinds)
    (honly : ∀ p ∈ fixedTexts, p.1 = k → p.2 = s) (hd : s.toList.head? = some c) (hne : d ≠ c)
    (b : Bool) (ds : List Char) : startsWith k (scanFrom b 0 (d :: ds)) = false := by
  refine Bool.eq_false_iff.mpr fun hstart => ?_
  obtain ⟨t, ts, ht, hk⟩ := Lookahead.exists_of_startsWith hstart
  have hlexeme := lexeme_of_mem_scanFrom b (d :: ds) t (by rw [ht]; exact List.mem_cons_self)
  have hfront : t.text.toList <+: d :: ds := head_scanFrom (b := b) (by rw [ht]; rfl)
  obtain ⟨cs, hcs⟩ := List.head?_eq_some_iff.mp hd
  rw [hlexeme.text_eq hk hopen honly, hcs] at hfront
  exact hne (List.cons_prefix_cons.mp hfront).1.symm

/-- Such a token begins where its character stands. -/
lemma startsWith_loner (h : (c, k) ∈ loners) (b : Bool) (cs : List Char) :
    startsWith k (scanFrom b 0 cs) = (cs.head? == some c) := by
  have hall : ∀ q ∈ loners, q.2 ∉ openKinds ∧
      ∀ p ∈ fixedTexts, p.1 = q.2 → p.2 = String.ofList [q.1] := by
    decide +kernel
  obtain ⟨hopen, honly⟩ := hall _ h
  cases cs with
  | nil => rfl
  | cons d ds =>
      by_cases hd : d = c
      · rw [hd, scanFrom_loner h]
        simp
      · rw [not_startsWith hopen honly (by simp) hd]
        simp [hd]

/-- A brace begins where one stands that is not part of a longer mark. -/
lemma startsWith_brace (b : Bool) (cs : List Char) :
    startsWith .braceOpen (scanFrom b 0 ('\x7b' :: cs))
      = cs.head?.all fun c => c ≠ '\x7b' && c ≠ '%' := by
  have hmark : ∀ d, d = '\x7b' ∨ d = '%' → ∀ ds,
      startsWith .braceOpen (scanFrom b 0 ('\x7b' :: d :: ds)) = false := by
    rintro d (rfl | rfl) ds <;> rfl
  by_cases h : ∃ d ∈ cs.head?, d = '\x7b' ∨ d = '%'
  · obtain ⟨d, hd, hd'⟩ := h
    obtain ⟨ds, rfl⟩ := List.head?_eq_some_iff.mp hd
    rw [hmark d hd', List.head?_cons, Option.all_some]
    rcases hd' with rfl | rfl <;> rfl
  · simp only [not_exists, not_and, not_or] at h
    have hpair : pairKind? '\x7b' cs = none := pairKind?_eq_none fun d hd k hmem => by
      simp [pairs] at hmem
      rcases hmem with ⟨rfl, _⟩ | ⟨rfl, _⟩
      · exact (h _ hd).1 rfl
      · exact (h _ hd).2 rfl
    rw [scanFrom_cons, lead_symbol (k := .braceOpen) rfl (by decide) (by decide) (by decide)
      (by decide) (by decide) hpair]
    symm
    simpa [Option.all_eq_true] using h

/-! ### The first line of a text -/

/-- What stands on the first line of a text. -/
def firstContent (cs : List Char) : List Char :=
  ((textLines cs).head?.map TextLine.content).getD []

/-- Behind it the text ends, or the line does. -/
lemma exists_firstContent (cs : List Char) :
    ∃ rest, cs = firstContent cs ++ rest ∧ ∀ c ∈ rest.head?, c = '\n' ∨ c = '\r' := by
  cases h : textLines cs with
  | nil =>
      have hcs := flatMap_textLines cs
      rw [h] at hcs
      subst hcs
      exact ⟨[], rfl, by simp⟩
  | cons l ls =>
      obtain ⟨rest, hcs, _, hrest⟩ := exists_of_textLines h
      exact ⟨rest, by rw [firstContent, h]; exact hcs, hrest⟩

lemma firstContent_cons (hc : c ≠ '\n' ∧ c ≠ '\r') (cs : List Char) :
    firstContent (c :: cs) = c :: firstContent cs := by
  rw [firstContent, textLines_cons hc, firstContent]
  cases textLines cs <;> rfl

lemma firstContent_break (hc : c = '\n' ∨ c = '\r') (cs : List Char) :
    firstContent (c :: cs) = [] := by
  cases h : textLines (c :: cs) with
  | nil => rw [firstContent, h]; rfl
  | cons l ls =>
      obtain ⟨rest, hcs, hone, _⟩ := exists_of_textLines h
      rw [firstContent, h]
      cases hl : l.content with
      | nil => simp [hl]
      | cons d ds =>
          rw [hl] at hcs hone
          obtain rfl := (List.cons.inj hcs).1
          exact absurd hc (not_or.mpr (hone c List.mem_cons_self))

/-- A character that stands on a line is the first there, or the line has none. -/
lemma head_firstContent {p : Char → Bool} (h : ∀ c, c = '\n' ∨ c = '\r' → p c) (cs : List Char) :
    (firstContent cs).head?.all p = cs.head?.all p := by
  obtain ⟨rest, hcs, hrest⟩ := exists_firstContent cs
  generalize firstContent cs = w at hcs
  subst hcs
  cases w with
  | cons c w => rfl
  | nil =>
      cases rest with
      | nil => rfl
      | cons c rest => simpa using (h c (hrest c rfl)).symm

/-- **Whether a line begins a JSON text.** -/
lemma isJson_scanFrom (b : Bool) (cs e : List Char) :
    isJson (scanFrom b 0 cs) = TextLine.opensJson ⟨firstContent cs, e⟩ := by
  have hjson : ∀ ts, isJson ts = (startsWith .braceOpen ts || startsWith .bracketOpen ts) := by
    intro ts
    cases ts with
    | nil => rfl
    | cons t ts => simp [isJson, Lookahead.startsIn, Lookahead.jsonKinds, KindSet.contains]
  rw [hjson, startsWith_loner (show ('[', Kind.bracketOpen) ∈ loners by decide)]
  cases cs with
  | nil => rfl
  | cons c cs =>
      -- of the two openers a brace may begin a longer token, a bracket may not
      by_cases hbrace : c = '\x7b'
      · subst hbrace
        have hhead := head_firstContent (p := fun c => c ≠ '\x7b' && c ≠ '%')
          (by rintro c (rfl | rfl) <;> rfl) cs
        rw [startsWith_brace, ← hhead, firstContent_cons (by decide)]
        simp [TextLine.opensJson]
      rw [not_startsWith (s := "\x7b") (by decide) (by decide) rfl hbrace]
      by_cases hbracket : c = '['
      · subst hbracket
        rw [firstContent_cons (by decide)]
        rfl
      · have hnone : TextLine.opensJson ⟨firstContent (c :: cs), e⟩ = false := by
          by_cases hc : c = '\n' ∨ c = '\r'
          · rw [firstContent_break hc]
            rfl
          · rw [firstContent_cons (not_or.mp hc), TextLine.opensJson]
            split <;> simp_all
        rw [hnone]
        simp [hbracket]

/-- Only a line that begins with an angle bracket names a file. -/
lemma namesFile_eq_false {cs : List Char} (h : cs.head? ≠ some '<') (e : List Char) :
    TextLine.namesFile ⟨firstContent cs, e⟩ = false := by
  cases cs with
  | nil => rfl
  | cons c cs =>
      by_cases hc : c = '\n' ∨ c = '\r'
      · rw [firstContent_break hc]
        rfl
      · rw [firstContent_cons (not_or.mp hc), TextLine.namesFile]
        split <;> simp_all

/-- **Whether a line names a file.** -/
lemma isExternal_scanFrom (b : Bool) (cs e : List Char) :
    isExternal (scanFrom b 0 cs) = TextLine.namesFile ⟨firstContent cs, e⟩ := by
  have hspaced : ∀ b cs, (startsWith .whitespace (scanFrom b 0 cs)
      && !Lookahead.isBlankLine (scanFrom b 0 cs)) = TextLine.isIndented ⟨firstContent cs, e⟩ := by
    intro b cs
    rw [isIndented_scanFrom, firstContent]
    cases textLines cs <;> rfl
  have hangle : ('<', Kind.angleOpen) ∈ loners := by decide
  have hsign : ('@', Kind.at) ∈ loners := by decide
  rw [isExternal, Bool.and_assoc, startsWith_loner hangle]
  by_cases hfirst : cs.head? = some '<'
  · obtain ⟨cs, rfl⟩ := List.head?_eq_some_iff.mp hfirst
    rw [scanFrom_loner hangle, firstContent_cons (by decide)]
    simp only [List.drop_succ_cons, List.drop_zero, startsWith_loner hsign]
    by_cases hsecond : cs.head? = some '@'
    · obtain ⟨cs, rfl⟩ := List.head?_eq_some_iff.mp hsecond
      rw [scanFrom_loner hsign, firstContent_cons (by decide)]
      simp only [List.head?_cons, beq_self_eq_true, if_true, List.drop_succ_cons, List.drop_zero,
        hspaced, Bool.true_and]
      rfl
    -- behind the angle the first content begins with what the text begins with
    · have hnot : (firstContent cs).head? ≠ some '@' := by
        have hhead := head_firstContent (p := (· ≠ '@')) (by rintro c (rfl | rfl) <;> rfl) cs
        intro h
        rw [h] at hhead
        cases hc : cs.head? with
        | none => simp [hc] at hhead
        | some c => exact hsecond (by simpa [hc] using hhead)
      simp only [List.head?_cons, beq_self_eq_true, Bool.true_and, beq_iff_eq, hsecond, if_false,
        hspaced, TextLine.namesFile]
      split <;> simp_all
  · rw [namesFile_eq_false hfirst]
    simp [hfirst]

/-- **Lines are told apart by their texts**, by induction on the lines. -/
lemma heads_scanFrom (b : Bool) (cs : List Char) : ∀ ts ∈ splitLines (scanFrom b 0 cs),
    isJson ts = (lineOf ts).opensJson ∧ isExternal ts = (lineOf ts).namesFile := by
  generalize hn : (scanFrom b 0 cs).length = n
  induction n using Nat.strong_induction_on generalizing b cs with
  | h n ih =>
      by_cases hne : scanFrom b 0 cs = []
      · simp [hne, splitLines]
      obtain ⟨l, ls, b', cs', hl, -, -, -, hdrop⟩ := exists_nextLine hne
      have hover := overLines_scanFrom b cs
      rw [Lookahead.splitLines_eq hne, hl] at hover
      obtain ⟨hfirst, -⟩ := List.forall₂_cons.mp hover
      have hcontent : firstContent cs = l.content := by rw [firstContent, hl]; rfl
      rw [Lookahead.splitLines_eq hne, hdrop, List.forall_mem_cons]
      refine ⟨?_, ih _ ?_ b' cs' rfl⟩
      · rw [← hfirst.eq_lineOf, Lookahead.lineLocal_isJson.take, Lookahead.lineLocal_isExternal.take,
          isJson_scanFrom b cs l.ending, isExternal_scanFrom b cs l.ending, hcontent]
        exact ⟨rfl, rfl⟩
      · rw [← hdrop, List.length_drop, ← hn]
        have hpos := List.length_pos_of_ne_nil hne
        omega

end Token

end RequestFile
