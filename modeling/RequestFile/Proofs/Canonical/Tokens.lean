import RequestFile.Proofs.Canonical.Model
import RequestFile.Proofs.Lexemes

/-!
Scanning printed texts.

* **Lines.** What stands in front of a line feed, a space or a colon is scanned apart, so a text is
  scanned line by line (`Token.scan_unlines`).
* **Inline texts.** Their tokens stand on one line, hold no reference and do not end with a blank
  (`Token.InlineTokens`).
-/

namespace RequestFile

namespace Token

/-! ### Classes of characters -/

/-- The code points of a class of ASCII characters. -/
lemma between_of_and {c : Char} {lo hi : UInt32}
    (h : (decide (c.val ≥ lo) && decide (c.val ≤ hi)) = true) :
    lo.toNat ≤ c.toNat ∧ c.toNat ≤ hi.toNat := by
  rw [Bool.and_eq_true] at h
  exact h.imp of_decide_eq_true of_decide_eq_true

lemma isWordChar_of_isDigit {c : Char} (h : c.isDigit) : isWordChar c := by
  have hn : isNumber c := by
    have hrange : 0x30 ≤ c.toNat ∧ c.toNat ≤ 0x39 := between_of_and h
    rw [isNumber, CodePoints.numbers, CodePoints.contains]
    simp [hrange]
  simp [isWordChar, hn]

lemma isWordChar_of_isAlphanum {c : Char} (h : c.isAlphanum) : isWordChar c := by
  rw [Char.isAlphanum, Bool.or_eq_true] at h
  rcases h with h | h
  · obtain ⟨rest, hletters⟩ : ∃ rest, CodePoints.letters = (0x41, 0x5A) :: (0x61, 0x7A) :: rest :=
      ⟨_, rfl⟩
    have hcase : (0x41 ≤ c.toNat ∧ c.toNat ≤ 0x5A) ∨ (0x61 ≤ c.toNat ∧ c.toNat ≤ 0x7A) := by
      have hcases : (c.isUpper || c.isLower) = true := h
      rw [Bool.or_eq_true] at hcases
      rcases hcases with hupper | hlower
      · have hrange : c.val ≥ 'A'.val ∧ c.val ≤ 'Z'.val := of_decide_eq_true hupper
        exact Or.inl hrange
      · exact Or.inr (between_of_and hlower)
    have hl : isLetter c := by
      rw [isLetter, hletters, CodePoints.contains, CodePoints.contains]
      simp only [Bool.and_eq_true, Bool.or_eq_true, decide_eq_true_eq]
      omega
    simp [isWordChar, hl]
  · exact isWordChar_of_isDigit h

/-! ### Single tokens -/

lemma forall_head_cons {P : Char → Prop} {x : Char} {ds : List Char} (h : P x) :
    ∀ d ∈ (x :: ds).head?, P d := by
  simpa using h

/-- A space in front of something that is no blank. -/
def blank : Token :=
  ⟨.whitespace, " "⟩

lemma scanFrom_space (b : Bool) (ds : List Char) (hd : ∀ d ∈ ds.head?, isBlank d = false) :
    scanFrom b 0 (' ' :: ds) = blank :: scanFrom false 0 ds :=
  scanFrom_run .whitespace (List.cons_ne_nil ' ' []) (by decide) b ds hd

/-- A character that is a token by itself. -/
lemma lead_symbol {c : Char} {k : Kind} {cs : List Char} (hk : symbols.lookup c = some k)
    (hw : isWordChar c = false) (hb : isBlank c = false) (hs : isStrayBreak c = false)
    (hh : c ≠ '#') (hd : c ≠ '-') (hp : pairKind? c cs = none) (b : Bool) :
    lead b c cs = (k, 0) := by
  simp [lead, hw, hb, hs, hh, hd, hp, hk]

/-- A colon after a name. -/
def colon : Token :=
  ⟨.colon, ":"⟩

lemma scanFrom_colon (b : Bool) (ds : List Char) :
    scanFrom b 0 (':' :: ds) = colon :: scanFrom false 0 ds := by
  have hpair : pairKind? ':' ds = none := pairKind?_eq_none fun d _ k => by simp [pairs]
  rw [scanFrom_cons, lead_symbol (k := .colon) rfl (by decide) (by decide) (by decide) (by decide)
    (by decide) hpair]
  rfl

/-- A slash in front of a word. -/
lemma scanFrom_slash {d : Char} (hd : isWordChar d) (b : Bool) (ds : List Char) :
    scanFrom b 0 ('/' :: d :: ds) = ⟨.slash, "/"⟩ :: scanFrom false 0 (d :: ds) := by
  have hne : d ≠ '/' := by
    rintro rfl
    exact absurd hd (by decide)
  have hpair : pairKind? '/' (d :: ds) = none :=
    pairKind?_eq_none fun d' hd' k => by simp_all [pairs]
  rw [scanFrom_cons, lead_symbol (k := .slash) rfl (by decide) (by decide) (by decide) (by decide)
    (by decide) hpair]
  rfl

/-- The terminator of a printed line. -/
def lineFeed : Token :=
  ⟨.newline, "\n"⟩

lemma scanFrom_lineFeed (b : Bool) (ds : List Char) :
    scanFrom b 0 ('\n' :: ds) = lineFeed :: scanFrom true 0 ds := by
  have hpair : pairKind? '\n' ds = none := pairKind?_eq_none fun d _ k => by simp [pairs]
  rw [scanFrom_cons, lead_symbol (k := .newline) rfl (by decide) (by decide) (by decide) (by decide)
    (by decide) hpair]
  rfl

/-! ### Printed lines -/

/-- The tokens of a printed line. -/
def lineTokens (l : String) : List Token :=
  scan l ++ [lineFeed]

/-- **Lines** are scanned apart, and from what follows them. -/
lemma scan_unlines_append {ls : List String} (h : ∀ l ∈ ls, OneLine l) (s : String) :
    scan (unlines ls ++ s) = ls.flatMap lineTokens ++ scan s := by
  induction ls with
  | nil => rw [List.flatMap_nil, List.nil_append, unlines, List.map_nil, String.join_nil,
      String.empty_append]
  | cons l ls ih =>
      have hl := h l List.mem_cons_self
      have hstop : ∀ c ∈ l.toList.getLast?, Stops c '\n' := fun c hc =>
        ⟨Or.inl rfl, (hl c (List.mem_of_getLast? hc)).2, by simp⟩
      have htext : (unlines (l :: ls) ++ s).toList = l.toList ++ '\n' :: (unlines ls ++ s).toList := by
        rw [String.toList_append, toList_unlines_cons, String.toList_append, List.append_assoc,
          List.cons_append]
      rw [scan, htext, scanFrom_stop hstop (Or.inl rfl), scanFrom_lineFeed, ← scan, ← scan,
        ih fun l hl => h l (List.mem_cons_of_mem _ hl), List.flatMap_cons, lineTokens,
        List.append_assoc, List.append_assoc, List.singleton_append]

lemma scan_unlines {ls : List String} (h : ∀ l ∈ ls, OneLine l) :
    scan (unlines ls) = ls.flatMap lineTokens := by
  have happend := scan_unlines_append h ""
  have hempty : scan "" = [] := rfl
  rwa [String.append_empty, hempty, List.append_nil] at happend

/-! ### Kinds and texts -/

/-- A token has a first character, which stands in the text that was scanned. -/
lemma exists_of_mem_scanFrom {b : Bool} {cs : List Char} {t : Token} (ht : t ∈ scanFrom b 0 cs) :
    ∃ c ds, t.text.toList = c :: ds ∧ c ∈ cs := by
  obtain ⟨c, ds, hc⟩ := List.exists_cons_of_ne_nil ((lexed_scanFrom b cs).toList_ne_nil ht)
  exact ⟨c, ds, hc, (infix_of_mem_scanFrom ht).subset (by rw [hc]; exact List.mem_cons_self)⟩

lemma text_of_varOpen {b : Bool} {cs : List Char} {t : Token} (ht : t ∈ scanFrom b 0 cs)
    (hk : t.kind = .varOpen) : t.text.toList = ['\x7b', '\x7b'] := by
  have htext : t.text = "\x7b\x7b" :=
    (lexeme_of_mem_scanFrom b cs t ht).text_eq hk (by decide) (by decide)
  rw [htext]
  rfl

/-- A first token begins like its text. -/
lemma head_scanFrom {b : Bool} {cs : List Char} {t : Token}
    (ht : (scanFrom b 0 cs).head? = some t) : t.text.toList <+: cs := by
  cases cs with
  | nil => simp [scanFrom] at ht
  | cons c cs =>
      rw [scanFrom_cons, List.head?_cons, Option.some.injEq] at ht
      subst ht
      rw [String.toList_ofList]
      exact List.cons_prefix_cons.mpr ⟨rfl, List.take_prefix _ _⟩

lemma lead_hyphen (b : Bool) (cs : List Char) :
    (lead b '-' cs).1 = .dash ∨ (lead b '-' cs).1 = .doubleDash := by
  have hpair : pairKind? '-' cs = none ∨ pairKind? '-' cs = some .doubleDash := by
    cases hp : pairKind? '-' cs with
    | none => exact Or.inl rfl
    | some k =>
        obtain ⟨d, _, hk⟩ := Option.bind_eq_some_iff.mp hp
        have hmem := mem_of_lookup hk
        simp [pairs] at hmem
        exact Or.inr (congrArg some hmem.2)
  have hw : isWordChar '-' = false := by decide
  have hb : isBlank '-' = false := by decide
  have hs : isStrayBreak '-' = false := by decide
  have hk : symbols.lookup '-' = some .dash := rfl
  by_cases hd : b = false ∧ runLength (· == '-') cs = 2
  · exact Or.inl (by simp [lead, hw, hb, hs, hd])
  · rcases hpair with hp | hp
    · exact Or.inl (by simp [lead, hw, hb, hs, hd, hp, hk])
    · exact Or.inr (by simp [lead, hw, hb, hs, hd, hp])

/-- Word characters and hyphens are pieces of header names. -/
lemma kind_of_name {cs : List Char} (h : ∀ c ∈ cs, isWordChar c ∨ c = '-') (b : Bool) :
    ∀ t ∈ scanFrom b 0 cs, Lookahead.headerNameKinds.contains t.kind := by
  induction b, cs using scanFrom_induction with
  | nil b => simp [scanFrom]
  | cons b c cs ih =>
      rw [scanFrom_cons, List.forall_mem_cons]
      refine ⟨?_, ih fun d hd => h d (List.mem_cons_of_mem c (List.mem_of_mem_drop hd))⟩
      dsimp only
      rcases h c List.mem_cons_self with hc | rfl
      · rw [RunKind.word.lead_eq hc]
        rfl
      · rcases lead_hyphen b cs with hk | hk <;> rw [hk] <;> rfl

/-! ### Inline texts -/

/-- The tokens of a text that stands on one line, holds no reference and does not end with a blank. -/
structure InlineTokens (ts : List Token) : Prop where
  newline : ∀ t ∈ ts, t.kind ≠ .newline
  varOpen : ∀ t ∈ ts, t.kind ≠ .varOpen
  last : ∀ t ∈ ts.getLast?, t.kind ≠ .whitespace

/-- Tokens do not end with a blank where the text does not. -/
lemma last_scanFrom {cs : List Char} (h : ∀ c ∈ cs.getLast?, isBlank c = false) (b : Bool) :
    ∀ t ∈ (scanFrom b 0 cs).getLast?, t.kind ≠ .whitespace := by
  intro t ht hk
  have hne : cs ≠ [] := by
    rintro rfl
    cases ht
  have hlast := List.getLast?_eq_some_getLast hne
  obtain ⟨us, u, hts, hu⟩ := exists_getLast_token (lexeme_of_mem_scanFrom b cs)
    (by rwa [toList_textOf_scanFrom])
  rw [hts, List.getLast?_concat] at ht
  obtain rfl := Option.some.inj ht
  have hblank := h _ hlast
  rw [RunKind.whitespace.forall_mem_text b cs u (by simp [hts]) hk _
    (List.mem_of_getLast? hu)] at hblank
  cases hblank

lemma inlineTokens_scanFrom {s : String} (h : Inline s) (b : Bool) :
    InlineTokens (scanFrom b 0 s.toList) where
  newline := newline_of_oneLine h.oneLine b
  varOpen := fun _ ht hk =>
    h.noReference (text_of_varOpen ht hk ▸ infix_of_mem_scanFrom ht)
  last := last_scanFrom h.last b

end Token

end RequestFile
