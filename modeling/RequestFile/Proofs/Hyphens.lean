import Mathlib.Data.List.DropRight
import RequestFile.Proofs.Lexemes

/-!
Runs of hyphens.

A run of hyphens is cut into pairs. Where it is odd, one hyphen stands alone: the last of three at the
start of a line, and otherwise the one in front of the last pair (`Token.hyphens`). So a run behind
text ends with a pair, as the end of a multipart body needs it, and a run at the start of a line
begins with one.

* **From the left** (`Token.hyphens_add_two`): a run of four or more is a pair, and then a run that
  does not begin its line.
* **Apart** (`Token.locate_scan_hyphens`): a run that cannot be longer is scanned so, apart from what
  stands around it.
* **In front of a blank** (`Token.getLast_of_closing`): within a line, tokens whose text ends with two
  hyphens end with a pair.
-/

namespace RequestFile

namespace Token

/-- A single hyphen. -/
def hyphen : Token :=
  ⟨.dash, "-"⟩

/-- Two hyphens. -/
def hyphenPair : Token :=
  ⟨.doubleDash, "--"⟩

/-- The tokens of a run of hyphens. `lineStart` says whether it begins a line. -/
def hyphens (lineStart : Bool) (n : Nat) : List Token :=
  if n = 1 then [hyphen]
  else if n % 2 = 0 then List.replicate (n / 2) hyphenPair
  else if n = 3 ∧ lineStart then [hyphenPair, hyphen]
  else List.replicate ((n - 3) / 2) hyphenPair ++ [hyphen, hyphenPair]

variable {b : Bool} {n : Nat} {ds : List Char}

/-- A run of four hyphens or more begins with a pair. -/
lemma hyphens_add_two (hn : 2 ≤ n) : hyphens b (n + 2) = hyphenPair :: hyphens false n := by
  have heven : (n + 2) % 2 = n % 2 := Nat.add_mod_right n 2
  by_cases h : n % 2 = 0
  · have hhalf : (n + 2) / 2 = n / 2 + 1 := Nat.add_div_right n Nat.two_pos
    rw [hyphens, if_neg (by omega), if_pos (by omega), hyphens, if_neg (by omega), if_pos h, hhalf,
      List.replicate_succ]
  · have hhalf : (n + 2 - 3) / 2 = (n - 3) / 2 + 1 := by omega
    rw [hyphens, if_neg (by omega), if_neg (by omega), if_neg (by omega), hyphens,
      if_neg (by omega), if_neg h, if_neg (by simp), hhalf, List.replicate_succ, List.cons_append]

/-- A run behind text ends with a pair. -/
lemma getLast_hyphens (hn : 2 ≤ n) : (hyphens false n).getLast? = some hyphenPair := by
  by_cases h : n % 2 = 0
  · rw [hyphens, if_neg (by omega), if_pos h, List.getLast?_replicate, if_neg (by omega)]
  · rw [hyphens, if_neg (by omega), if_neg h, if_neg (by simp), List.getLast?_append]
    rfl

/-- A run at the start of a line begins with a pair. -/
lemma head_hyphens (hn : 2 ≤ n) : (hyphens true n).head? = some hyphenPair := by
  by_cases h : n % 2 = 0
  · rw [hyphens, if_neg (by omega), if_pos h, List.head?_replicate, if_neg (by omega)]
  · by_cases hthree : n = 3
    · subst hthree
      rfl
    · rw [hyphens, if_neg (by omega), if_neg h, if_neg (by omega), List.head?_append,
        List.head?_replicate, if_neg (by omega)]
      rfl

/-! ### From the left -/

/-- The first token of a run of hyphens. -/
lemma lead_hyphens (hd : ∀ d ∈ ds.head?, d ≠ '-') (b : Bool) (m : Nat) :
    lead b '-' (List.replicate m '-' ++ ds)
      = if m = 0 ∨ b = false ∧ m = 2 then (.dash, 0) else (.doubleDash, 1) := by
  have hrun : runLength (· == '-') (List.replicate m '-' ++ ds) = m := by
    rw [runLength_eq (by simp) fun d hmem => beq_eq_false_iff_ne.mpr (hd d hmem),
      List.length_replicate]
  rw [lead, if_neg (by decide), if_neg (by decide), if_neg (by decide), if_neg (by decide), hrun]
  rcases m with _ | m
  · have hpair : pairKind? '-' ds = none := pairKind?_eq_none fun d hmem k hk => by
      obtain ⟨rfl, -⟩ : d = '-' ∧ k = .doubleDash := by simpa [pairs] using hk
      exact hd '-' hmem rfl
    have hzero : ('-' == '-' && !b && 0 == 2) = false := Bool.and_false _
    rw [List.replicate_zero, List.nil_append, hpair, hzero]
    rfl
  · have hpair : pairKind? '-' (List.replicate (m + 1) '-' ++ ds) = some .doubleDash := rfl
    have hone : ('-' == '-' && !b && m + 1 == 2) = true ↔ (m + 1 = 0 ∨ b = false ∧ m + 1 = 2) := by
      simp
    rw [hpair]
    exact if_congr hone rfl rfl

/-- The first token of a run of hyphens, and what is left to scan. -/
lemma scanFrom_hyphens_succ (hd : ∀ d ∈ ds.head?, d ≠ '-') (b : Bool) (m : Nat) :
    scanFrom b 0 (List.replicate (m + 1) '-' ++ ds)
      = if m = 0 ∨ b = false ∧ m = 2 then hyphen :: scanFrom false 0 (List.replicate m '-' ++ ds)
        else hyphenPair :: scanFrom false 0 (List.replicate (m - 1) '-' ++ ds) := by
  rw [List.replicate_succ, List.cons_append, scanFrom_cons, lead_hyphens hd]
  split_ifs with h
  · rfl
  · obtain ⟨m, rfl⟩ := Nat.exists_eq_succ_of_ne_zero fun h0 => h (.inl h0)
    rfl

/-- **From the left**: a run of hyphens is scanned apart from what follows it. -/
lemma scanFrom_hyphens (hd : ∀ d ∈ ds.head?, d ≠ '-') (b : Bool) (n : Nat) :
    scanFrom b 0 (List.replicate (n + 1) '-' ++ ds) = hyphens b (n + 1) ++ scanFrom false 0 ds := by
  induction n using Nat.strong_induction_on generalizing b with
  | _ n ih =>
    rw [scanFrom_hyphens_succ hd]
    rcases n with _ | _ | _ | n
    · rfl
    · rw [if_neg (by simp)]
      rfl
    · cases b with
      | true => exact congrArg (hyphenPair :: ·) (ih 0 (by omega) false)
      | false => exact congrArg (hyphen :: ·) (ih 1 (by omega) false)
    · rw [if_neg (by omega), hyphens_add_two (by omega), List.cons_append]
      exact congrArg (hyphenPair :: ·) (ih (n + 1) (by omega) false)

/-! ### Apart -/

/-- **Two hyphens** at the end of a text that goes on a line are a pair, whatever hyphens stand in
front of them. -/
lemma getLast_scanFrom_closing {cs : List Char} (h : ∀ c ∈ cs, c ≠ '\n' ∧ c ≠ '\r') :
    (scanFrom false 0 (cs ++ ['-', '-'])).getLast? = some hyphenPair := by
  obtain ⟨as, m, rfl, hlast⟩ : ∃ as m, cs = as ++ List.replicate m '-' ∧
      ∀ x ∈ as.getLast?, (x == '-') = false := by
    refine ⟨cs.rdropWhile (· == '-'), (cs.rtakeWhile (· == '-')).length, ?_, fun x hx => ?_⟩
    · have hall : ∀ x ∈ cs.rtakeWhile (· == '-'), x = '-' := fun x hx => by
        simpa using List.mem_rtakeWhile_imp hx
      rw [← List.eq_replicate_iff.mpr ⟨rfl, hall⟩, List.rdropWhile_append_rtakeWhile]
    · obtain ⟨hne, rfl⟩ := List.mem_getLast?_eq_getLast hx
      exact Bool.eq_false_iff.mpr (List.rdropWhile_last_not _ _ hne)
  -- the hyphens at the end and the two behind them are one run
  have hrun : MaximalRun (· == '-') (String.ofList as)
      (String.ofList (List.replicate (m + 2) '-')) "" :=
    ⟨by simp, by simp, by simpa using hlast, by simp⟩
  have hborders := borders_of_maximalRun hrun (.inr rfl) []
  rw [String.toList_ofList, String.toList_ofList, List.append_nil] at hborders
  have hline : lineBegins false (String.ofList as) = false := by
    have hnone : endsWithBreak as = false := by
      by_contra hbreak
      obtain ⟨x, hx, hbreak⟩ := exists_of_endsWithBreak (Bool.not_eq_false _ ▸ hbreak)
      obtain ⟨hn, hr⟩ := h x (List.mem_append_left _ (List.mem_of_getLast? hx))
      exact hbreak.elim hn hr
    rw [lineBegins, String.toList_ofList, hnone, ite_self]
  have htext : as ++ List.replicate m '-' ++ ['-', '-'] = as ++ List.replicate (m + 2) '-' := by
    rw [List.append_assoc, List.replicate_add]
    rfl
  have hscan : scanFrom false 0 (List.replicate (m + 2) '-' ++ [])
      = hyphens false (m + 2) ++ scanFrom false 0 [] :=
    scanFrom_hyphens (by simp) false (m + 1)
  rw [List.append_nil] at hscan
  rw [htext, scanFrom_append_of_borders hborders, hline, hscan, scanFrom,
    List.append_nil, List.getLast?_append, getLast_hyphens (by omega), Option.some_or]

/-- **A run of hyphens** that cannot be longer is cut into its tokens, apart from what stands around
it. Behind text, a run of two or more ends with a pair; at the start of a line it begins with one. -/
theorem locate_scan_hyphens {a w b : String} (h : MaximalRun (· == '-') a w b) :
    locate 0 (scan (a ++ w ++ b))
        = locate 0 (scan a) ++ locate a.utf8ByteSize (hyphens (endsLine a) w.length)
          ++ locate (a ++ w).utf8ByteSize (scan b) ∧
      (2 ≤ w.length → endsLine a = false →
        (hyphens (endsLine a) w.length).getLast? = some hyphenPair) ∧
      (2 ≤ w.length → endsLine a →
        (hyphens (endsLine a) w.length).head? = some hyphenPair) := by
  obtain ⟨n, hlength, hw⟩ := exists_replicate h
  have hafter : ∀ d ∈ b.toList.head?, d ≠ '-' := fun d hd => beq_eq_false_iff_ne.mp (h.after d hd)
  have hscan : scan (a ++ w ++ b) = scan a ++ hyphens (endsLine a) w.length ++ scan b := by
    calc scan (a ++ w ++ b)
        = scan a ++ scanFrom (endsLine a) 0 (w.toList ++ b.toList) :=
          scan_append_of_borders (borders_of_maximalRun h (.inr rfl) b.toList)
      _ = scan a ++ (hyphens (endsLine a) w.length ++ scanFrom false 0 b.toList) := by
          rw [hw, scanFrom_hyphens hafter, hlength]
      _ = scan a ++ hyphens (endsLine a) w.length ++ scan b := by
          rw [scanFrom_lineStart hafter false true, List.append_assoc, scan, scan]
  -- all tokens together are as long as the source, so the hyphens are as long as the run
  have hsize : sizeOf (hyphens (endsLine a) w.length) = w.utf8ByteSize := by
    have htotal := sizeOf_scan (a ++ w ++ b)
    rw [hscan, sizeOf_append, sizeOf_append, sizeOf_scan, sizeOf_scan, String.utf8ByteSize_append,
      String.utf8ByteSize_append] at htotal
    omega
  refine ⟨?_, fun hn ha => ?_, fun hn ha => ?_⟩
  · rw [hscan, locate_append, locate_append, Nat.zero_add, Nat.zero_add, sizeOf_append,
      sizeOf_scan, hsize, String.utf8ByteSize_append]
  · rw [ha]
    exact getLast_hyphens hn
  · rw [ha]
    exact head_hyphens hn

/-- Three hyphens behind a boundary are a single one, which is the last of its name, and a pair. -/
theorem locate_scan_hyphens_boundary :
    MaximalRun (· == '-') "--abc" "---" "\n" ∧
      locate 0 (scan ("--abc" ++ "---" ++ "\n"))
        = [(⟨0, 2⟩, hyphenPair), (⟨2, 3⟩, ⟨.word, "abc"⟩), (⟨5, 1⟩, hyphen), (⟨6, 2⟩, hyphenPair),
          (⟨8, 1⟩, ⟨.newline, "\n"⟩)] := by
  have hrun : MaximalRun (· == '-') "--abc" "---" "\n" :=
    ⟨by decide, by decide, by rintro c ⟨⟩; rfl, by rintro c ⟨⟩; rfl⟩
  exact ⟨hrun, (locate_scan_hyphens hrun).1.trans (by decide)⟩

/-! ### In front of a blank -/

variable {source : String} {t : Token} {front ts back : List Token}

/-- A token with a hyphen in it is one or two of them. -/
lemma Lexeme.hyphen_of_mem (h : Lexeme t) (hx : '-' ∈ t.text.toList) :
    t = hyphen ∨ t = hyphenPair := by
  cases h with
  | @fixed k s hs =>
      have hall : ∀ q ∈ fixedTexts, '-' ∈ q.2.toList →
          (⟨q.1, q.2⟩ : Token) = hyphen ∨ (⟨q.1, q.2⟩ : Token) = hyphenPair := by decide
      exact hall _ hs hx
  | marker _ =>
      rw [String.toList_ofList] at hx
      exact absurd (List.eq_of_mem_replicate hx) (by decide)
  | @run k p ws hk _ hall =>
      rw [String.toList_ofList] at hx
      have hnot := hk.not_mark (c := '-') (by decide)
      rw [hall _ hx] at hnot
      cases hnot
  | punct _ _ hout =>
      rw [String.toList_ofList, List.mem_singleton] at hx
      rw [← hx] at hout
      exact absurd hout (by decide)

/-- The last token of a text that ends with a hyphen. -/
lemma exists_getLast_hyphen (hall : ∀ t ∈ ts, Lexeme t) (hend : '-' ∈ (textOf ts).toList.getLast?) :
    ∃ us t, ts = us ++ [t] ∧ (t = hyphen ∨ t = hyphenPair) := by
  obtain ⟨us, t, rfl, ht⟩ := exists_getLast_token hall hend
  exact ⟨us, t, rfl, (hall t (by simp)).hyphen_of_mem (List.mem_of_getLast? ht)⟩

/-- Within a line, a single hyphen with nothing but a blank or a terminator behind it has no hyphens
in front of it: it would be scanned together with them. -/
lemma not_single_hyphen {u : Token} (h : scan source = front ++ u :: hyphen :: back)
    (hfront : ∃ t ∈ front.getLast?, t.kind ≠ .newline)
    (hback : ∀ t ∈ back.head?, t.kind = .whitespace ∨ t.kind = .newline) :
    ¬(u = hyphen ∨ u = hyphenPair) := by
  have hmid : lineBegins true (textOf front) = false := by
    obtain ⟨t, ht, hk⟩ := hfront
    have hlexed : Lexed front :=
      Lexed.of_infix (lexed_scan source) ⟨[], u :: hyphen :: back, h.symm⟩
    rw [hlexed.lineBegins_textOf, Option.mem_def.mp ht]
    simpa using hk
  have hds : ∀ d ∈ (textOf back).toList.head?, d ≠ '-' := by
    rintro d hd rfl
    cases back with
    | nil => cases hd
    | cons v back =>
        have hv : Lexeme v := lexeme_of_mem_scan source v (by simp [h])
        have hne : v.text.toList ≠ [] := fun h => hv.text_ne_empty (String.toList_eq_nil_iff.mp h)
        rw [textOf_cons, String.toList_append, List.head?_append_of_ne_nil _ hne] at hd
        have hk := hback v rfl
        rcases hv.hyphen_of_mem (List.mem_of_head? hd) with rfl | rfl <;>
          simp [hyphen, hyphenPair] at hk
  have hscan := scanFrom_behind h
  rw [hmid, textOf_cons, textOf_cons, String.toList_append, String.toList_append] at hscan
  rintro (rfl | rfl)
  · have hrun := hscan.trans (scanFrom_hyphens hds false 1)
    simp [hyphens, hyphenPair, hyphen] at hrun
  · have hrun := hscan.trans (scanFrom_hyphens hds false 2)
    simp [hyphens, hyphenPair, hyphen] at hrun

/-- **Two hyphens** at the end of a stretch of a line are a pair, if a blank or a terminator follows
and something of the line stands in front. -/
lemma getLast_of_closing (h : scan source = front ++ ts ++ back)
    (hfront : ∃ t ∈ front.getLast?, t.kind ≠ .newline) (hline : ∀ t ∈ ts, t.kind ≠ .newline)
    (hback : ∀ t ∈ back.head?, t.kind = .whitespace ∨ t.kind = .newline)
    (hend : ['-', '-'] <:+ (textOf ts).toList) : ts.getLast? = some hyphenPair := by
  have hall : ∀ t ∈ ts, Lexeme t := fun t ht => lexeme_of_mem_scan source t (by simp [h, ht])
  obtain ⟨cs, hcs⟩ := hend
  obtain ⟨us, t, rfl, ht⟩ := exists_getLast_hyphen hall (by simp [← hcs])
  rw [List.getLast?_concat]
  rcases ht with rfl | rfl
  swap
  · rfl
  have htext : (textOf us).toList = cs ++ ['-'] := by
    have hone : (textOf [hyphen]).toList = ['-'] := rfl
    rw [textOf_append, String.toList_append, hone] at hcs
    exact (List.append_cancel_right ((List.append_assoc ..).trans hcs)).symm
  obtain ⟨vs, u, rfl, hu⟩ := exists_getLast_hyphen (fun t ht => hall t (by simp [ht]))
    (show '-' ∈ (textOf us).toList.getLast? by simp [htext])
  have hscan : scan source = (front ++ vs) ++ u :: hyphen :: back := by simp [h]
  refine absurd hu (not_single_hyphen hscan ?_ hback)
  obtain ⟨t, ht, hk⟩ := hfront
  rw [List.getLast?_append, Option.mem_def.mp ht]
  cases hvs : vs.getLast? with
  | none => exact ⟨t, rfl, hk⟩
  | some v => exact ⟨v, rfl, hline v (by simp [List.mem_of_getLast? hvs])⟩

end Token

end RequestFile
