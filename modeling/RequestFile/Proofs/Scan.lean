import Mathlib.Tactic
import Mathlib.Data.List.Chain
import Mathlib.Data.List.TakeWhile
import RequestFile.Proofs.Characters

/-!
The tokens of a source.

* **One token.** `Led` lists what the first token of a text can be, and `led_lead` says that
  `Token.lead` finds it. `RunKind` are the kinds whose tokens are runs of a class of characters.
* **Tiling.** `textOf_scan`: the texts of the tokens, put together, are the source; no token is
  empty and no two blanks touch (`lexed_scan`).
* **Lines.** The tokens of a text that ends a line end with a terminator (`getLast_scan`), and those
  of a text that begins with a separator begin with a marker (`scan_of_startsSection`).
-/

namespace RequestFile

namespace Token

/-! ### The first token of a text -/

lemma runLength_le (p : Char → Bool) (cs : List Char) : runLength p cs ≤ cs.length :=
  (List.takeWhile_prefix p).length_le

lemma take_runLength (p : Char → Bool) (cs : List Char) :
    cs.take (runLength p cs) = cs.takeWhile p :=
  (List.prefix_iff_eq_take.mp (List.takeWhile_prefix p)).symm

lemma drop_runLength (p : Char → Bool) (cs : List Char) :
    cs.drop (runLength p cs) = cs.dropWhile p := by
  calc cs.drop (runLength p cs)
      = (cs.takeWhile p ++ cs.dropWhile p).drop (runLength p cs) := by
        rw [List.takeWhile_append_dropWhile]
    _ = cs.dropWhile p := List.drop_left

/-- What the first token of a text can be, and how many characters it takes besides `c`. -/
inductive Led (lineStart : Bool) (c : Char) (cs : List Char) : Kind × Nat → Prop
  | word : isWordChar c → Led lineStart c cs (.word, runLength isWordChar cs)
  | blank : isBlank c → Led lineStart c cs (.whitespace, runLength isBlank cs)
  | garbage : isStrayBreak c → Led lineStart c cs (.garbage, runLength isStrayBreak cs)
  | marker : c = '#' → 2 ≤ runLength (· == '#') cs →
      Led lineStart c cs (.separatorMarker, runLength (· == '#') cs)
  | hash : c = '#' → Led lineStart c cs (.hash, 0)
  | dash : c = '-' → Led lineStart c cs (.dash, 0)
  | redirect : c = '>' → cs.head? = some '>' →
      Led lineStart c cs (.redirectMarker, if cs[1]? == some '!' then 2 else 1)
  | pair {d : Char} {k : Kind} : cs.head? = some d → ((c, d), k) ∈ pairs →
      Led lineStart c cs (k, 1)
  | symbol {k : Kind} : (c, k) ∈ symbols → Led lineStart c cs (k, 0)
  | punct : isWordChar c = false → isBlank c = false → isStrayBreak c = false → c ≠ '#' →
      symbols.lookup c = none → Led lineStart c cs (.punct, 0)

lemma mem_of_lookup {α β : Type} [BEq α] [LawfulBEq α] {l : List (α × β)} {a : α} {b : β}
    (h : l.lookup a = some b) : (a, b) ∈ l := by
  obtain ⟨l₁, l₂, rfl, _⟩ := List.lookup_eq_some_iff.mp h
  exact List.mem_append_right _ List.mem_cons_self

/-- The classes of characters are tried in the order of `Led`. -/
lemma led_lead (lineStart : Bool) (c : Char) (cs : List Char) :
    Led lineStart c cs (lead lineStart c cs) := by
  unfold lead
  by_cases hw : isWordChar c
  · rw [if_pos hw]; exact .word hw
  rw [if_neg hw]
  by_cases hb : isBlank c
  · rw [if_pos hb]; exact .blank hb
  rw [if_neg hb]
  by_cases hg : isStrayBreak c
  · rw [if_pos hg]; exact .garbage hg
  rw [if_neg hg]
  by_cases hh : c == '#'
  · rw [if_pos hh]
    dsimp only
    by_cases hn : 2 ≤ runLength (· == '#') cs
    · rw [if_pos hn]; exact .marker (by simpa using hh) hn
    · rw [if_neg hn]; exact .hash (by simpa using hh)
  rw [if_neg hh]
  by_cases hd : c == '-' && !lineStart && runLength (· == '-') cs == 2
  · rw [if_pos hd]
    simp only [Bool.and_eq_true, beq_iff_eq] at hd
    exact .dash hd.1.1
  rw [if_neg hd]
  cases hp : pairKind? c cs with
  | none =>
      cases hs : symbols.lookup c with
      | none =>
          exact .punct (eq_false_of_ne_true hw) (eq_false_of_ne_true hb) (eq_false_of_ne_true hg)
            (fun hc => hh (beq_iff_eq.mpr hc)) hs
      | some k => exact .symbol (mem_of_lookup hs)
  | some k =>
      obtain ⟨d, hd, hk⟩ := Option.bind_eq_some_iff.mp hp
      have hmem := mem_of_lookup hk
      -- a redirect is the one pair that may take a third character
      by_cases hr : k = .redirectMarker
      · subst hr
        simp [pairs] at hmem
        exact .redirect hmem.1 (by rw [hd, hmem.2])
      · have : Led lineStart c cs (k, 1) := .pair hd hmem
        split
        · next h => exact absurd (Option.some.inj h) hr
        · next h => rwa [← Option.some.inj h]
        · next h => exact absurd h (by simp)

variable {lineStart : Bool} {c : Char} {cs : List Char}

lemma lead_le (lineStart : Bool) (c : Char) (cs : List Char) :
    (lead lineStart c cs).2 ≤ cs.length := by
  have h := led_lead lineStart c cs
  generalize lead lineStart c cs = r at h
  cases h with
  | word | blank | garbage | marker => exact runLength_le ..
  | hash | dash | symbol | punct => exact Nat.zero_le _
  | redirect _ hd =>
      obtain ⟨ds, rfl⟩ : ∃ ds, cs = '>' :: ds := List.head?_eq_some_iff.mp hd
      cases ds <;> simp
      split <;> omega
  | pair hd _ =>
      obtain ⟨ds, rfl⟩ := List.head?_eq_some_iff.mp hd
      simp

lemma lead_separatorMarker (h : (lead lineStart c cs).1 = .separatorMarker) :
    c = '#' ∧ (lead lineStart c cs).2 = runLength (· == '#') cs ∧ 2 ≤ (lead lineStart c cs).2 := by
  have hl := led_lead lineStart c cs
  generalize lead lineStart c cs = r at h hl
  cases hl with
  | marker hc hn => exact ⟨hc, rfl, hn⟩
  | pair _ hm => dsimp only at h; subst h; simp [pairs] at hm
  | symbol hm => dsimp only at h; subst h; simp [symbols] at hm
  | _ => exact absurd h (by simp)

/-- Three hashes or more are a marker. -/
lemma lead_hash (b : Bool) (cs : List Char) :
    lead b '#' cs = if 2 ≤ runLength (· == '#') cs
      then (.separatorMarker, runLength (· == '#') cs) else (.hash, 0) := by
  rw [lead, if_neg (by decide), if_neg (by decide), if_neg (by decide),
    if_pos (beq_self_eq_true '#')]

/-- A line terminator is a line feed, a carriage return, or both in this order. -/
lemma lead_newline (h : (lead lineStart c cs).1 = .newline) :
    ((c = '\n' ∨ c = '\r') ∧ (lead lineStart c cs).2 = 0) ∨
      (c = '\r' ∧ cs.head? = some '\n' ∧ (lead lineStart c cs).2 = 1) := by
  have hl := led_lead lineStart c cs
  generalize lead lineStart c cs = r at h hl
  cases hl with
  | pair hd hm =>
      dsimp only at h
      subst h
      simp [pairs] at hm
      exact Or.inr ⟨hm.1, by rw [hd, hm.2], rfl⟩
  | symbol hm => dsimp only at h; subst h; simp [symbols] at hm; exact Or.inl ⟨hm, rfl⟩
  | _ => exact absurd h (by simp)

/-! ### Runs -/

/-- The kinds whose tokens are runs of a class of characters. -/
inductive RunKind : Kind → (Char → Bool) → Prop
  | word : RunKind .word isWordChar
  | whitespace : RunKind .whitespace isBlank
  | garbage : RunKind .garbage isStrayBreak

/-- The characters that are tokens by themselves or part of tokens of a fixed text. -/
def marks : List Char :=
  '#' :: '!' :: symbols.map Prod.fst

namespace RunKind

variable {k k' : Kind} {p p' : Char → Bool}

/-- A character of a class begins a run of it. -/
lemma lead_eq (h : RunKind k p) (hc : p c) (b : Bool) (cs : List Char) :
    lead b c cs = (k, runLength p cs) := by
  cases h with
  | word => rw [lead, if_pos hc]
  | whitespace =>
      have hw := Bool.eq_false_iff.mp (not_isWordChar_of_isBlank hc)
      rw [lead, if_neg hw, if_pos hc]
  | garbage =>
      have hw := Bool.eq_false_iff.mp (not_isWordChar_of_isStrayBreak hc)
      have hb := Bool.eq_false_iff.mp (not_isBlank_of_isStrayBreak hc)
      rw [lead, if_neg hw, if_neg hb, if_pos hc]

/-- A token of the kind is a run that cannot be longer. -/
lemma of_lead (h : RunKind k p) (hk : (lead lineStart c cs).1 = k) :
    p c ∧ (lead lineStart c cs).2 = runLength p cs := by
  have hl := led_lead lineStart c cs
  generalize lead lineStart c cs = r at hk hl
  have hpairs : ∀ q ∈ pairs, q.2 ≠ .word ∧ q.2 ≠ .whitespace ∧ q.2 ≠ .garbage := by decide
  have hsymbols : ∀ q ∈ symbols, q.2 ≠ .word ∧ q.2 ≠ .whitespace ∧ q.2 ≠ .garbage := by decide
  cases hl with
  | word hc => cases h <;> first | exact ⟨hc, rfl⟩ | cases hk
  | blank hc => cases h <;> first | exact ⟨hc, rfl⟩ | cases hk
  | garbage hc => cases h <;> first | exact ⟨hc, rfl⟩ | cases hk
  | pair _ hm =>
      obtain ⟨hw, hb, hg⟩ := hpairs _ hm
      cases h <;> contradiction
  | symbol hm =>
      obtain ⟨hw, hb, hg⟩ := hsymbols _ hm
      cases h <;> contradiction
  | _ => cases h <;> cases hk

lemma class_eq (h : RunKind k p) (h' : RunKind k p') : p = p' := by
  cases h <;> cases h' <;> rfl

/-- No character is in two of the classes. -/
lemma kind_eq (h : RunKind k p) (h' : RunKind k' p') (hc : p c) (hc' : p' c) : k = k' := by
  have hlead : (k, runLength p []) = (k', runLength p' []) :=
    (h.lead_eq hc true []).symm.trans (h'.lead_eq hc' true [])
  exact congrArg Prod.fst hlead

lemma not_mark (h : RunKind k p) (hc : c ∈ marks) : p c = false := by
  have hall : ∀ m ∈ marks, isWordChar m = false ∧ isBlank m = false ∧ isStrayBreak m = false := by
    decide
  obtain ⟨hw, hb, hs⟩ := hall c hc
  cases h <;> assumption

end RunKind

/-! ### Tiling -/

@[simp]
lemma textOf_nil : textOf [] = "" := rfl

@[simp]
lemma textOf_cons (t : Token) (ts : List Token) : textOf (t :: ts) = t.text ++ textOf ts :=
  String.join_cons

@[simp]
lemma textOf_append (ts us : List Token) : textOf (ts ++ us) = textOf ts ++ textOf us := by
  rw [textOf, List.map_append, String.join_append, textOf, textOf]

@[simp]
lemma sizeOf_nil : sizeOf [] = 0 := rfl

@[simp]
lemma sizeOf_cons (t : Token) (ts : List Token) : sizeOf (t :: ts) = t.size + sizeOf ts := rfl

@[simp]
lemma sizeOf_append (ts us : List Token) : sizeOf (ts ++ us) = sizeOf ts + sizeOf us :=
  total_append ..

lemma sizeOf_eq (ts : List Token) : sizeOf ts = (textOf ts).utf8ByteSize := by
  induction ts with
  | nil => rfl
  | cons t ts ih => rw [sizeOf_cons, textOf_cons, String.utf8ByteSize_append, ih, size]

lemma scanFrom_skip (lineStart : Bool) (n : Nat) (cs : List Char) :
    scanFrom lineStart n cs = scanFrom lineStart 0 (cs.drop n) := by
  induction cs generalizing n with
  | nil => simp [scanFrom]
  | cons c cs ih =>
      cases n with
      | zero => rfl
      | succ n => rw [scanFrom, ih n, List.drop_succ_cons]

lemma scanFrom_cons (lineStart : Bool) (c : Char) (cs : List Char) :
    scanFrom lineStart 0 (c :: cs)
      = ⟨(lead lineStart c cs).1, String.ofList (c :: cs.take (lead lineStart c cs).2)⟩
        :: scanFrom ((lead lineStart c cs).1 == .newline) 0 (cs.drop (lead lineStart c cs).2) := by
  rw [scanFrom, ← scanFrom_skip]

/-- Induction over a scan: a text is empty, or it is a first token and the rest. -/
@[elab_as_elim]
lemma scanFrom_induction {P : Bool → List Char → Prop} (nil : ∀ b, P b [])
    (cons : ∀ b c cs, P ((lead b c cs).1 == .newline) (cs.drop (lead b c cs).2) → P b (c :: cs))
    (lineStart : Bool) (cs : List Char) : P lineStart cs := by
  induction h : cs.length using Nat.strong_induction_on generalizing lineStart cs with
  | _ n ih =>
      cases cs with
      | nil => exact nil _
      | cons c cs =>
          refine cons _ _ _ (ih _ ?_ _ _ rfl)
          rw [List.length_drop, ← h, List.length_cons]
          omega

lemma scanFrom_eq_nil {b : Bool} {cs : List Char} : scanFrom b 0 cs = [] ↔ cs = [] := by
  cases cs with
  | nil => simp [scanFrom]
  | cons c cs => simp [scanFrom_cons]

/-- The texts of the tokens, put together, are the text that was scanned. -/
lemma textOf_scanFrom (lineStart : Bool) (cs : List Char) :
    textOf (scanFrom lineStart 0 cs) = String.ofList cs := by
  induction lineStart, cs using scanFrom_induction with
  | nil b => rfl
  | cons b c cs ih =>
      rw [scanFrom_cons, textOf_cons, ih, ← String.ofList_append, List.cons_append,
        List.take_append_drop]

lemma toList_textOf_scanFrom (lineStart : Bool) (cs : List Char) :
    (textOf (scanFrom lineStart 0 cs)).toList = cs := by
  rw [textOf_scanFrom, String.toList_ofList]

lemma textOf_scanFrom_toList (lineStart : Bool) (s : String) :
    textOf (scanFrom lineStart 0 s.toList) = s :=
  (textOf_scanFrom lineStart s.toList).trans String.ofList_toList

/-- Where the tokens are cut, so is the text. -/
lemma eq_of_scanFrom_append {lineStart : Bool} {cs : List Char} {ts us : List Token}
    (h : scanFrom lineStart 0 cs = ts ++ us) : cs = (textOf ts).toList ++ (textOf us).toList := by
  rw [← String.toList_append, ← textOf_append, ← h, toList_textOf_scanFrom]

/-- **Tiling**: the texts of the tokens, put together, are the source. -/
lemma textOf_scan (source : String) : textOf (scan source) = source :=
  textOf_scanFrom_toList true source

lemma sizeOf_scan (source : String) : sizeOf (scan source) = source.utf8ByteSize := by
  rw [sizeOf_eq, textOf_scan]

end Token

/-! ### Line ends and separators in a text -/

/-- Whether a list of characters ends with a line terminator. -/
def endsWithBreak (cs : List Char) : Bool :=
  cs.getLast?.any fun c => c == '\n' || c == '\r'

/-- Whether what follows a text begins a line: the text is empty or ends with a terminator. -/
def endsLine (s : String) : Bool :=
  s.isEmpty || endsWithBreak s.toList

/-- Whether a line begins after a text, if `b` says whether one begins in front of it. -/
def lineBegins (b : Bool) (s : String) : Bool :=
  if s.isEmpty then b else endsWithBreak s.toList

@[simp]
lemma lineBegins_empty (b : Bool) : lineBegins b "" = b := rfl

lemma lineBegins_of_ne {b : Bool} {s : String} (h : s ≠ "") :
    lineBegins b s = endsWithBreak s.toList := by
  rw [lineBegins, if_neg (by simpa using h)]

lemma lineBegins_append (b : Bool) (s t : String) :
    lineBegins b (s ++ t) = lineBegins (lineBegins b s) t := by
  by_cases ht : t = ""
  · rw [ht, String.append_empty, lineBegins_empty]
  have hlist : t.toList ≠ [] := by simpa using ht
  have hne : s ++ t ≠ "" := by simp [ht]
  rw [lineBegins_of_ne hne, lineBegins_of_ne ht, endsWithBreak, String.toList_append,
    List.getLast?_append_of_ne_nil _ hlist, endsWithBreak]

lemma lineBegins_of_endsWithBreak {cs : List Char} (h : endsWithBreak cs) (b : Bool) :
    lineBegins b (String.ofList cs) = true := by
  have hne : String.ofList cs ≠ "" := by
    rw [Ne, String.ofList_eq_empty_iff]
    rintro rfl
    cases h
  rw [lineBegins_of_ne hne, String.toList_ofList, h]

lemma endsLine_eq (s : String) : endsLine s = lineBegins true s := by
  rw [endsLine, lineBegins]
  by_cases hs : s.isEmpty <;> simp [hs]

/-- Whether a text begins with a separator. -/
def startsSection (s : String) : Bool :=
  ['#', '#', '#'].isPrefixOf s.toList

namespace Token

/-- What holds of the tokens of every source, and of every stretch of them. -/
structure Lexed (ts : List Token) : Prop where
  nonempty : ∀ t ∈ ts, 0 < t.size
  blanksApart : ts.IsChain fun t u => ¬(t.kind = .whitespace ∧ u.kind = .whitespace)
  breaks : ∀ t ∈ ts, endsWithBreak t.text.toList ↔ t.kind = .newline
  markers : ∀ t ∈ ts, t.kind = .separatorMarker → startsSection t.text

lemma Lexed.of_infix {ts us : List Token} (h : Lexed us) (hi : ts <:+: us) : Lexed ts :=
  ⟨fun t ht => h.nonempty t (hi.subset ht), h.blanksApart.infix hi,
    fun t ht => h.breaks t (hi.subset ht), fun t ht => h.markers t (hi.subset ht)⟩

lemma Lexed.drop {ts : List Token} (h : Lexed ts) (n : Nat) : Lexed (ts.drop n) :=
  h.of_infix (List.drop_suffix n ts).isInfix

lemma Lexed.take {ts : List Token} (h : Lexed ts) (n : Nat) : Lexed (ts.take n) :=
  h.of_infix (List.take_prefix n ts).isInfix

lemma Lexed.toList_ne_nil {ts : List Token} (h : Lexed ts) {t : Token} (ht : t ∈ ts) :
    t.text.toList ≠ [] := by
  intro h0
  have hpos := h.nonempty t ht
  rw [size, String.toList_eq_nil_iff.mp h0] at hpos
  exact Nat.lt_irrefl 0 hpos

lemma Lexed.right {ts us : List Token} (h : Lexed (ts ++ us)) : Lexed us :=
  h.of_infix (List.suffix_append ts us).isInfix

lemma Lexed.left {ts us : List Token} (h : Lexed (ts ++ us)) : Lexed ts :=
  h.of_infix (List.prefix_append ts us).isInfix

/-- A terminator belongs to no run. -/
lemma break_facts {x : Char} (hx : x = '\n' ∨ x = '\r') :
    isWordChar x = false ∧ isBlank x = false ∧ isStrayBreak x = false ∧ (x == '#') = false ∧
      (x == '-') = false := by
  rcases hx with rfl | rfl <;> decide

lemma exists_of_endsWithBreak {cs : List Char} (h : endsWithBreak cs) :
    ∃ x, cs.getLast? = some x ∧ (x = '\n' ∨ x = '\r') := by
  cases hx : cs.getLast? with
  | none => simp [endsWithBreak, hx] at h
  | some x => exact ⟨x, rfl, by simpa [endsWithBreak, hx] using h⟩

/-- A terminator begins a token that is one. -/
lemma lead_of_break {c : Char} (hc : c = '\n' ∨ c = '\r') (lineStart : Bool) (cs : List Char) :
    (lead lineStart c cs).1 = .newline := by
  obtain ⟨hw, hb, hs, hh, hd⟩ := break_facts hc
  have hsymbol : symbols.lookup c = some .newline := by rcases hc with rfl | rfl <;> rfl
  have hpair : pairKind? c cs = none ∨ pairKind? c cs = some .newline := by
    cases hp : pairKind? c cs with
    | none => exact Or.inl rfl
    | some k =>
        obtain ⟨d, _, hk⟩ := Option.bind_eq_some_iff.mp hp
        have hmem := mem_of_lookup hk
        rcases hc with rfl | rfl <;> simp [pairs] at hmem
        exact Or.inr (congrArg some hmem.2)
  rcases hpair with hp | hp <;> simp [lead, hw, hb, hs, hh, hd, hp, hsymbol]

/-- No other token holds a terminator. -/
lemma lead_of_mem_break {lineStart : Bool} {c x : Char} {cs : List Char}
    (hbreak : x = '\n' ∨ x = '\r') (hx : x ∈ c :: cs.take (lead lineStart c cs).2) :
    (lead lineStart c cs).1 = .newline := by
  by_cases hc : c = '\n' ∨ c = '\r'
  · exact lead_of_break hc lineStart cs
  obtain ⟨hw, hb, hs, hh, _⟩ := break_facts hbreak
  -- the terminator is not the first character, and stands in no run
  have hmem : x ∈ cs.take (lead lineStart c cs).2 := by
    rcases List.mem_cons.mp hx with rfl | hmem
    · exact absurd hbreak hc
    · exact hmem
  have hrun : ∀ p : Char → Bool, p x = false → x ∉ cs.take (runLength p cs) := fun p hp hmem => by
    rw [take_runLength] at hmem
    rw [List.mem_takeWhile_imp hmem] at hp
    cases hp
  have hl := led_lead lineStart c cs
  generalize lead lineStart c cs = r at hl hmem ⊢
  cases hl with
  | word => exact absurd hmem (hrun _ hw)
  | blank => exact absurd hmem (hrun _ hb)
  | garbage => exact absurd hmem (hrun _ hs)
  | marker => exact absurd hmem (hrun _ hh)
  | hash | dash | symbol | punct => exact absurd hmem (by simp)
  | redirect _ hd =>
      obtain ⟨ds, rfl⟩ := List.head?_eq_some_iff.mp hd
      cases ds with
      | nil => rcases hbreak with rfl | rfl <;> simp at hmem
      | cons d ds =>
          by_cases hbang : d = '!' <;> rcases hbreak with rfl | rfl <;> simp [hbang] at hmem
  | pair hd hpair =>
      obtain ⟨ds, rfl⟩ := List.head?_eq_some_iff.mp hd
      obtain rfl : x = _ := by simpa using hmem
      rcases hbreak with rfl | rfl <;> simp [pairs] at hpair
      exact hpair.2

lemma lead_of_endsWithBreak {lineStart : Bool} {c : Char} {cs : List Char}
    (h : endsWithBreak (c :: cs.take (lead lineStart c cs).2)) :
    (lead lineStart c cs).1 = .newline := by
  obtain ⟨x, hx, hbreak⟩ := exists_of_endsWithBreak h
  exact lead_of_mem_break hbreak (List.mem_of_getLast? hx)

lemma startsSection_of_run {cs : List Char} (h : 2 ≤ runLength (· == '#') cs) :
    startsSection (String.ofList ('#' :: cs.takeWhile (· == '#'))) := by
  rw [startsSection, String.toList_ofList]
  match cs with
  | [] => simp [runLength] at h
  | [a] => by_cases ha : a = '#' <;> simp [runLength, ha] at h
  | a :: b :: ds =>
      by_cases ha : a = '#' <;> by_cases hb : b = '#' <;> simp [runLength, ha, hb] at h ⊢

/-- A scan begins with a blank only where the text does. -/
lemma isBlank_of_head_scanFrom {lineStart : Bool} {cs : List Char} {t : Token}
    (ht : (scanFrom lineStart 0 cs).head? = some t) (hk : t.kind = .whitespace) :
    ∃ d ds, cs = d :: ds ∧ isBlank d := by
  cases cs with
  | nil => simp [scanFrom] at ht
  | cons d ds =>
      rw [scanFrom_cons, List.head?_cons, Option.some.injEq] at ht
      subst ht
      exact ⟨d, ds, rfl, (RunKind.whitespace.of_lead hk).1⟩

lemma lexed_scanFrom (lineStart : Bool) (cs : List Char) : Lexed (scanFrom lineStart 0 cs) := by
  induction lineStart, cs using scanFrom_induction with
  | nil b => exact ⟨by simp [scanFrom], by simp [scanFrom], by simp [scanFrom], by simp [scanFrom]⟩
  | cons b c cs ih =>
      rw [scanFrom_cons]
      refine ⟨?_, ?_, ?_, ?_⟩
      · rw [List.forall_mem_cons]
        refine ⟨Nat.pos_of_ne_zero fun h => ?_, ih.nonempty⟩
        rw [size, String.utf8ByteSize_eq_zero_iff, String.ofList_eq_empty_iff] at h
        simp at h
      · rw [List.isChain_cons]
        refine ⟨fun u hu ⟨hk, hk'⟩ => ?_, ih.blanksApart⟩
        -- a blank takes the whole run, so the next character is not one
        obtain ⟨d, ds, hd, hb⟩ := isBlank_of_head_scanFrom hu hk'
        have hstop := List.head?_dropWhile_not isBlank cs
        rw [(RunKind.whitespace.of_lead hk).2, drop_runLength] at hd
        rw [hd, List.head?_cons] at hstop
        simp [hb] at hstop
      · rw [List.forall_mem_cons]
        refine ⟨⟨fun h => lead_of_endsWithBreak (by rwa [String.toList_ofList] at h),
          fun hk => ?_⟩, ih.breaks⟩
        rcases lead_newline hk with ⟨hc, hn⟩ | ⟨_, hd, hn⟩
        · rw [hn]
          rcases hc with rfl | rfl <;> simp [endsWithBreak]
        · obtain ⟨ds, rfl⟩ := List.head?_eq_some_iff.mp hd
          rw [hn]
          simp [endsWithBreak]
      · rw [List.forall_mem_cons]
        refine ⟨fun hk => ?_, ih.markers⟩
        obtain ⟨rfl, hrun, hn⟩ := lead_separatorMarker hk
        rw [hrun] at hn ⊢
        rw [take_runLength]
        exact startsSection_of_run hn

lemma lexed_scan (source : String) : Lexed (scan source) :=
  lexed_scanFrom true source.toList

/-- After some tokens a line begins if the last of them is a terminator. -/
lemma Lexed.lineBegins_textOf {ts : List Token} (h : Lexed ts) (b : Bool) :
    lineBegins b (textOf ts) = (ts.getLast?.map fun t => decide (t.kind = .newline)).getD b := by
  cases hlast : ts.getLast? with
  | none =>
      obtain rfl := List.getLast?_eq_none_iff.mp hlast
      rfl
  | some t =>
      have hmem := List.mem_of_getLast? hlast
      have hne : t.text ≠ "" := fun h0 =>
        h.toList_ne_nil hmem (String.toList_eq_nil_iff.mpr h0)
      rw [← List.dropLast_append_getLast? t hlast, textOf_append, textOf_cons, textOf_nil,
        String.append_empty, lineBegins_append, lineBegins_of_ne hne, Option.map_some,
        Option.getD_some, Bool.eq_iff_iff, h.breaks t hmem, decide_eq_true_iff]

/-! ### Kinds and texts -/

/-- What holds of the first token of every text holds of all tokens. -/
lemma forall_mem_scanFrom {P : Token → Prop}
    (h : ∀ b c cs, P ⟨(lead b c cs).1, String.ofList (c :: cs.take (lead b c cs).2)⟩)
    (b : Bool) (cs : List Char) : ∀ t ∈ scanFrom b 0 cs, P t := by
  induction b, cs using scanFrom_induction with
  | nil b => simp [scanFrom]
  | cons b c cs ih =>
      rw [scanFrom_cons, List.forall_mem_cons]
      exact ⟨h b c cs, ih⟩

/-- The text of a token stands in the text that was scanned. -/
lemma infix_of_mem_scanFrom {b : Bool} {cs : List Char} {t : Token} (ht : t ∈ scanFrom b 0 cs) :
    t.text.toList <:+: cs := by
  obtain ⟨ts, us, hts⟩ := List.append_of_mem ht
  have htext := eq_of_scanFrom_append hts
  rw [textOf_cons, String.toList_append, ← List.append_assoc] at htext
  exact ⟨_, _, htext.symm⟩

/-- A text without line ends holds no terminator. -/
lemma newline_of_oneLine {cs : List Char} (h : ∀ c ∈ cs, c ≠ '\n' ∧ c ≠ '\r') (b : Bool) :
    ∀ t ∈ scanFrom b 0 cs, t.kind ≠ .newline := by
  intro t ht hk
  obtain ⟨x, hx, hbreak⟩ := exists_of_endsWithBreak (((lexed_scanFrom b cs).breaks t ht).mpr hk)
  have hmem := h x ((infix_of_mem_scanFrom ht).subset (List.mem_of_getLast? hx))
  exact hbreak.elim hmem.1 hmem.2

lemma kind_of_mem_break (b : Bool) (cs : List Char) :
    ∀ t ∈ scanFrom b 0 cs, ∀ x, x = '\n' ∨ x = '\r' → x ∈ t.text.toList → t.kind = .newline := by
  refine forall_mem_scanFrom (fun b c cs x hbreak hx => ?_) b cs
  rw [String.toList_ofList] at hx
  exact lead_of_mem_break hbreak hx

/-- A token that is a run holds characters of its class only. -/
lemma RunKind.forall_mem_text {k : Kind} {p : Char → Bool} (h : RunKind k p) (b : Bool)
    (cs : List Char) : ∀ t ∈ scanFrom b 0 cs, t.kind = k → ∀ c ∈ t.text.toList, p c := by
  refine forall_mem_scanFrom (fun b c cs hk => ?_) b cs
  obtain ⟨hc, hn⟩ := h.of_lead hk
  rw [hn, take_runLength, String.toList_ofList, List.forall_mem_cons]
  exact ⟨hc, fun d hd => List.mem_takeWhile_imp hd⟩

/-- Without carriage returns a terminator is a line feed. -/
lemma text_of_newline (b : Bool) (cs : List Char) :
    ∀ t ∈ scanFrom b 0 cs, t.kind = .newline → '\r' ∉ t.text.toList → t.text = "\n" := by
  refine forall_mem_scanFrom (fun b c cs hk hr => ?_) b cs
  rw [String.toList_ofList] at hr
  dsimp only at hk ⊢
  rcases lead_newline hk with ⟨rfl | rfl, hn⟩ | ⟨rfl, _, _⟩
  · rw [hn]
    rfl
  · exact absurd List.mem_cons_self hr
  · exact absurd List.mem_cons_self hr

/-! ### Ends and beginnings -/

/-- A line begins behind a first token if that is a terminator. -/
lemma lineBegins_lead (b b' : Bool) (c : Char) (cs : List Char) :
    lineBegins b (String.ofList (c :: cs.take (lead b' c cs).2))
      = ((lead b' c cs).1 == .newline) := by
  have hlex := lexed_scanFrom b' (c :: cs)
  rw [scanFrom_cons] at hlex
  have hbreak := hlex.breaks _ List.mem_cons_self
  rw [lineBegins_of_ne (by simp), Bool.eq_iff_iff, hbreak, beq_iff_eq]

/-- What stands behind some tokens is scanned from its own text. -/
lemma scanFrom_behind {b : Bool} {cs : List Char} :
    ∀ {front back : List Token}, scanFrom b 0 cs = front ++ back →
      back = scanFrom (lineBegins b (textOf front)) 0 (textOf back).toList := by
  induction b, cs using scanFrom_induction with
  | nil b =>
      intro front back h
      obtain ⟨-, rfl⟩ := List.append_eq_nil_iff.mp h.symm
      rfl
  | cons b c cs ih =>
      intro front back h
      cases front with
      | nil =>
          rw [List.nil_append] at h
          rw [← h, toList_textOf_scanFrom]
          rfl
      | cons t front =>
          rw [scanFrom_cons, List.cons_append] at h
          obtain ⟨rfl, htail⟩ := List.cons.inj h
          rw [textOf_cons, lineBegins_append, lineBegins_lead]
          exact ih htail

/-- The last token of a text that ends with a terminator is that terminator. -/
lemma getLast_scanFrom {cs : List Char} (lineStart : Bool) (hb : endsWithBreak cs) :
    ∃ t, (scanFrom lineStart 0 cs).getLast? = some t ∧ t.kind = .newline := by
  have hbegins := (lexed_scanFrom lineStart cs).lineBegins_textOf false
  rw [textOf_scanFrom, lineBegins_of_endsWithBreak hb] at hbegins
  cases hlast : (scanFrom lineStart 0 cs).getLast? with
  | none =>
      rw [hlast] at hbegins
      cases hbegins
  | some t =>
      rw [hlast] at hbegins
      exact ⟨t, rfl, of_decide_eq_true hbegins.symm⟩

/-- The tokens of a text that ends a line end a line. -/
lemma getLast_scan {a : String} (ha : endsLine a) :
    scan a = [] ∨ ∃ t, (scan a).getLast? = some t ∧ t.kind = .newline := by
  rw [endsLine, Bool.or_eq_true, String.isEmpty_iff] at ha
  rcases ha with rfl | ha
  · exact Or.inl rfl
  · exact Or.inr (getLast_scanFrom true ha)

/-- A text that begins with a separator begins with a marker. -/
lemma scan_of_startsSection {b : String} (hb : startsSection b) :
    ∃ t ts, scan b = t :: ts ∧ t.kind = .separatorMarker := by
  obtain ⟨ds, hds⟩ : ∃ ds, b.toList = '#' :: '#' :: '#' :: ds := by
    rw [startsSection, List.isPrefixOf_iff_prefix] at hb
    obtain ⟨ds, hds⟩ := hb
    exact ⟨ds, hds.symm⟩
  have hrun : 2 ≤ runLength (· == '#') ('#' :: '#' :: ds) := by simp [runLength]
  have hlead : (lead true '#' ('#' :: '#' :: ds)).1 = .separatorMarker := by
    have hw : isWordChar '#' = false := by decide
    have hbl : isBlank '#' = false := by decide
    have hst : isStrayBreak '#' = false := by decide
    simp [lead, hw, hbl, hst, hrun]
  rw [scan, hds, scanFrom_cons]
  exact ⟨_, _, rfl, hlead⟩

end Token

end RequestFile
