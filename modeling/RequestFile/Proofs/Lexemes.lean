import RequestFile.Proofs.Located

/-!
The form of scanned sources.

* **Lexemes.** `Token.Lexeme` lists the tokens that there are, kind by kind.
* **Runs.** A run of a class of characters that cannot be longer (`MaximalRun`) is scanned apart from
  what stands around it (`Token.scan_of_maximalRun`), and a token that is a run cannot be longer
  (`Token.maximalRun_of_scan`).
* **Normal form.** `Token.normalForm_scan`: tokens tile the source, each is a lexeme, and runs and
  terminators are not cut up.
-/

namespace RequestFile

/-- Between `a` and `b`, a run of a class of characters that cannot be longer. -/
structure MaximalRun (p : Char → Bool) (a w b : String) : Prop where
  nonempty : w ≠ ""
  all : ∀ c ∈ w.toList, p c
  before : ∀ c ∈ a.toList.getLast?, p c = false
  after : ∀ c ∈ b.toList.head?, p c = false

namespace Token

/-! ### Lexemes -/

/-- The texts of tokens that are no runs. -/
def fixedTexts : List (Kind × String) :=
  [(.parenOpen, "("), (.parenClose, ")"), (.bracketOpen, "["), (.bracketClose, "]"),
   (.braceOpen, "\x7b"), (.braceClose, "\x7d"), (.varOpen, "\x7b\x7b"), (.varClose, "\x7d\x7d"),
   (.scriptOpen, "\x7b%"), (.scriptClose, "%\x7d"), (.hash, "#"), (.doubleSlash, "//"),
   (.slash, "/"), (.backslash, "\\"), (.at, "@"), (.equals, "="), (.colon, ":"), (.question, "?"),
   (.ampersand, "&"), (.comma, ","), (.percent, "%"), (.angleOpen, "<"), (.angleClose, ">"),
   (.redirectMarker, ">>"), (.redirectMarker, ">>!"), (.doubleDash, "--"), (.dash, "-"),
   (.newline, "\n"), (.newline, "\r\n"), (.newline, "\r")]

/-- The visible characters that are no punctuation, words apart. -/
def reserved : List Char :=
  ['#', '/', '\\', '@', '=', ':', '?', '&', ',', '%', '<', '>', '(', ')', '[', ']', '\x7b', '\x7d',
   '-']

/-- The tokens that there are. -/
inductive Lexeme : Token → Prop
  | fixed {k : Kind} {s : String} : (k, s) ∈ fixedTexts → Lexeme ⟨k, s⟩
  | marker {n : Nat} : 3 ≤ n → Lexeme ⟨.separatorMarker, String.ofList (List.replicate n '#')⟩
  | run {k : Kind} {p : Char → Bool} {ws : List Char} : RunKind k p → ws ≠ [] → (∀ c ∈ ws, p c) →
      Lexeme ⟨k, String.ofList ws⟩
  | punct {c : Char} : isWhiteSpace c = false → isWordChar c = false → c ∉ reserved →
      Lexeme ⟨.punct, String.ofList [c]⟩

variable {b : Bool} {c x : Char} {cs : List Char} {k : Kind} {p : Char → Bool} {t : Token}
  {source : String}

/-- A first token that is a run. -/
lemma lexeme_run (hk : RunKind k p) (hc : p c) (cs : List Char) :
    Lexeme ⟨k, String.ofList (c :: cs.take (runLength p cs))⟩ := by
  refine .run hk (List.cons_ne_nil _ _) ?_
  rw [List.forall_mem_cons, take_runLength]
  exact ⟨hc, fun d hd => List.mem_takeWhile_imp hd⟩

/-- A first token that is a separator marker. -/
lemma lexeme_marker (hn : 2 ≤ runLength (· == '#') cs) :
    Lexeme ⟨.separatorMarker, String.ofList ('#' :: cs.take (runLength (· == '#') cs))⟩ := by
  have hrun : '#' :: cs.take (runLength (· == '#') cs)
      = List.replicate (runLength (· == '#') cs + 1) '#' := by
    rw [take_runLength, List.replicate_succ]
    exact congrArg _ (List.eq_replicate_iff.mpr
      ⟨rfl, fun d hd => by simpa using List.mem_takeWhile_imp hd⟩)
  rw [hrun]
  exact .marker (Nat.succ_le_succ hn)

/-- A first token of one character that is no symbol. What is reserved is one, as are the terminators,
so the character is neither. -/
lemma lexeme_punct (hw : isWordChar c = false) (hb : isBlank c = false) (hs : isStrayBreak c = false)
    (hh : c ≠ '#') (hlookup : symbols.lookup c = none) : Lexeme ⟨.punct, String.ofList [c]⟩ := by
  have hsymbol : ∀ d ∈ '\n' :: '\r' :: reserved, d = '#' ∨ symbols.lookup d ≠ none := by decide
  have hout : ∀ d ∈ '\n' :: '\r' :: reserved, c ≠ d := by
    rintro d hd rfl
    exact (hsymbol c hd).elim hh fun h => h hlookup
  refine .punct (Bool.eq_false_iff.mpr fun hwhite => ?_) hw fun hc =>
    hout c (List.mem_cons_of_mem _ (List.mem_cons_of_mem _ hc)) rfl
  rcases isWhiteSpace_iff.mp hwhite with hblank | hstray | hfeed | hreturn
  · exact absurd hblank (Bool.eq_false_iff.mp hb)
  · exact absurd hstray (Bool.eq_false_iff.mp hs)
  · exact hout '\n' (by simp) hfeed
  · exact hout '\r' (by simp) hreturn

lemma lexeme_lead (b : Bool) (c : Char) (cs : List Char) :
    Lexeme ⟨(lead b c cs).1, String.ofList (c :: cs.take (lead b c cs).2)⟩ := by
  have hl := led_lead b c cs
  generalize lead b c cs = r at hl
  cases hl with
  | word hc => exact lexeme_run .word hc cs
  | blank hc => exact lexeme_run .whitespace hc cs
  | garbage hc => exact lexeme_run .garbage hc cs
  | marker hc hn =>
      subst hc
      exact lexeme_marker hn
  | hash hc =>
      subst hc
      exact .fixed (show (Kind.hash, "#") ∈ fixedTexts by decide)
  | dash hc =>
      subst hc
      exact .fixed (show (Kind.dash, "-") ∈ fixedTexts by decide)
  -- the one token of fixed text that depends on what follows
  | redirect hc hd =>
      obtain ⟨ds, rfl⟩ := List.head?_eq_some_iff.mp hd
      subst hc
      by_cases hbang : ('>' :: ds)[1]? == some '!'
      · rw [List.getElem?_cons_succ, beq_iff_eq, ← List.head?_eq_getElem?] at hbang
        obtain ⟨es, rfl⟩ := List.head?_eq_some_iff.mp hbang
        exact .fixed (show (Kind.redirectMarker, ">>!") ∈ fixedTexts by decide)
      · rw [if_neg hbang]
        exact .fixed (show (Kind.redirectMarker, ">>") ∈ fixedTexts by decide)
  | pair hd hm =>
      have hall : ∀ q ∈ pairs, (q.2, String.ofList [q.1.1, q.1.2]) ∈ fixedTexts := by decide
      obtain ⟨ds, rfl⟩ := List.head?_eq_some_iff.mp hd
      exact .fixed (hall _ hm)
  | symbol hm =>
      have hall : ∀ q ∈ symbols, (q.2, String.ofList [q.1]) ∈ fixedTexts := by decide
      exact .fixed (hall _ hm)
  | punct hw hb hs hh hlookup => exact lexeme_punct hw hb hs hh hlookup

/-- **Lexemes**: every token is one. -/
lemma lexeme_of_mem_scanFrom (b : Bool) (cs : List Char) : ∀ t ∈ scanFrom b 0 cs, Lexeme t :=
  forall_mem_scanFrom lexeme_lead b cs

lemma lexeme_of_mem_scan (source : String) : ∀ t ∈ scan source, Lexeme t :=
  lexeme_of_mem_scanFrom true source.toList

/-- The kinds of tokens with more texts than `fixedTexts` lists. -/
def openKinds : List Kind :=
  [.separatorMarker, .punct, .word, .whitespace, .garbage]

lemma Lexeme.mem_fixedTexts (h : Lexeme t) (hopen : t.kind ∉ openKinds) :
    (t.kind, t.text) ∈ fixedTexts := by
  cases h with
  | fixed hs => exact hs
  | marker _ => exact absurd (by simp [openKinds]) hopen
  | run hk _ _ => cases hk <;> exact absurd (by simp [openKinds]) hopen
  | punct _ _ _ => exact absurd (by simp [openKinds]) hopen

/-- A token whose kind has one text only has that text. -/
lemma Lexeme.text_eq (h : Lexeme t) {s : String} (hk : t.kind = k) (hopen : k ∉ openKinds)
    (honly : ∀ q ∈ fixedTexts, q.1 = k → q.2 = s) : t.text = s := by
  subst hk
  exact honly _ (h.mem_fixedTexts hopen) rfl

lemma Lexeme.text_ne_empty (h : Lexeme t) : t.text ≠ "" := by
  cases h with
  | fixed hs =>
      have hall : ∀ q ∈ fixedTexts, q.2 ≠ "" := by decide
      exact hall _ hs
  | marker hn =>
      rw [Ne, String.ofList_eq_empty_iff, List.replicate_eq_nil_iff]
      omega
  | run _ hne _ => rwa [Ne, String.ofList_eq_empty_iff]
  | punct _ _ _ =>
      rw [Ne, String.ofList_eq_empty_iff]
      exact List.cons_ne_nil _ _

/-- The characters of a run belong to one kind of token. -/
lemma Lexeme.kind_of_mem (h : Lexeme t) (hk : RunKind k p) (hx : x ∈ t.text.toList) (hp : p x) :
    t.kind = k := by
  have hmark : x ∉ marks := fun hm => by
    rw [hk.not_mark hm] at hp
    cases hp
  cases h with
  | fixed hs =>
      have hall : ∀ q ∈ fixedTexts, ∀ c ∈ q.2.toList, c ∈ marks := by decide
      exact absurd (hall _ hs x hx) hmark
  | marker hn =>
      rw [String.toList_ofList] at hx
      rw [List.eq_of_mem_replicate hx] at hmark
      exact absurd (by decide) hmark
  | run hk' _ hall =>
      rw [String.toList_ofList] at hx
      exact hk'.kind_eq hk (hall x hx) hp
  | punct hwhite hword _ =>
      rw [String.toList_ofList, List.mem_singleton] at hx
      subst hx
      cases hk with
      | word => rw [hword] at hp; cases hp
      | whitespace => rw [isWhiteSpace_iff.mpr (.inl hp)] at hwhite; cases hwhite
      | garbage => rw [isWhiteSpace_iff.mpr (.inr (.inl hp))] at hwhite; cases hwhite

/-- A text ends with the last character of its last token. -/
lemma exists_getLast_token {ts : List Token} (hall : ∀ t ∈ ts, Lexeme t)
    (hx : (textOf ts).toList.getLast? = some x) :
    ∃ us t, ts = us ++ [t] ∧ t.text.toList.getLast? = some x := by
  rcases List.eq_nil_or_concat' ts with rfl | ⟨us, t, rfl⟩
  · cases hx
  have hne : t.text.toList ≠ [] := fun h =>
    (hall t (by simp)).text_ne_empty (String.toList_eq_nil_iff.mp h)
  rw [textOf_append, textOf_cons, textOf_nil, String.append_empty, String.toList_append,
    List.getLast?_append_of_ne_nil _ hne] at hx
  exact ⟨us, t, rfl, hx⟩

/-! ### Runs -/

/-- A run begins where a character of another class stands in front of it. -/
lemma RunKind.parted (hk : RunKind k p) {x y : Char} (hx : p x = false) (hy : p y) :
    Parted x y := by
  have hmark : y ∉ marks := by
    intro hm
    rw [hk.not_mark hm] at hy
    cases hy
  have hpairs : ∀ q ∈ pairs, q.1.2 ∈ marks := by decide
  refine ⟨fun k' p' hk' hx' => Bool.eq_false_iff.mpr fun hy' => ?_, ?_,
    fun k' hm => hmark (hpairs _ hm), ?_⟩
  · obtain rfl := hk.kind_eq hk' hy hy'
    rw [hk.class_eq hk', hx'] at hx
    cases hx
  · rintro - rfl
    exact hmark List.mem_cons_self
  · rintro - rfl
    exact hmark (List.mem_cons_of_mem _ List.mem_cons_self)

/-- What stands in front of a border is scanned apart. -/
lemma scan_append_of_borders {a w b : String} (h : Borders a.toList (w.toList ++ b.toList)) :
    scan (a ++ w ++ b) = scan a ++ scanFrom (endsLine a) 0 (w.toList ++ b.toList) := by
  rw [scan, String.toList_append, String.toList_append, List.append_assoc,
    scanFrom_append_of_borders h, String.ofList_toList, endsLine_eq, scan]

/-- **A run** that cannot be longer is one token, apart from what stands around it. -/
lemma scan_of_maximalRun {a w b : String} (hk : RunKind k p) (h : MaximalRun p a w b) :
    scan (a ++ w ++ b) = scan a ++ ⟨k, w⟩ :: scanFrom false 0 b.toList := by
  have hne : w.toList ≠ [] := fun h0 => h.nonempty (String.toList_eq_nil_iff.mp h0)
  have hborders : Borders a.toList (w.toList ++ b.toList) := by
    intro x hx y hy
    refine hk.parted (h.before x hx) (h.all y ?_)
    rw [List.head?_append_of_ne_nil _ hne] at hy
    exact List.mem_of_mem_head? hy
  calc scan (a ++ w ++ b)
      = scan a ++ scanFrom (endsLine a) 0 (w.toList ++ b.toList) := scan_append_of_borders hborders
    _ = scan a ++ ⟨k, w⟩ :: scanFrom false 0 b.toList := by
        rw [scanFrom_run hk hne h.all _ _ h.after, String.ofList_toList]

/-- A token that is a run is not followed by more of it. -/
lemma stop_of_scanFrom (hk : RunKind k p) (b : Bool) (cs : List Char) :
    ∀ front t back, scanFrom b 0 cs = front ++ t :: back → t.kind = k →
      ∀ y ∈ (textOf back).toList.head?, p y = false := by
  induction b, cs using scanFrom_induction with
  | nil b =>
      intro front t back h
      exact absurd h.symm (by simp [scanFrom])
  | cons b c cs ih =>
      intro front t back h hkind y hy
      rw [scanFrom_cons] at h
      cases front with
      | cons u front => exact ih front t back (List.cons.inj h).2 hkind y hy
      | nil =>
          obtain ⟨rfl, rfl⟩ := List.cons.inj h
          rw [toList_textOf_scanFrom, (hk.of_lead hkind).2, drop_runLength] at hy
          have hstop := List.head?_dropWhile_not p cs
          rw [Option.mem_def.mp hy] at hstop
          simpa using hstop

/-- **A token that is a run** cannot be longer. -/
lemma maximalRun_of_scan {w : String} {front back : List Token} (hk : RunKind k p)
    (h : scan source = front ++ ⟨k, w⟩ :: back) :
    MaximalRun p (textOf front) w (textOf back) := by
  have hmem : ⟨k, w⟩ ∈ scan source := by simp [h]
  have hne : w.toList ≠ [] := (lexed_scan source).toList_ne_nil hmem
  have hall : ∀ c ∈ w.toList, p c := hk.forall_mem_text true source.toList _ hmem rfl
  refine ⟨fun h0 => hne (String.toList_eq_nil_iff.mpr h0), hall, fun x hx => ?_,
    stop_of_scanFrom hk true source.toList front _ back h rfl⟩
  -- the token in front, if it ended with a character of the class, would be such a run and stop here
  rcases List.eq_nil_or_concat' front with rfl | ⟨front, u, rfl⟩
  · cases hx
  have hu : u ∈ scan source := by simp [h]
  have hune := (lexed_scan source).toList_ne_nil hu
  rw [textOf_append, textOf_cons, textOf_nil, String.append_empty, String.toList_append,
    List.getLast?_append_of_ne_nil _ hune] at hx
  refine Bool.eq_false_iff.mpr fun hp => ?_
  have hkind := (lexeme_of_mem_scan source u hu).kind_of_mem hk (List.mem_of_getLast? hx) hp
  rw [List.append_assoc, List.singleton_append] at h
  have hstop := stop_of_scanFrom hk true source.toList front u (⟨k, w⟩ :: back) h hkind
    (w.toList.head hne) (by
      rw [textOf_cons, String.toList_append, List.head?_append_of_ne_nil _ hne]
      exact List.head?_eq_some_head hne)
  rw [hall _ (List.head_mem hne)] at hstop
  cases hstop

/-! ### Hashes and terminators -/

/-- The tokens of a run of hashes. -/
def hashes (n : Nat) : List Token :=
  if 3 ≤ n then [⟨.separatorMarker, String.ofList (List.replicate n '#')⟩]
  else List.replicate n ⟨.hash, "#"⟩

lemma scanFrom_hashes {n : Nat} {ds : List Char} (hd : ∀ d ∈ ds.head?, d ≠ '#') (b : Bool) :
    scanFrom b 0 (List.replicate (n + 1) '#' ++ ds) = hashes (n + 1) ++ scanFrom false 0 ds := by
  have hrun : ∀ m, runLength (· == '#') (List.replicate m '#' ++ ds) = m := by
    intro m
    rw [runLength_eq (by simp) fun d hmem => beq_eq_false_iff_ne.mpr (hd d hmem),
      List.length_replicate]
  have hone : ∀ b, scanFrom b 0 ('#' :: ds) = ⟨.hash, "#"⟩ :: scanFrom false 0 ds := by
    intro b
    have hzero : runLength (· == '#') ds = 0 := hrun 0
    rw [scanFrom_cons, lead_hash, hzero]
    rfl
  rcases n with _ | _ | m
  · exact hone b
  · rw [List.replicate_succ, List.cons_append, scanFrom_cons, lead_hash, hrun]
    exact congrArg (_ :: ·) (hone false)
  · rw [List.replicate_succ, List.cons_append, scanFrom_cons, lead_hash, hrun, if_pos (by omega),
      hashes, if_pos (by omega)]
    dsimp only
    rw [List.take_left' List.length_replicate, List.drop_left' List.length_replicate,
      ← List.replicate_succ]
    rfl

/-- A run of one character that cannot be longer is that character some times. -/
lemma exists_replicate {m : Char} {a w b : String} (h : MaximalRun (· == m) a w b) :
    ∃ n, w.length = n + 1 ∧ w.toList = List.replicate (n + 1) m := by
  have hw : w.toList = List.replicate w.toList.length m :=
    List.eq_replicate_iff.mpr ⟨rfl, fun c hc => beq_iff_eq.mp (h.all c hc)⟩
  obtain ⟨n, hn⟩ : ∃ n, w.toList.length = n + 1 :=
    Nat.exists_eq_succ_of_ne_zero fun h0 =>
      h.nonempty (String.toList_eq_nil_iff.mp (List.length_eq_zero_iff.mp h0))
  exact ⟨n, hn, hn ▸ hw⟩

/-- What stands in front of a run of hashes or hyphens is scanned apart. -/
lemma borders_of_maximalRun {m : Char} {a w b : String} (h : MaximalRun (· == m) a w b)
    (hm : m = '#' ∨ m = '-') (cs : List Char) : Borders a.toList (w.toList ++ cs) := by
  have hmark : m ∈ marks ∧ m ≠ '!' ∧ ∀ q ∈ pairs, q.1.2 = m → q.1.1 = m := by
    rcases hm with rfl | rfl <;> decide
  obtain ⟨n, -, hw⟩ := exists_replicate h
  intro x hx y hy
  obtain rfl : m = y := by
    rw [hw, List.replicate_succ, List.cons_append] at hy
    exact Option.some.inj hy
  have hne : x ≠ m := beq_eq_false_iff_ne.mp (h.before x hx)
  refine parted_of_mark hmark.1 (fun heq => heq ▸ hne) hmark.2.1 fun q hq hqm hqx => hne ?_
  rw [← hqx, hmark.2.2 q hq hqm]

/-- **A run of hashes** that cannot be longer is scanned apart. -/
lemma scan_of_hashes {a w b : String} (h : MaximalRun (· == '#') a w b) :
    scan (a ++ w ++ b) = scan a ++ hashes w.length ++ scanFrom false 0 b.toList := by
  obtain ⟨n, hlength, hw⟩ := exists_replicate h
  have hafter : ∀ d ∈ b.toList.head?, d ≠ '#' := fun d hd => beq_eq_false_iff_ne.mp (h.after d hd)
  calc scan (a ++ w ++ b)
      = scan a ++ scanFrom (endsLine a) 0 (w.toList ++ b.toList) :=
        scan_append_of_borders (borders_of_maximalRun h (.inl rfl) b.toList)
    _ = scan a ++ (hashes w.length ++ scanFrom false 0 b.toList) := by
        rw [hw, scanFrom_hashes hafter, hlength]
    _ = scan a ++ hashes w.length ++ scanFrom false 0 b.toList := (List.append_assoc ..).symm

/-- A carriage return and a line feed behind it are one terminator. -/
lemma scan_of_crlf (a b : String) :
    scan (a ++ "\r\n" ++ b) = scan a ++ ⟨.newline, "\r\n"⟩ :: scan b := by
  have hpairs : ∀ q ∈ pairs, q.1.2 ≠ '\r' := by decide
  have hborders : Borders a.toList ("\r\n".toList ++ b.toList) := by
    intro x hx y hy
    obtain rfl := Option.some.inj hy
    exact parted_of_mark (by decide) (fun h => absurd h (by decide)) (by decide)
      fun q hq hr _ => hpairs q hq hr
  have hcrlf : ∀ b : Bool, scanFrom b 0 "\r\n".toList = [⟨.newline, "\r\n"⟩] := by decide
  have hlast : "\r\n".toList.getLast? ≠ some '\r' := by decide
  rw [scan_append_of_borders hborders, scanFrom_append _ (by decide) fun h => absurd h hlast, hcrlf,
    scan]
  rfl

/-! ### The normal form -/

/-- The form of a scanned source. -/
structure NormalForm (source : String) (ts : List (Span × Token)) : Prop where
  /-- The ranges begin at the first byte, have no gaps, and end at the last byte. -/
  tiles : Span.Tiles 0 (ts.map Prod.fst) source.utf8ByteSize
  /-- What stands in the range of a token is its text. -/
  text : ∀ x ∈ ts, ∃ a b, source = a ++ x.2.text ++ b ∧
    x.1 = ⟨a.utf8ByteSize, x.2.text.utf8ByteSize⟩
  lexeme : ∀ x ∈ ts, Lexeme x.2
  /-- The runs of words, blanks and stray breaks that cannot be longer are the tokens of their
  kinds. -/
  run : ∀ k p, RunKind k p → ∀ a w b, source = a ++ w ++ b →
    (MaximalRun p a w b ↔ (⟨a.utf8ByteSize, w.utf8ByteSize⟩, ⟨k, w⟩) ∈ ts)
  hashes : ∀ a w b, source = a ++ w ++ b → MaximalRun (· == '#') a w b →
    locate a.utf8ByteSize (Token.hashes w.length) <:+: ts
  crlf : ∀ a b, source = a ++ "\r\n" ++ b → (⟨a.utf8ByteSize, 2⟩, ⟨.newline, "\r\n"⟩) ∈ ts

/-- **Every scanned source** is in normal form. -/
theorem normalForm_scan (source : String) : NormalForm source (locate 0 (scan source)) where
  tiles := by
    have htiles := tiles_locate (lexed_scan source).nonempty 0
    rwa [Nat.zero_add, sizeOf_scan] at htiles
  text := by
    intro x hx
    obtain ⟨front, back, hscan, hspan⟩ := mem_locate.mp hx
    refine ⟨textOf front, textOf back, ?_, ?_⟩
    · rw [← textOf_scan source, hscan, textOf_append, textOf_cons, String.append_assoc]
    · rw [hspan, Nat.zero_add, sizeOf_eq, size]
  lexeme := by
    intro x hx
    obtain ⟨front, back, hscan, -⟩ := mem_locate.mp hx
    exact lexeme_of_mem_scan source x.2 (hscan ▸ List.mem_append_right front List.mem_cons_self)
  run := by
    rintro k p hk a w b rfl
    rw [mem_locate_scan]
    -- a run that cannot be longer is one token, and a token of the kind is such a run
    constructor
    · intro h
      exact ⟨scan a, scanFrom false 0 b.toList, scan_of_maximalRun hk h, textOf_scan a,
        textOf_scanFrom_toList false b⟩
    · rintro ⟨front, back, hscan, rfl, rfl⟩
      exact maximalRun_of_scan hk hscan
  hashes := by
    rintro a w b rfl h
    rw [scan_of_hashes h, locate_append, locate_append, sizeOf_scan, Nat.zero_add]
    exact List.infix_append _ _ _
  crlf := by
    rintro a b rfl
    refine mem_locate_scan.mpr ⟨scan a, scan b, scan_of_crlf a b, textOf_scan a, textOf_scan b⟩

end Token

end RequestFile
