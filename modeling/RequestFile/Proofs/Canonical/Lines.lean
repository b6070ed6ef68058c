import RequestFile.Proofs.Canonical.Tokens
import RequestFile.Proofs.Lookahead

/-!
Tokens of printed lines.

* **Lines.** `scan_separatorLine`, `scan_requestLine` and `scan_headerLine` give the tokens of each
  kind of line.
* **Parts.** The tokens of a part spell it, and their kinds keep them apart from the syntax around.
* **Bodies.** The first line begins JSON, no other ends it, and the last is not blank.
-/

namespace RequestFile

/-! ### Texts -/

lemma OneLine.append {s t : String} (hs : OneLine s) (ht : OneLine t) : OneLine (s ++ t) :=
  fun c hc => by
    rw [String.toList_append, List.mem_append] at hc
    exact hc.elim (hs c) (ht c)

lemma OneLine.of_chars {s : String} {p : Char → Prop} (h : ∀ c ∈ s.toList, p c) (hn : ¬p '\n')
    (hr : ¬p '\r') : OneLine s := fun c hc =>
  ⟨fun h0 => hn (h0 ▸ h c hc), fun h0 => hr (h0 ▸ h c hc)⟩

lemma oneLine_url (m : RequestModel) : OneLine m.url :=
  .of_chars m.url_chars (by decide) (by decide)

/-- A URL has no blanks. -/
lemma isBlank_of_mem_url (m : RequestModel) {c : Char} (hc : c ∈ m.url.toList) :
    isBlank c = false := by
  by_contra hb
  have hw := Token.isWhiteSpace_of_isBlank (by simpa using hb)
  rw [m.url_chars c hc] at hw
  cases hw

namespace Token

/-! ### Lines -/

/-- Tokens after a blank, if there are any. -/
def spaced (ts : List Token) : List Token :=
  if ts = [] then [] else blank :: ts

lemma scanFrom_spaced {cs : List Char} (h : ∀ c ∈ cs.head?, isBlank c = false) (b : Bool) :
    scanFrom b 0 (if cs = [] then [] else ' ' :: cs) = spaced (scanFrom false 0 cs) := by
  rw [spaced]
  simp only [scanFrom_eq_nil]
  split_ifs with hnil
  · rfl
  · exact scanFrom_space b cs h

end Token

/-- The tokens of the title. -/
def RequestModel.titleTokens (m : RequestModel) : List Token :=
  m.title.elim [] fun t => Token.scanFrom false 0 t.toList

/-- The tokens of the URL. -/
def RequestModel.urlTokens (m : RequestModel) : List Token :=
  Token.scanFrom false 0 m.url.toList

/-- The tokens of the version after the URL. -/
def RequestModel.versionTokens (m : RequestModel) : List Token :=
  m.version.elim [] fun v => [Token.blank, ⟨.word, "HTTP"⟩, ⟨.slash, "/"⟩, ⟨.word, v⟩]

/-- The tokens of the name of a header. -/
def HeaderModel.nameTokens (h : HeaderModel) : List Token :=
  Token.scan h.name

/-- The tokens of the value of a header. -/
def HeaderModel.valueTokens (h : HeaderModel) : List Token :=
  Token.scanFrom false 0 h.value.toList

namespace Token

variable (m : RequestModel) (h : HeaderModel)

/-- A marker in front of a title. -/
def marker : Token :=
  ⟨.separatorMarker, "###"⟩

lemma scanFrom_marker (ds : List Char) (hd : ds.head? ≠ some '#') :
    scanFrom true 0 ('#' :: '#' :: '#' :: ds) = marker :: scanFrom false 0 ds := by
  have hrun : runLength (· == '#') ('#' :: '#' :: ds) = 2 := by
    cases ds with
    | nil => rfl
    | cons d ds =>
        have hne : d ≠ '#' := fun h => hd (congrArg some h)
        simp [runLength, hne]
  have hw : isWordChar '#' = false := by decide
  have hb : isBlank '#' = false := by decide
  have hs : isStrayBreak '#' = false := by decide
  have hlead : lead true '#' ('#' :: '#' :: ds) = (.separatorMarker, 2) := by
    simp [lead, hw, hb, hs, hrun]
  rw [scanFrom_cons, hlead]
  rfl

/-- **Separators.** -/
lemma scan_separatorLine : scan m.separatorLine = marker :: spaced m.titleTokens := by
  rw [scan, RequestModel.separatorLine, RequestModel.titleTokens]
  cases ht : m.title with
  | none => rfl
  | some t =>
      have hne : t.toList ≠ [] := by simpa using m.title_ne t ht
      have hspaced := scanFrom_spaced (m.title_inline t ht).first false
      rw [if_neg hne] at hspaced
      rw [Option.elim_some, Option.elim_some, String.toList_append, String.toList_append, ← hspaced]
      exact scanFrom_marker (' ' :: t.toList) (by simp)

lemma isWordChar_of_method {s : String} (hs : s ∈ Lookahead.methods) :
    s.toList ≠ [] ∧ ∀ c ∈ s.toList, isWordChar c := by
  revert s
  decide

lemma isWordChar_of_version {v : String} (hv : Lookahead.isVersionNumber v) :
    v.toList ≠ [] ∧ ∀ c ∈ v.toList, isWordChar c := by
  simp only [Lookahead.isVersionNumber, Bool.and_eq_true, List.all_eq_true, Bool.or_eq_true,
    beq_iff_eq] at hv
  refine ⟨fun h0 => by simp [h0] at hv, fun c hc => ?_⟩
  rcases hv.2 c hc with hd | rfl
  · exact isWordChar_of_isDigit hd
  · decide

/-- A version in front of something that is no word. -/
lemma scan_versionWord {v : String} {ds : List Char} (hv : Lookahead.isVersionNumber v) (b : Bool)
    (hd : ∀ d ∈ ds.head?, isWordChar d = false) :
    scanFrom b 0 ("HTTP/".toList ++ (v.toList ++ ds))
      = ⟨.word, "HTTP"⟩ :: ⟨.slash, "/"⟩ :: ⟨.word, v⟩ :: scanFrom false 0 ds := by
  obtain ⟨hne, hall⟩ := isWordChar_of_version hv
  have hnumber := scanFrom_run .word hne hall false ds hd
  have hhttp := scanFrom_run .word (by decide : "HTTP".toList ≠ []) (by decide) b
    ('/' :: (v.toList ++ ds)) (forall_head_cons (by decide))
  obtain ⟨c, cs, hc⟩ := List.exists_cons_of_ne_nil hne
  have hslash := scanFrom_slash (hall c (by rw [hc]; exact List.mem_cons_self)) false (cs ++ ds)
  rw [← List.cons_append, ← hc, hnumber, String.ofList_toList] at hslash
  rw [hslash] at hhttp
  exact hhttp

lemma scan_version {v : String} (hv : Lookahead.isVersionNumber v) (b : Bool) :
    scanFrom b 0 (" HTTP/" ++ v).toList
      = [blank, ⟨.word, "HTTP"⟩, ⟨.slash, "/"⟩, ⟨.word, v⟩] := by
  have hversion : scanFrom false 0 ("HTTP/".toList ++ (v.toList ++ []))
      = [⟨.word, "HTTP"⟩, ⟨.slash, "/"⟩, ⟨.word, v⟩] := scan_versionWord hv false (by simp)
  rw [List.append_nil] at hversion
  rw [String.toList_append]
  exact (scanFrom_space b ("HTTP/".toList ++ v.toList) (forall_head_cons (by decide))).trans
    (congrArg (blank :: ·) hversion)

/-- **Request lines.** -/
lemma scan_requestLine :
    scan m.requestLine = ⟨.word, m.method⟩ :: blank :: (m.urlTokens ++ m.versionTokens) := by
  obtain ⟨hne, hall⟩ := isWordChar_of_method m.method_known
  have hstop : ∀ c ∈ m.url.toList.getLast?, Stops c ' ' := fun c hlast => by
    have hc := List.mem_of_getLast? hlast
    exact ⟨Or.inr (Or.inr (Or.inl rfl)), (oneLine_url m c hc).2, fun _ => isBlank_of_mem_url m hc⟩
  have hurl : scanFrom false 0 (m.url ++ m.version.elim "" (" HTTP/" ++ ·)).toList
      = m.urlTokens ++ m.versionTokens := by
    rw [RequestModel.urlTokens, RequestModel.versionTokens, String.toList_append]
    cases hv : m.version with
    | none => simp
    | some v =>
        rw [Option.elim_some, Option.elim_some, ← scan_version (m.version_number v hv) false,
          String.toList_append]
        exact scanFrom_stop hstop (Or.inr (Or.inr (Or.inl rfl))) false
          ("HTTP/".toList ++ v.toList)
  have hfirst : ∀ c ∈ (m.url ++ m.version.elim "" (" HTTP/" ++ ·)).toList.head?,
      isBlank c = false := by
    obtain ⟨c, cs, hc⟩ := List.exists_cons_of_ne_nil (by simpa using m.url_ne : m.url.toList ≠ [])
    intro d hd
    rw [String.toList_append, hc] at hd
    obtain rfl : c = d := by simpa using hd
    exact isBlank_of_mem_url m (by rw [hc]; exact List.mem_cons_self)
  have hline : m.requestLine.toList
      = m.method.toList ++ ' ' :: (m.url ++ m.version.elim "" (" HTTP/" ++ ·)).toList := by
    simp [RequestModel.requestLine]
  rw [scan, hline, scanFrom_run .word hne hall true _ (forall_head_cons (by decide)),
    scanFrom_space false _ hfirst, hurl, String.ofList_toList]

/-- A name in front of a colon. -/
lemma scan_headerName (ds : List Char) :
    scanFrom true 0 (h.name.toList ++ ':' :: ds) = h.nameTokens ++ colon :: scanFrom false 0 ds := by
  have hstop : ∀ c ∈ h.name.toList.getLast?, Stops c ':' := fun c hc => by
    have hchar := h.name_chars c (List.mem_of_getLast? hc)
    refine ⟨Or.inr (Or.inr (Or.inr rfl)), ?_, fun h => absurd h (by decide)⟩
    rintro rfl
    exact absurd hchar (by decide)
  rw [scanFrom_stop hstop (Or.inr (Or.inr (Or.inr rfl))), scanFrom_colon]
  rfl

/-- **Headers.** -/
lemma scan_headerLine : scan h.line = h.nameTokens ++ colon :: spaced h.valueTokens := by
  have hline : h.line.toList = h.name.toList ++ ':' ::
      (if h.value.toList = [] then [] else ' ' :: h.value.toList) := by
    by_cases hv : h.value = "" <;> simp [HeaderModel.line, hv]
  rw [scan, hline, scan_headerName, scanFrom_spaced h.value_inline.first]
  rfl

/-! ### Parts of lines -/

lemma textOf_titleTokens : textOf m.titleTokens = m.title.getD "" := by
  rw [RequestModel.titleTokens]
  cases m.title with
  | none => rfl
  | some t => exact textOf_scanFrom_toList false t

lemma inlineTokens_title : InlineTokens m.titleTokens := by
  rw [RequestModel.titleTokens]
  cases ht : m.title with
  | none => exact ⟨by simp, by simp, by simp⟩
  | some t => exact inlineTokens_scanFrom (m.title_inline t ht) false

lemma textOf_urlTokens : textOf m.urlTokens = m.url :=
  textOf_scanFrom_toList false m.url

lemma urlTokens_ne_nil : m.urlTokens ≠ [] := by
  simpa [RequestModel.urlTokens, scanFrom_eq_nil] using m.url_ne

/-- The tokens of a text without line ends, blanks and references are none of these. -/
lemma kind_of_solid {s : String} (hline : OneLine s) (hblank : ∀ c ∈ s.toList, isBlank c = false)
    (href : NoReference s) {b : Bool} {t : Token} (ht : t ∈ scanFrom b 0 s.toList) :
    t.kind ≠ .newline ∧ t.kind ≠ .whitespace ∧ t.kind ≠ .varOpen := by
  refine ⟨newline_of_oneLine hline b t ht, fun hk => ?_, fun hk => ?_⟩
  · obtain ⟨c, ds, hc, hmem⟩ := exists_of_mem_scanFrom ht
    have hc' := RunKind.whitespace.forall_mem_text b s.toList t ht hk c (by simp [hc])
    rw [hblank c hmem] at hc'
    cases hc'
  · exact href (text_of_varOpen ht hk ▸ infix_of_mem_scanFrom ht)

/-- The tokens of a URL are neither line ends nor blanks nor references. -/
lemma kind_of_urlTokens {t : Token} (ht : t ∈ m.urlTokens) :
    t.kind ≠ .newline ∧ t.kind ≠ .whitespace ∧ t.kind ≠ .varOpen :=
  kind_of_solid (oneLine_url m) (fun _ => isBlank_of_mem_url m) m.url_noReference ht

lemma textOf_nameTokens : textOf h.nameTokens = h.name :=
  textOf_scan h.name

lemma nameTokens_ne_nil : h.nameTokens ≠ [] := by
  simpa [HeaderModel.nameTokens, scan, scanFrom_eq_nil] using h.name_ne

lemma kind_of_nameTokens {t : Token} (ht : t ∈ h.nameTokens) :
    Lookahead.headerNameKinds.contains t.kind := by
  refine kind_of_name (fun c hc => ?_) true t ht
  rcases h.name_chars c hc with ha | rfl | rfl
  · exact Or.inl (isWordChar_of_isAlphanum ha)
  · exact Or.inl (by decide)
  · exact Or.inr rfl

lemma isHeaderName_name : Lookahead.isHeaderName h.name := by
  simp only [Lookahead.isHeaderName, List.all_eq_true, Bool.or_eq_true, beq_iff_eq, or_assoc]
  exact h.name_chars

lemma textOf_valueTokens : textOf h.valueTokens = h.value :=
  textOf_scanFrom_toList false h.value

lemma inlineTokens_value : InlineTokens h.valueTokens :=
  inlineTokens_scanFrom h.value_inline false

/-! ### Lines of a body -/

variable (j : JsonModel)

/-- The first token of a JSON text. -/
lemma scan_first :
    ∃ t ts, scan j.first = t :: ts ∧ (t.kind = .braceOpen ∨ t.kind = .bracketOpen) := by
  obtain ⟨c, cs, hfirst, hopens⟩ := j.opens
  rw [scan, hfirst, scanFrom_cons]
  refine ⟨_, _, rfl, ?_⟩
  rcases hopens with rfl | ⟨rfl, hbrace, hpercent⟩
  · have hpair : pairKind? '[' cs = none := pairKind?_eq_none fun d _ k => by simp [pairs]
    rw [lead_symbol (k := .bracketOpen) rfl (by decide) (by decide) (by decide) (by decide)
      (by decide) hpair]
    exact Or.inr rfl
  · have hpair : pairKind? '\x7b' cs = none := pairKind?_eq_none fun d hd k hmem => by
      simp [pairs] at hmem
      rcases hmem with ⟨rfl, _⟩ | ⟨rfl, _⟩
      · exact hbrace hd
      · exact hpercent hd
    rw [lead_symbol (k := .braceOpen) rfl (by decide) (by decide) (by decide) (by decide)
      (by decide) hpair]
    exact Or.inl rfl

/-- The tokens that end a body begin with a closing angle bracket, if they are no separators. -/
lemma text_of_angle {b : Bool} {cs : List Char} {t : Token} (ht : t ∈ scanFrom b 0 cs)
    (hk : t.kind = .angleClose ∨ t.kind = .redirectMarker) : t.text.toList.head? = some '>' := by
  have hopen : t.kind ∉ openKinds := by rcases hk with hk | hk <;> rw [hk] <;> decide
  have hall : ∀ q ∈ fixedTexts, q.1 = .angleClose ∨ q.1 = .redirectMarker →
      q.2.toList.head? = some '>' := by decide
  exact hall _ ((lexeme_of_mem_scanFrom b cs t ht).mem_fixedTexts hopen) hk

/-- No other line ends a JSON text. -/
lemma not_isBodyStop_lineTokens {l : String} (hl : l ∈ j.others) :
    Lookahead.isBodyStop (lineTokens l) = false := by
  obtain ⟨hmarker, hangle⟩ := j.goes_on l hl
  cases hs : scan l with
  | nil => simp [lineTokens, hs, lineFeed, Lookahead.isBodyStop]
  | cons t ts =>
      have hmem : t ∈ scan l := by rw [hs]; exact List.mem_cons_self
      have hprefix : t.text.toList <+: l.toList :=
        head_scanFrom (b := true) (by rw [← scan, hs]; rfl)
      have hhead : t.text.toList.head? ≠ some '>' := fun h => hangle <| by
        obtain ⟨ds, hds⟩ := List.head?_eq_some_iff.mp h
        rw [hds] at hprefix
        obtain ⟨es, hes⟩ := hprefix
        rw [← hes]
        rfl
      have hsep : t.kind ≠ .separatorMarker := fun hk => hmarker <| by
        have hsection := (lexed_scanFrom true l.toList).markers t hmem hk
        rw [startsSection, List.isPrefixOf_iff_prefix] at hsection
        exact hsection.trans hprefix
      have hclose : t.kind ≠ .angleClose := fun hk =>
        hhead (text_of_angle hmem (Or.inl hk))
      have hredirect : t.kind ≠ .redirectMarker := fun hk =>
        hhead (text_of_angle hmem (Or.inr hk))
      simp [lineTokens, hs, Lookahead.isBodyStop, hsep, hclose, hredirect]

lemma exists_of_mem_textOf {ts : List Token} {c : Char} (h : c ∈ (textOf ts).toList) :
    ∃ t ∈ ts, c ∈ t.text.toList := by
  induction ts with
  | nil => simp at h
  | cons t ts ih =>
      rw [textOf_cons, String.toList_append, List.mem_append] at h
      rcases h with h | h
      · exact ⟨t, List.mem_cons_self, h⟩
      · obtain ⟨u, hu, hc⟩ := ih h
        exact ⟨u, List.mem_cons_of_mem t hu, hc⟩

/-- A text without a terminator among its tokens stands on one line. -/
lemma oneLine_of_newline {s : String} {b : Bool}
    (h : ∀ t ∈ scanFrom b 0 s.toList, t.kind ≠ .newline) : OneLine s := by
  have hbreak : ∀ x, x = '\n' ∨ x = '\r' → x ∉ s.toList := by
    intro x hx hmem
    rw [← textOf_scanFrom_toList b s] at hmem
    obtain ⟨t, ht, hxt⟩ := exists_of_mem_textOf hmem
    exact h t ht (kind_of_mem_break b _ t ht x hx hxt)
  exact fun c hc => ⟨fun h => hbreak c (.inl h) hc, fun h => hbreak c (.inr h) hc⟩

/-- A line with something else than blanks is not blank. -/
lemma not_isBlankLine_append {ts us : List Token} (hn : ∀ t ∈ ts, t.kind ≠ .newline)
    (h : ∃ t ∈ ts, t.kind ≠ .whitespace) : Lookahead.isBlankLine (ts ++ us) = false := by
  induction ts with
  | nil => simp at h
  | cons t ts ih =>
      obtain ⟨ht, hts⟩ := List.forall_mem_cons.mp hn
      rw [List.cons_append, Lookahead.isBlankLine_cons]
      split_ifs with hb
      · exact ih hts (by simpa [hb] using h)
      · simpa using ht

lemma not_isBlankLine_lineTokens {l : String} (hone : OneLine l)
    (h : ∃ c ∈ l.toList, isBlank c = false) : Lookahead.isBlankLine (lineTokens l) = false := by
  refine not_isBlankLine_append (newline_of_oneLine hone true) ?_
  obtain ⟨c, hc, hb⟩ := h
  rw [← textOf_scan l] at hc
  obtain ⟨t, ht, hct⟩ := exists_of_mem_textOf hc
  refine ⟨t, ht, fun hk => ?_⟩
  rw [RunKind.whitespace.forall_mem_text true l.toList t ht hk c hct] at hb
  cases hb

end Token

/-! ### One line each -/

lemma oneLine_separatorLine (m : RequestModel) : OneLine m.separatorLine := by
  refine .append (by simp [OneLine]) ?_
  cases ht : m.title with
  | none => simp [OneLine]
  | some t => exact .append (by simp [OneLine]) (m.title_inline t ht).oneLine

lemma oneLine_requestLine (m : RequestModel) : OneLine m.requestLine := by
  have hmethod : OneLine m.method :=
    .of_chars (Token.isWordChar_of_method m.method_known).2 (by decide) (by decide)
  refine .append (.append (.append hmethod (by simp [OneLine])) (oneLine_url m)) ?_
  cases hv : m.version with
  | none => simp [OneLine]
  | some v =>
      exact .append (by simp [OneLine])
        (.of_chars (Token.isWordChar_of_version (m.version_number v hv)).2 (by decide) (by decide))

lemma oneLine_headerLine (h : HeaderModel) : OneLine h.line := by
  refine .append (.append (.of_chars h.name_chars (by decide) (by decide)) (by simp [OneLine])) ?_
  split_ifs
  · simp [OneLine]
  · exact .append (by simp [OneLine]) h.value_inline.oneLine

/-- Every line of a printed request is one. -/
lemma oneLine_of_mem_lines (m : RequestModel) : ∀ l ∈ m.lines, OneLine l := by
  rw [RequestModel.lines, List.forall_mem_cons, List.forall_mem_cons, List.forall_mem_append,
    List.forall_mem_map]
  refine ⟨oneLine_separatorLine m, oneLine_requestLine m, fun h _ => oneLine_headerLine h, ?_⟩
  rw [RequestModel.bodyLines]
  cases m.body with
  | none => simp
  | some j =>
      rw [Option.elim_some, List.forall_mem_cons]
      exact ⟨by simp [OneLine], j.oneLine⟩

end RequestFile
