import RequestFile.Proofs.Entered.Basic

/-!
Where the lines at the head of a request or a response are entered.

* **Versions.** `splitVersion` looks for a version from the end of the line, and the cursor behind the
  URL stands where it was found (`UrlEnd`).
* **URLs.** The tokens of a URL end with the last one that trimming keeps, on its first line and on
  every further one (`urlEnd_urlLines_of_first`), also behind a warning about the method.
* **Lines.** Request lines, response lines and headers build proper sites (`lays_requestLine`,
  `lays_responseLine`, `lays_headerLines`).
-/

namespace RequestFile

open scoped Computability

/-! ### Versions and trimming -/

namespace Lookahead

variable {ts us : List Token}

/-- What begins a stretch of tokens with a version begins them all with it. -/
lemma isVersion_of_prefix (h : isVersion ts) (hp : ts <+: us) : isVersion us := by
  obtain ⟨vs, rfl⟩ := hp
  obtain ⟨a, b, c, ws, rfl, hv⟩ := isVersion_iff.mp h
  exact isVersion_iff.mpr ⟨a, b, c, ws ++ vs, rfl, hv⟩

lemma isVersion_take (h : isVersion ts) : isVersion (ts.take 3) := by
  obtain ⟨a, b, c, ws, rfl, hv⟩ := isVersion_iff.mp h
  exact isVersion_iff.mpr ⟨a, b, c, [], rfl, hv⟩

/-- The content of a URL ends with a token that is not blank. -/
lemma getLast_take_splitVersion {t : Token} (h : t ∈ (ts.take (splitVersion ts).1).getLast?) :
    t.kind ≠ .whitespace := by
  simp only [splitVersion] at h
  split_ifs at h
  · have hle : trimmedLength (ts.take (trimmedLength ts - 3)) ≤ trimmedLength ts - 3 :=
      (trimmedLength_le _).trans (List.length_take_le _ _)
    rw [← min_eq_left hle, ← List.take_take] at h
    exact getLast_take_trimmedLength h
  · exact getLast_take_trimmedLength h

/-- Behind the content of a URL a version begins where it was found. -/
lemma isVersion_of_splitVersion {i : Nat} (h : (splitVersion ts).2 = some i) :
    (splitVersion ts).1 ≤ i ∧ isVersion (ts.drop i) := by
  simp only [splitVersion] at h ⊢
  split_ifs at h ⊢ with hv
  · obtain rfl := Option.some.inj h
    simp only [Bool.and_eq_true] at hv
    exact ⟨(trimmedLength_le _).trans (List.length_take_le _ _), hv.2⟩

end Lookahead

namespace Cursor

variable {all : List Token} {around : List Kind} {k : Nat} {L : TreeLanguage} {c c' c'' : Cursor}
  {ts us : List Token} {version : Option Nat}

/-! ### The end of a URL -/

/-- Behind the content of a URL that began at `c`: its last token is neither a blank nor a
terminator, and if a version has been found, it begins there. -/
structure UrlEnd (c c' : Cursor) (version : Option Nat) : Prop where
  visible : ∃ ts t, Took ts c c' ∧ ts.getLast? = some t ∧ t.kind ≠ .whitespace ∧ t.kind ≠ .newline
  version : ∀ v, version = some v → Lookahead.isVersion (c'.rest.drop (v - c'.read))

namespace UrlEnd

/-- What comes before a line of a URL does not matter for its end. -/
lemma behind (h : UrlEnd c' c'' version) (ht : Took us c c') : UrlEnd c c'' version := by
  obtain ⟨ts, t, htook, hlast, hkind⟩ := h.visible
  refine ⟨⟨us ++ ts, t, ht.trans htook, ?_, hkind⟩, h.version⟩
  rw [List.getLast?_append, hlast, Option.some_or]

/-- The content of a line, as `splitVersion` finds it. -/
lemma of_content (h : Run true k L c c') (hurl : c.HasUrl)
    (hr : c'.read = c.read + (Lookahead.splitVersion (Lookahead.line c.rest)).1) :
    UrlEnd c c' ((Lookahead.splitVersion (Lookahead.line c.rest)).2.map (c.read + ·)) := by
  obtain ⟨ts, _, ht, _⟩ := h.grew
  have hle := (Lookahead.splitVersion_bounds c.rest).1
  have hts : ts = (Lookahead.line c.rest).take (Lookahead.splitVersion (Lookahead.line c.rest)).1 := by
    rw [ht.eq_take hr, ← Lookahead.take_lineLength, List.take_take, Lookahead.take_lineLength,
      min_eq_left hle]
  have hne : ts ≠ [] := by
    intro hnil
    have hread := ht.read
    have hpos := hurl.pos
    rw [hnil, List.length_nil] at hread
    omega
  refine ⟨⟨ts, ts.getLast hne, ht, List.getLast?_eq_some_getLast hne, ?_, ?_⟩, fun v hv => ?_⟩
  · have hlast : ts.getLast hne ∈ ((Lookahead.line c.rest).take
        (Lookahead.splitVersion (Lookahead.line c.rest)).1).getLast? := by
      rw [← hts]
      exact List.getLast?_eq_some_getLast hne
    exact Lookahead.getLast_take_splitVersion hlast
  · have hline : ∀ t ∈ ts, t.kind ≠ .newline := fun t ht => by
      rw [hts] at ht
      exact Lookahead.kind_of_mem_line (List.mem_of_mem_take ht)
    exact hline _ (List.getLast_mem hne)
  · obtain ⟨i, hi, rfl⟩ := Option.map_eq_some_iff.mp hv
    obtain ⟨hle', hversion⟩ := Lookahead.isVersion_of_splitVersion hi
    have hdrop : c'.rest.drop (c.read + i - c'.read) = c.rest.drop i := by
      rw [h.rest_eq, List.drop_drop, hr]
      congr 1
      omega
    rw [hdrop]
    exact Lookahead.isVersion_of_prefix hversion ((List.takeWhile_prefix _).drop i)

lemma closed {K : Kind} {b : Array Tree} (h : UrlEnd c.opened c' version) :
    UrlEnd c (c'.closed K b) version := by
  obtain ⟨ts, t, ht, hlast, hkind⟩ := h.visible
  exact ⟨⟨ts, t, ⟨ht.rest, ht.read, ht.offset, ht.lineStart⟩, hlast, hkind⟩, h.version⟩

end UrlEnd

/-- A further line of a URL. -/
lemma urlEnd_urlNextLine (hc : c.Live) (hb : c.atBlankLine)
    (hn : Lookahead.nextLineIsIndented c.rest) : UrlEnd c c.urlNextLine.1 c.urlNextLine.2 := by
  obtain ⟨hblank, _⟩ := run_eatBlank (e := true) hc
  obtain ⟨hnl, _⟩ := run_eatNewline (e := true) hblank.live
  obtain ⟨hind, _⟩ := run_eatBlank (e := true) hnl.live
  obtain ⟨us, _, hindent, _⟩ := ((hblank.trans hnl).trans hind).grew
  have hbounds := Lookahead.splitVersion_bounds c.eatBlank.eatNewline.eatBlank.rest
  obtain ⟨hurl, hend⟩ := run_urlLine (e := true) hind.live
    ⟨Nat.le_add_right _ _, Nat.add_le_add_left hbounds.1 _⟩
  exact (UrlEnd.of_content hurl (hasUrl_urlNextLine hc hb hn) hend).behind hindent

/-- The further lines of a URL, as many as there are. -/
lemma urlEnd_urlNextLines {c₀ : Cursor} (fuel : Nat) (hc : c.Live) (ha : AfterUrl c version)
    (h : UrlEnd c₀ c version) :
    UrlEnd c₀ (c.urlNextLines version fuel).1 (c.urlNextLines version fuel).2 := by
  induction fuel generalizing c version with
  | zero =>
      obtain ⟨ts, t, ht, hlast, hkind⟩ := h.visible
      exact ⟨⟨ts, t, ⟨ht.rest, ht.read, ht.offset, ht.lineStart⟩, hlast, hkind⟩, h.version⟩
  | succ fuel ih =>
      rw [urlNextLines]
      split_ifs with hmore
      · simp only [Bool.and_eq_true, Option.isNone_iff_eq_none] at hmore
        obtain ⟨hrun, _, hafter⟩ := run_urlNextLine (e := true) hc (ha.blank hmore.1) hmore.2
        obtain ⟨us, _, htook, _⟩ := h.visible
        have hnext := urlEnd_urlNextLine hc (ha.blank hmore.1) hmore.2
        exact ih hrun.live hafter (hnext.behind htook)
      · exact h

/-- **URLs**, from a cursor `w` that may just have warned about a method where `c` stands. -/
lemma urlEnd_urlLines_of_first {w : Cursor} (hrest : w.rest = c.rest) (hread : w.read = c.read)
    (hx : w.exceeded = none) (hurl : c.HasUrl)
    (hfirst : ∀ stop, c.read < stop → stop ≤ c.lineEnd →
      Run true 23 (Form.urlPiece true) c (w.urlPiece stop) ∧ c.read < (w.urlPiece stop).read ∧
        (w.urlPiece stop).read ≤ stop) :
    UrlEnd c w.urlLines.1 w.urlLines.2 := by
  have hpos := Nat.lt_add_of_pos_right hurl.pos (n := c.read)
  have hstop : c.read + (Lookahead.splitVersion (Lookahead.line c.rest)).1 ≤ c.lineEnd :=
    Nat.add_le_add_left (Lookahead.splitVersion_bounds c.rest).1 _
  obtain ⟨hline, hend⟩ := run_urlLine_of_first hrest hread hx ⟨hpos.le, hstop⟩ hpos
    (hfirst _ hpos hstop)
  simp only [urlLines, hrest, hread]
  exact urlEnd_urlNextLines _ hline.live (afterUrl_of_content hline hend hurl.pos)
    (.of_content hline hurl hend)

lemma urlEnd_targetUrl (hc : c.Live) (hurl : c.HasUrl) :
    UrlEnd c c.targetUrl.1 c.targetUrl.2 := by
  have h := urlEnd_urlLines_of_first (c := c.opened) rfl rfl hc.exceeded hurl
    fun stop h hl => run_urlPiece hc.opened h hl
  rw [targetUrl_eq hurl]
  exact h.closed

lemma urlEnd_targetUrl_warned {d : Diagnostic} (hc : c.Live) (hs : c.sees .word)
    (hurl : c.HasUrl) :
    UrlEnd c (c.fileAt c.offset d).targetUrl.1 (c.fileAt c.offset d).targetUrl.2 := by
  have h := urlEnd_urlLines_of_first (c := c.opened) (fileAt_rest ..) (fileAt_read ..)
    ((fileAt_exceeded _ d _).trans hc.exceeded) hurl
    fun stop h hl => run_urlPiece_warned hc.opened hs h hl
  rw [targetUrl_fileAt hurl]
  exact h.closed

/-! ### Request lines -/

/-- The URL of a request. -/
lemma lays_url (h : Run true k (Form.targetUrl true) c c') (hurl : c.HasUrl)
    (hend : UrlEnd c c' version) : Lays all around c c' := by
  intro front hr
  refine LaysAt.atom hr h rfl (by decide) fun here _ _ ht _ => ?_
  obtain ⟨ts, t, ht', hlast, hkind⟩ := hend.visible
  obtain rfl : here = ts := (ht.eq_take ht'.read).trans (ht'.eq_take ht'.read).symm
  obtain ⟨u, us, hrest, hnl, hblank⟩ := hurl
  have hne : here ≠ [] := by
    rintro rfl
    cases hlast
  have hhead : here.head? = some u := by
    have hfirst := congrArg List.head? ht.rest
    rw [hrest, List.head?_append_of_ne_nil here hne] at hfirst
    exact hfirst.symm
  refine ⟨hne, fun x hx => ?_, fun x hx => ?_⟩
  · obtain rfl := Option.some.inj (hhead.symm.trans hx)
    exact ⟨hblank, hnl⟩
  · obtain rfl := Option.some.inj (hlast.symm.trans hx)
    exact hkind

/-- A word as a node of its own, of which something is claimed. -/
lemma lays_word {K : Kind} (hc : c.Live) (hs : c.sees .word) (hK : K ∉ Tree.containerKinds)
    (hclaim : ∀ s : Tree.Site, ∀ here, s.tree.text = Lookahead.headText c.rest → s.Claim here K)
    [Form.Whole true true (Form.node K Form.text)] :
    Lays all around c (c.leaf K (c.read + 1)) := by
  intro front hr
  have hlt := read_lt_lineEnd_of_sees hs (by decide)
  obtain ⟨hrun, hread⟩ := run_leaf (e := true) (K := K) hc (Nat.lt_add_one c.read) hlt
  refine LaysAt.atom hr hrun rfl hK fun here ts _ ht hover => hclaim _ here ?_
  obtain ⟨t, us, hrest, _⟩ := exists_of_sees hs
  calc (Tree.node K ts).text = Token.textOf here := by rw [Tree.text_node, hover.textOf_eq]
    _ = Token.textOf (c.rest.take 1) := by rw [ht.eq_take hread]
    _ = Lookahead.headText c.rest := by simp [hrest, Lookahead.headText]

/-- A version is found where the cursor stands behind a URL. -/
def VersionAhead (c : Cursor) (version : Option Nat) : Prop :=
  ∀ v, version = some v → Lookahead.isVersion (c.rest.drop (v - c.read))

/-- **A method and the URL** behind it, or a URL alone. -/
lemma lays_target (hc : c.Live) (hurl : c.HasUrl) :
    Lays all around c c.method.targetUrl.1 ∧
      VersionAhead c.method.targetUrl.1 c.method.targetUrl.2 := by
  have hlook := run_look (e := true) hc
  have hurl' : c.look.HasUrl := by rwa [HasUrl, look_rest]
  -- behind a method and without one the URL is laid out alike
  have hbare : ∀ {d : Cursor}, d.Live → d.HasUrl →
      Lays all around d d.targetUrl.1 ∧ VersionAhead d.targetUrl.1 d.targetUrl.2 := by
    intro d hd hurl
    have hend := urlEnd_targetUrl hd hurl
    exact ⟨lays_url (run_targetUrl hd hurl).1 hurl hend, hend.version⟩
  suffices h : Lays all around c.look c.method.targetUrl.1 ∧
      VersionAhead c.method.targetUrl.1 c.method.targetUrl.2 from
    ⟨(Lays.look hc).trans h.1, h.2⟩
  have hstep := method_step c
  generalize c.look = d at *
  generalize c.method = m at hstep ⊢
  cases hstep with
  | method hs _ hmore hname =>
      have hlt := read_lt_lineEnd_of_sees hs (by decide)
      have hleaf := (run_leaf (e := true) (K := .method) hlook.live (Nat.lt_add_one d.read) hlt).1
      have hword : Lays all around d (d.leaf .method (d.read + 1)) := by
        refine lays_word hlook.live hs (by decide) fun s _ htext => ?_
        show s.tree.text ∈ Lookahead.methods
        rw [htext]
        exact hname
      obtain ⟨htarget, hversion⟩ := hbare (run_method (e := true) hlook.live hs).live
        (hasUrl_after_method hlook.live.lexed hs hmore)
      exact ⟨(hword.trans (Lays.eatBlank hleaf.live)).trans htarget, hversion⟩
  | warned hs x =>
      have hend := urlEnd_targetUrl_warned (d := x) hlook.live hs hurl'
      exact ⟨lays_url (run_targetUrl_warned hlook.live hs hurl').1 hurl' hend, hend.version⟩
  | bare => exact hbare hlook.live hurl'

/-- A version as a node of its own. -/
lemma lays_versionLeaf (hc : c.Live) (hv : Lookahead.isVersion c.rest) :
    Lays all around c (c.leaf .httpVersion (c.read + 3)) := by
  intro front hr
  have hlen := Lookahead.isVersion_le hv
  obtain ⟨hrun, hread⟩ := run_leaf (e := true) (K := .httpVersion) hc
    (show c.read < c.read + 3 by omega) (Nat.add_le_add_left hlen _)
  have hversion : Run true 0 Form.version c (c.leaf .httpVersion (c.read + 3)) := hrun
  refine LaysAt.atom hr hversion rfl (by decide) fun here _ _ ht _ => ?_
  rw [ht.eq_take hread]
  exact ⟨Lookahead.isVersion_take hv, List.length_take_of_le (hlen.trans (Lookahead.lineLength_le _))⟩

lemma lays_version (hc : c.Live) (hv : VersionAhead c version) :
    Lays all around c (c.version version) := by
  rw [Cursor.version.eq_def]
  cases version with
  | none => exact .refl c
  | some v =>
      obtain ⟨hblank, _⟩ := run_eatBlank (e := true) hc
      dsimp only
      split_ifs with hat
      · have hversion : Lookahead.isVersion c.eatBlank.rest := by
          rw [hblank.rest_eq, hat]
          exact hv v rfl
        refine (Lays.eatBlank hc).trans ?_
        rw [← hat]
        exact lays_versionLeaf hblank.live hversion
      · exact Lays.eatBlank hc

/-- **Request lines.** -/
lemma lays_requestLine (hc : c.Live) (hurl : c.HasUrl) : Lays all around c c.requestLine := by
  obtain ⟨htarget, _, hafter⟩ := run_target (e := true) hc hurl
  obtain ⟨hlays, hversion⟩ : Lays all around c c.method.targetUrl.1 ∧ _ := lays_target hc hurl
  exact (hlays.trans (lays_version htarget.live hversion)).trans
    (Lays.endLine (run_version (e := true) htarget.live hafter).live _)

/-! ### Response lines -/

lemma lays_status (hc : c.Live) : Lays all around c c.status := by
  have hlook := run_look (e := true) hc
  refine (Lays.look hc).trans ?_
  simp only [status]
  generalize c.look = d at *
  by_cases hs : d.sees .word && Lookahead.isStatusCode (Lookahead.headText d.rest)
  · rw [if_pos hs]
    simp only [Bool.and_eq_true] at hs
    have hlt := read_lt_lineEnd_of_sees hs.1 (by decide)
    have hleaf := (run_leaf (e := true) (K := .statusCode) hlook.live (Nat.lt_add_one d.read) hlt).1
    have hcode : Lays all around d (d.leaf .statusCode (d.read + 1)) := by
      refine lays_word hlook.live hs.1 (by decide) fun s _ htext => ?_
      show Lookahead.isStatusCode s.tree.text
      rw [htext]
      exact hs.2
    have hblank := run_eatBlank (e := true) hleaf.live
    exact (hcode.trans (Lays.eatBlank hleaf.live)).trans
      (Lays.of_unmarked (run_statusText hblank.1.live).1 (by decide))
  · rw [if_neg hs]
    exact Lays.of_unmarked (run_rejectLine (p := .expectedStatusCode) hlook.live rfl
      "expected a status code").1 (by decide)

/-- **Response lines.** -/
lemma lays_responseLine (hc : c.Live) (hv : Lookahead.isVersion c.rest) :
    Lays all around c c.responseLine := by
  have hlen := Lookahead.isVersion_le hv
  obtain ⟨hversion, _⟩ := run_leaf (e := true) (K := .httpVersion) hc
    (show c.read < c.read + 3 by omega) (Nat.add_le_add_left hlen _)
  obtain ⟨hblank, _⟩ := run_eatBlank (e := true) hversion.live
  obtain ⟨hstatus, _⟩ := run_status (e := true) hblank.live
  exact (((lays_versionLeaf hc hv).trans (Lays.eatBlank hversion.live)).trans
    (lays_status hblank.live)).trans (Lays.eatNewline hstatus.live)

/-! ### Headers -/

/-- Where something is left, a cursor between lines stands at the start of one. -/
lemma Aligned.lineStart (ha : c.Aligned) (hne : c.rest ≠ []) : c.lineStart = true :=
  ha.resolve_left hne

/-- A comment within a request or a response. -/
lemma lays_comment (hc : c.Live) (hl : c.lineStart = true) (hs : c.sees .hash ∨ c.sees .doubleSlash) :
    Lays all around c c.comment := fun _ hr =>
  LaysAt.atom hr (run_comment hc hs).toRun rfl (by decide) fun _ _ _ _ _ =>
    Or.inl (hr.atLineStart hl)

/-- **A line among the headers.** -/
lemma lays_headerLine (hc : c.Live) (hl : c.lineStart = true) (hb : ¬c.atBlankLine) :
    Lays all around c c.headerLine := by
  have hlook := run_look (e := true) hc
  rw [← look_lineStart] at hl
  have hb' : ¬c.look.atBlankLine := by rwa [atBlankLine, look_rest]
  refine (Lays.look hc).trans ?_
  simp only [headerLine]
  generalize c.look = d at *
  split_ifs with hcomment hname
  · exact lays_comment hlook.live hl (sees_of_seesIn_commentKinds hcomment)
  · exact Lays.line (run_header hlook.live hname).toRun rfl hl (by decide)
  · exact Lays.of_unmarked (run_strayHeaderLine hlook.live hb').toRun (by decide)

/-- **Header lines.** -/
lemma lays_headerLines (hc : c.Live) (ha : c.Aligned) : Lays all around c c.headerLines := by
  refine Lays.loopWhile (by decide) run_headerLine_turn (fun d hd ha hmore => ?_) hc ha
  simp only [Bool.and_eq_true, Bool.not_eq_true', hd.stopped_eq, atEnd,
    List.isEmpty_eq_false_iff] at hmore
  exact lays_headerLine hd (ha.lineStart hmore.1.1) (by rw [hmore.2]; decide)

end Cursor

end RequestFile
