import RequestFile.Proofs.Run

/-!
Runs of the steps that productions are made of.

* **Questions.** `look` changes nothing that a question asks about, so `on` and `demand` come down
  to the token ahead (`on_pos`, `on_neg`, `demand_eq`).
* **Tokens.** `run_take` is the one step that moves the cursor; `run_bump`, `run_eat`,
  `run_textUntil` and `run_leaf` are taken from it.
* **Line ends.** Trimming leaves at most one blank in front of the end of the line
  (`Run.read_eatBlank`), and a cursor that takes the terminator there is aligned.
* **Reports.** An error that is filed where the cursor stands stands for what is missing
  (`run_fileAt`, `run_reportHere`), and `run_finishLine` ends every line.
-/

namespace RequestFile

open scoped Computability

namespace Cursor

variable {e : Bool} {m : Nat} {k : Kind} {L : TreeLanguage} {stop : Nat} {c c' : Cursor}

/-! ### Questions -/

@[simp]
lemma look_rest (c : Cursor) : c.look.rest = c.rest := by unfold look; split <;> rfl

@[simp]
lemma look_read (c : Cursor) : c.look.read = c.read := by unfold look; split <;> rfl

@[simp]
lemma look_offset (c : Cursor) : c.look.offset = c.offset := by unfold look; split <;> rfl

@[simp]
lemma look_lineStart (c : Cursor) : c.look.lineStart = c.lineStart := by
  unfold look; split <;> rfl

@[simp]
lemma look_built (c : Cursor) : c.look.built = c.built := by unfold look; split <;> rfl

@[simp]
lemma look_reports (c : Cursor) : c.look.reports = c.reports := by unfold look; split <;> rfl

@[simp]
lemma look_lastReport (c : Cursor) : c.look.lastReport = c.lastReport := by
  unfold look; split <;> rfl

@[simp]
lemma look_budget (c : Cursor) : c.look.budget = c.budget := by unfold look; split <;> rfl

@[simp]
lemma look_exceeded (c : Cursor) : c.look.exceeded = c.exceeded := by unfold look; split <;> rfl

@[simp]
lemma look_sees (c : Cursor) (k : Kind) : c.look.sees k = c.sees k := by
  rw [sees, look_rest, sees]

@[simp]
lemma look_lineEnd (c : Cursor) : c.look.lineEnd = c.lineEnd := by
  rw [lineEnd, look_rest, look_read, lineEnd]

lemma Sound.look (hc : c.Sound) : c.look.Sound where
  exceeded := by simpa using hc.exceeded
  limits := by simpa using hc.limits
  charged := by simpa using hc.charged
  lexed := by simpa using hc.lexed
  reported := by simpa using hc.reported

lemma run_look (hc : c.Live) : Run e 1 1 c c.look where
  live := ⟨hc.toSound.look, by simpa [failed] using hc.backed⟩
  grew := ⟨[], [], ⟨by simp, by simp, by simp, by simp⟩, by simp, Tree.over_nil,
    fun _ => Language.nil_mem_one⟩
  reports := by rw [look_reports]
  safe := fun hp hf => by
    rw [look, if_neg (by omega)]
    exact hf
  patient := by
    rw [look]
    split_ifs with h0
    · omega
    · dsimp only
      omega
  fresh := fun h => by simp at h

lemma on_pos {yes no : Cursor → Cursor} (h : c.sees k) : c.on k yes no = yes c.look := by
  simp only [on, look_sees, h, if_true]

lemma on_neg {yes no : Cursor → Cursor} (h : ¬c.sees k) : c.on k yes no = no c.look := by
  simp only [on, look_sees, h]
  rfl

/-- A production that is entered where it begins only asks. -/
lemma demand_eq (h : c.sees k) : c.demand k = c.look :=
  on_pos h

lemma fault_broken (f : Fault) (c : Cursor) : (c.broken f).fault ≠ none := by
  rw [broken]
  cases c.fault <;> simp

/-! ### Taking tokens -/

lemma took_take (c : Cursor) (k : Kind) (n : Nat) : Took (c.rest.take n) c (c.take k n) :=
  ⟨(List.take_append_drop n c.rest).symm, rfl, rfl, rfl⟩

lemma sizeOf_pos {ts : List Token} (h : Token.Lexed ts) (hne : ts ≠ []) : 0 < Token.sizeOf ts := by
  cases ts with
  | nil => exact absurd rfl hne
  | cons t us =>
      have := h.nonempty t List.mem_cons_self
      rw [Token.sizeOf_cons]
      omega

lemma Sound.take (hc : c.Sound) (k : Kind) (n : Nat) : (c.take k n).Sound where
  exceeded := by
    simp only [Cursor.take, Budget.overcharged, hc.exceeded, hc.limits]
    rfl
  limits := by
    simp only [Cursor.take, Budget.charge]
    exact hc.limits
  charged := by
    simp only [Cursor.take, Budget.charge, hc.limits, hc.charged]
    rfl
  lexed := hc.lexed.drop n
  reported := fun o ho => (hc.reported o ho).trans (Nat.le_add_right _ _)

/-- A token leaves the last report behind, whatever it was. -/
lemma Sound.take_live {n : Nat} (hc : c.Sound) (k : Kind) (hne : c.rest.take n ≠ []) :
    (c.take k n).Live where
  toSound := hc.take k n
  backed := fun h => by
    have hle := hc.reported _ h
    have hpos := sizeOf_pos (hc.lexed.take n) hne
    simp only [Cursor.take] at hle
    omega

lemma Live.take (hc : c.Live) (k : Kind) (n : Nat) : (c.take k n).Live := by
  by_cases hne : c.rest.take n = []
  · refine ⟨hc.toSound.take k n, fun h => ?_⟩
    simp only [Cursor.take, hne, Token.sizeOf_nil, Nat.add_zero] at h
    exact hc.backed h
  · exact hc.toSound.take_live k hne

/-- Taking tokens builds a leaf with their text. -/
lemma run_take (hc : c.Live) (k : Kind) (n : Nat)
    (hb : Tree.Block (c.rest.take n) (k, Token.textOf (c.rest.take n)))
    (hw : [.leaf k (Token.textOf (c.rest.take n))] ∈ L) : Run e 0 L c (c.take k n) where
  live := hc.take k n
  grew := ⟨c.rest.take n, [.leaf k (Token.textOf (c.rest.take n))], took_take c k n,
    by simp [Cursor.take], hb.over, fun _ => hw⟩
  reports := List.prefix_rfl
  safe := fun _ hf => hf
  patient := min_le_right _ _
  fresh := fun _ => le_rfl

lemma exists_of_sees (h : c.sees k) : ∃ t us, c.rest = t :: us ∧ t.kind = k :=
  Lookahead.exists_of_startsWith h

lemma ne_nil_of_sees (hs : c.sees k) : c.rest ≠ [] := by
  obtain ⟨t, us, hr, _⟩ := exists_of_sees hs
  rw [hr]
  exact List.cons_ne_nil t us

lemma run_bump_cons {t : Token} {us : List Token} (hc : c.Live) (h : c.rest = t :: us) :
    Run e 0 (Form.leaf t.kind) c c.bump ∧ c.bump.read = c.read + 1 ∧ c.bump.rest = us ∧
      c.bump.lineStart = decide (t.kind = .newline) := by
  have heq : c.bump = c.take t.kind 1 := by rw [bump, h]
  rw [heq]
  have hone : Token.textOf (c.rest.take 1) = t.text := by simp [h]
  refine ⟨run_take hc _ _ ?_ ⟨t, rfl, by rw [hone]⟩, ?_, ?_, ?_⟩
  · rw [hone, h]
    exact .token t
  · simp [take, h]
  · simp [take, h]
  · simp [take, h]

lemma run_bump (hc : c.Live) (h : c.sees k) :
    Run e 0 (Form.leaf k) c c.bump ∧ c.bump.read = c.read + 1 := by
  obtain ⟨t, us, hr, rfl⟩ := exists_of_sees h
  obtain ⟨hrun, hread, _⟩ := run_bump_cons (e := e) hc hr
  exact ⟨hrun, hread⟩

lemma aligned_bump (h : c.sees .newline) : c.bump.Aligned := by
  obtain ⟨t, us, hr, hk⟩ := exists_of_sees h
  exact Or.inr (by simp [bump, take, hr, hk])

/-- A token that does not end the line stands before its end. -/
lemma read_lt_lineEnd {t : Token} {us : List Token} (h : c.rest = t :: us)
    (hk : t.kind ≠ .newline) : c.read < c.lineEnd := by
  rw [lineEnd, h, Lookahead.lineLength_cons, if_neg hk]
  omega

lemma read_lt_lineEnd_of_sees (h : c.sees k) (hk : k ≠ .newline) : c.read < c.lineEnd := by
  obtain ⟨t, us, hr, rfl⟩ := exists_of_sees h
  exact read_lt_lineEnd hr hk

lemma exists_of_lt_finish (h : c.read < c.finish) : ∃ t us, c.rest = t :: us := by
  rw [finish] at h
  exact List.exists_cons_of_length_pos (by omega)

lemma exists_of_lt_lineEnd (h : c.read < c.lineEnd) :
    ∃ t us, c.rest = t :: us ∧ t.kind ≠ .newline := by
  rw [lineEnd] at h
  cases hr : c.rest with
  | nil => simp [hr] at h
  | cons t us =>
      refine ⟨t, us, rfl, fun hk => ?_⟩
      simp [hr, Lookahead.lineLength_cons, hk] at h

lemma segment_cons {t : Token} {us : List Token} (hr : c.rest = t :: us) (h : c.read < stop) :
    c.segment stop = t :: us.take (stop - c.read - 1) := by
  obtain ⟨n, hn⟩ : ∃ n, stop - c.read = n + 1 := ⟨stop - c.read - 1, by omega⟩
  rw [segment, hr, hn, List.take_succ_cons, Nat.add_sub_cancel]

lemma read_le_lineEnd (c : Cursor) : c.read ≤ c.lineEnd :=
  Nat.le_add_right _ _

lemma lineEnd_le_finish (c : Cursor) : c.lineEnd ≤ c.finish :=
  Nat.add_le_add_left (Lookahead.lineLength_le _) _

lemma length_segment (h : stop ≤ c.finish) : (c.segment stop).length = stop - c.read := by
  rw [finish] at h
  rw [segment, List.length_take]
  omega

lemma length_segment_le_sub (c : Cursor) (stop : Nat) : (c.segment stop).length ≤ stop - c.read :=
  List.length_take_le _ _

lemma textUntil_of_le (h : stop ≤ c.read) : c.textUntil stop = c := by
  rw [textUntil, segment, Nat.sub_eq_zero_of_le h]
  rfl

lemma read_textUntil_le (c : Cursor) (stop : Nat) : (c.textUntil stop).read ≤ max c.read stop := by
  rw [textUntil]
  split_ifs
  · exact le_max_left _ _
  · change c.read + (c.segment stop).length ≤ max c.read stop
    have hle := c.length_segment_le_sub stop
    omega

/-- Text up to a position on the line. -/
lemma run_textUntil (hc : c.Live) (h : c.read < stop) (hl : stop ≤ c.lineEnd) :
    Run e 0 Form.text c (c.textUntil stop) ∧ (c.textUntil stop).read = stop := by
  have hlen := length_segment (hl.trans c.lineEnd_le_finish)
  have hne : c.rest.take (stop - c.read) ≠ [] := by
    intro h0
    rw [segment, h0, List.length_nil] at hlen
    omega
  have heq : c.textUntil stop = c.take .text (stop - c.read) := by
    rw [textUntil, segment, if_neg (by simpa using hne)]
  rw [heq]
  have hline : ∀ t ∈ c.rest.take (stop - c.read), t.kind ≠ .newline := fun t ht =>
    Lookahead.kind_of_mem_take (by rw [lineEnd] at hl; omega) ht
  refine ⟨run_take hc _ _ (.text hne hline) ⟨_, hne, hline, rfl⟩, ?_⟩
  · rw [(took_take c _ _).read]
    rw [segment] at hlen
    omega

lemma run_optText (hc : c.Live) (h : c.read ≤ stop) (hl : stop ≤ c.lineEnd) :
    Run e 0 (Form.opt Form.text) c (c.textUntil stop) ∧ (c.textUntil stop).read = stop := by
  rcases h.lt_or_eq with hlt | heq
  · obtain ⟨hrun, hread⟩ := run_textUntil (e := e) hc hlt hl
    exact ⟨hrun.present, hread⟩
  · rw [textUntil_of_le heq.ge]
    exact ⟨(Run.refl hc).absent, heq⟩

/-- A node over text up to a position on the line. -/
lemma run_leaf {K : Kind} (hc : c.Live) (h : c.read < stop) (hl : stop ≤ c.lineEnd) :
    Run e 0 (Form.node K Form.text) c (c.leaf K stop) ∧ (c.leaf K stop).read = stop := by
  obtain ⟨hrun, hread⟩ := run_textUntil (e := e) hc.opened h hl
  exact ⟨hrun.node, hread⟩

lemma run_operator (hc : c.Live) (h : c.sees k) :
    Run e 0 (Form.node .operator (Form.leaf k)) c c.operator ∧ c.operator.read = c.read + 1 := by
  obtain ⟨hrun, hread⟩ := run_bump (e := e) hc.opened h
  exact ⟨hrun.node, hread⟩

lemma run_eat_of_sees (hc : c.Live) (hs : c.sees k) :
    Run e 1 (Form.leaf k) c (c.eat k) ∧ (c.eat k).read = c.read + 1 := by
  have hlook := run_look (e := e) hc
  have heq : c.eat k = c.look.bump := by
    obtain ⟨t, us, hr, _⟩ := exists_of_sees hs
    rw [eat, if_neg (by simp [atEnd, hr]), on_pos hs]
  obtain ⟨hrun, hread⟩ := run_bump (e := e) hlook.live ((look_sees c k).trans hs)
  rw [heq]
  exact ⟨hrun.after hlook, by rw [hread, look_read]⟩

/-- An optional token is taken if it is there. -/
lemma run_eat (hc : c.Live) (k : Kind) :
    Run e 1 (Form.opt (Form.leaf k)) c (c.eat k) ∧
      (c.eat k).read = c.read + (if c.sees k then 1 else 0) := by
  by_cases hs : c.sees k
  · obtain ⟨hrun, hread⟩ := run_eat_of_sees (e := e) hc hs
    rw [if_pos hs]
    exact ⟨hrun.present, hread⟩
  · rw [if_neg hs, eat]
    split_ifs
    · exact ⟨((Run.refl hc).weaken (Nat.zero_le _) le_rfl).absent, rfl⟩
    · rw [on_neg hs]
      exact ⟨(run_look hc).absent, look_read c⟩

lemma run_eatBlank (hc : c.Live) :
    Run e 1 Form.blank c c.eatBlank ∧
      c.eatBlank.read = c.read + (if c.sees .whitespace then 1 else 0) :=
  run_eat hc .whitespace

lemma run_eatNewline (hc : c.Live) :
    Run e 1 Form.lineEnd c c.eatNewline ∧
      c.eatNewline.read = c.read + (if c.sees .newline then 1 else 0) :=
  run_eat hc .newline

lemma bump_le_lineEnd (hs : c.sees k) (hk : k ≠ .newline) : c.bump.read ≤ c.lineEnd := by
  obtain ⟨t, us, hr, rfl⟩ := exists_of_sees hs
  have hlt := read_lt_lineEnd hr hk
  have hread : c.bump.read = c.read + 1 := by simp [bump, take, hr]
  omega

lemma eat_le_lineEnd (hc : c.Live) (hk : k ≠ .newline) : (c.eat k).read ≤ c.lineEnd := by
  rw [(run_eat (e := true) hc k).2]
  split_ifs with hs
  · exact read_lt_lineEnd_of_sees hs hk
  · exact c.read_le_lineEnd

lemma eatBlank_le_lineEnd (hc : c.Live) : c.eatBlank.read ≤ c.lineEnd :=
  eat_le_lineEnd hc (by decide)

/-! ### Ends of lines -/

/-- At the end of its line a cursor sees a terminator, or nothing. -/
lemma end_of_line (h : c.read = c.lineEnd) : c.rest = [] ∨ c.sees .newline := by
  rw [lineEnd] at h
  have h0 : Lookahead.lineLength c.rest = 0 := by omega
  have := Lookahead.head_drop_lineLength c.rest
  rwa [h0, List.drop_zero] at this

lemma aligned_eatNewline (h : c.read = c.lineEnd) : c.eatNewline.Aligned := by
  rcases end_of_line h with hr | hs
  · exact Or.inl (by simp [eatNewline, eat, atEnd, hr])
  · obtain ⟨t, us, hr, _⟩ := exists_of_sees hs
    have heq : c.eatNewline = c.look.bump := by
      rw [eatNewline, eat, if_neg (by simp [atEnd, hr]), on_pos hs]
    rw [heq]
    exact aligned_bump ((look_sees c _).trans hs)

/-- A line end is taken whenever something is left. -/
lemma read_lt_eatNewline (hc : c.Live) (h : c.read = c.lineEnd) (hne : c.rest ≠ []) :
    c.read < c.eatNewline.read := by
  rw [(run_eatNewline (e := true) hc).2, if_pos ((end_of_line h).resolve_left hne)]
  omega

lemma trimmedEnd_bounds (h : c.read ≤ stop) :
    c.read ≤ c.trimmedEnd stop ∧ c.trimmedEnd stop ≤ stop := by
  have hle := (Lookahead.trimmedLength_le _).trans (c.length_segment_le_sub stop)
  rw [trimmedEnd]
  omega

lemma before_bounds (set : KindSet) (h : c.read ≤ stop) :
    c.read ≤ c.before set stop ∧ c.before set stop ≤ stop := by
  have hle := (Lookahead.lengthBefore_le set _).trans (c.length_segment_le_sub stop)
  rw [before]
  omega

lemma outsideVariables_bounds (set : KindSet) (h : c.read ≤ stop) :
    c.read ≤ c.outsideVariables set stop ∧ c.outsideVariables set stop ≤ stop := by
  have hle := (Lookahead.lengthOutsideVariables_le set _).trans (c.length_segment_le_sub stop)
  rw [outsideVariables]
  omega

/-- Between blanks and something else stands one blank at most. -/
lemma read_eatBlank (hc : c.Live) (h : c.read ≤ stop) (hf : stop ≤ c.finish)
    (hb : ∀ t ∈ c.segment stop, t.kind = .whitespace)
    (hn : ¬Lookahead.startsWith .whitespace (c.rest.drop (stop - c.read))) :
    c.eatBlank.read = stop := by
  rw [(run_eatBlank (e := true) hc).2, sees]
  rw [finish] at hf
  have hlex := hc.lexed.blanksApart
  rw [segment] at hb
  cases hr : c.rest with
  | nil =>
      rw [hr, List.length_nil] at hf
      simp
      omega
  | cons t us =>
      rcases hd : stop - c.read with _ | n
      · rw [hr, hd, List.drop_zero] at hn
        rw [if_neg hn]
        omega
      rw [hr, hd] at hb
      have ht : t.kind = .whitespace := hb t (by simp)
      -- blanks do not stand side by side, so the one ahead is all
      have hn : n = 0 := by
        by_contra hpos
        obtain ⟨i, rfl⟩ := Nat.exists_eq_succ_of_ne_zero hpos
        cases us with
        | nil =>
            rw [hr, List.length_singleton] at hf
            omega
        | cons u us =>
            rw [hr] at hlex
            have hu : u.kind = .whitespace := hb u (by simp)
            exact absurd ⟨ht, hu⟩ (List.isChain_cons_cons.mp hlex).1
      rw [if_pos (by simp [ht])]
      omega

/-- What is left of a segment after a run. -/
lemma Run.segment_eq (h : Run e m L c c') (stop : Nat) :
    c'.segment stop = (c.segment stop).drop (c'.read - c.read) := by
  have hle := h.read_le
  rw [segment, segment, h.rest_eq, List.drop_take]
  congr 1
  omega

/-- What trimming has cut off is taken as one blank, unless it has been taken already. -/
lemma Run.read_eatBlank (h : Run e m L c c') (hr : c.trimmedEnd stop ≤ c'.read)
    (hs : c'.read ≤ stop) (hf : stop ≤ c.finish)
    (hn : ¬Lookahead.startsWith .whitespace (c.rest.drop (stop - c.read))) :
    c'.eatBlank.read = stop := by
  refine Cursor.read_eatBlank h.live hs (by rw [h.finish_eq]; exact hf) ?_ ?_
  · intro t ht
    rw [h.segment_eq] at ht
    have hcut : Lookahead.trimmedLength (c.segment stop) ≤ c'.read - c.read := by
      rw [trimmedEnd] at hr
      omega
    exact Lookahead.blank_of_mem_drop_trimmedLength ((List.drop_subset_drop_left _ hcut) ht)
  · have hle := h.read_le
    have hcut : c'.read - c.read + (stop - c'.read) = stop - c.read := by omega
    rwa [h.rest_eq, List.drop_drop, hcut]

/-- At the end of a line stands no blank. -/
lemma not_blank_at_lineEnd (c : Cursor) :
    ¬Lookahead.startsWith .whitespace (c.rest.drop (c.lineEnd - c.read)) := by
  rw [lineEnd, Nat.add_sub_cancel_left]
  rcases Lookahead.head_drop_lineLength c.rest with h | h
  · simp [h]
  · obtain ⟨t, us, hr, hk⟩ := Lookahead.exists_of_startsWith h
    simp [hr, hk]

/-! ### Reports -/

@[simp]
lemma fileAt_rest (o : Nat) (d : Diagnostic) (c : Cursor) : (c.fileAt o d).rest = c.rest := by
  unfold fileAt; split <;> rfl

@[simp]
lemma fileAt_read (o : Nat) (d : Diagnostic) (c : Cursor) : (c.fileAt o d).read = c.read := by
  unfold fileAt; split <;> rfl

@[simp]
lemma reportHere_read (p : Problem) (s : String) (c : Cursor) :
    (c.reportHere p s).read = c.read :=
  fileAt_read ..

/-- An error that is filed where the cursor stands; what is left out there is backed by another. -/
lemma run_fileAt {d : Diagnostic} (hc : c.Live) (hd : d.isError) :
    Run e 0 1 c (c.fileAt c.offset d) ∧ (c.fileAt c.offset d).failed := by
  by_cases hl : c.lastReport = some c.offset
  · rw [fileAt, if_pos hl]
    exact ⟨Run.refl hc, hc.backed hl⟩
  · rw [fileAt, if_neg hl]
    have hfail : Cursor.failed { c with
        reports := c.reports.push d, lastReport := some c.offset } := by
      simp [failed, hd]
    refine ⟨⟨⟨hc.report d, fun _ => hfail⟩, ?_, ?_, fun _ hf => hf, min_le_left _ _,
      fun h => absurd h (lt_irrefl _)⟩, hfail⟩
    · exact ⟨[], [], ⟨rfl, rfl, rfl, rfl⟩, (List.append_nil _).symm, Tree.over_nil,
        fun _ => Language.nil_mem_one⟩
    · rw [Array.toList_push]
      exact List.prefix_append ..

lemma isError_saying {p : Problem} (hp : p.severity = .error) (span : Span) (s : String) :
    ((Diagnostic.new p span).saying s).isError := by
  simp [Diagnostic.isError, Diagnostic.severity, Diagnostic.saying, Diagnostic.new, hp]

lemma run_report {p : Problem} {span : Span} (hc : c.Live) (hp : p.severity = .error)
    (hs : span.start = c.offset) (s : String) :
    Run e 0 1 c (c.report p span s) ∧ (c.report p span s).failed := by
  have heq : c.report p span s = c.fileAt c.offset ((Diagnostic.new p span).saying s) := by
    rw [report, file, ← hs]
    rfl
  rw [heq]
  exact run_fileAt hc (isError_saying hp span s)

/-- A report in place of something required. -/
lemma run_reportHere {p : Problem} (hc : c.Live) (hp : p.severity = .error) (s : String) :
    Run e 0 (Form.lapse e) c (c.reportHere p s) := by
  obtain ⟨hrun, hfail⟩ := run_report (e := e) hc hp (show c.span.start = c.offset from rfl) s
  exact hrun.lapse hfail

lemma run_reportUnclosed {p : Problem} (hc : c.Live) (hp : p.severity = .error)
    (detail label : String) (opener : Span) :
    Run e 0 (Form.lapse e) c (c.reportUnclosed p detail label opener) := by
  have hd := isError_saying hp (opener.extendTo c.offset) detail
  obtain ⟨hrun, hfail⟩ := run_fileAt (e := e) hc
    (d := ((Diagnostic.new p (opener.extendTo c.offset)).saying detail).relatedTo label opener) hd
  exact hrun.lapse hfail

/-! ### Errors -/

lemma run_errorUntil (hc : c.Live) (hl : stop ≤ c.lineEnd) :
    Run e 0 (Form.opt (Form.node .error Form.text)) c (c.errorUntil stop) ∧
      (c.errorUntil stop).read = max c.read stop := by
  rw [errorUntil]
  split_ifs with hs
  · exact ⟨(Run.refl hc).absent, by omega⟩
  · obtain ⟨hrun, hread⟩ := run_leaf (e := e) (K := .error) hc (by omega) hl
    exact ⟨hrun.present, by omega⟩

/-- A report, and the tokens up to a position as an error. -/
lemma run_rejected (hl : stop ≤ c.lineEnd) (hrun : Run e 0 (Form.lapse e) c c')
    (hr : c'.read = c.read) :
    Run e 0 (Form.rejected e) c (c'.errorUntil stop) ∧
      (c'.errorUntil stop).read = max c.read stop := by
  have hle : c'.lineEnd = c.lineEnd := hrun.lineEnd_eq (by rw [hr]; exact c.read_le_lineEnd)
  obtain ⟨herr, hread⟩ := run_errorUntil (e := e) hrun.live (hl.trans hle.ge)
  exact ⟨hrun.trans herr, by rw [hread, hr]⟩

lemma run_rejectLine {p : Problem} (hc : c.Live) (hp : p.severity = .error) (s : String) :
    Run e 0 (Form.rejected e) c (c.rejectLine p s) ∧ (c.rejectLine p s).read = c.lineEnd := by
  have hspan : (if c.read < c.lineEnd then c.spanTo c.lineEnd else c.span).start = c.offset := by
    split_ifs <;> rfl
  obtain ⟨hrun, hfail⟩ := run_report (e := e) hc hp hspan s
  obtain ⟨hrej, hread⟩ := run_rejected le_rfl (hrun.lapse hfail) (fileAt_read ..)
  exact ⟨hrej, hread.trans (max_eq_right c.read_le_lineEnd)⟩

/-- What is left on a line is rejected. -/
lemma run_finishLine (hc : c.Live) (s : String) :
    Run e 1 (Form.rest e) c (c.finishLine s) ∧ (c.finishLine s).read = c.lineEnd := by
  rw [finishLine]
  split_ifs with hend
  · have hr : c.rest = [] := by simpa [atEnd] using hend
    exact ⟨((Run.refl hc).weaken (Nat.zero_le _) le_rfl).absent, by simp [lineEnd, hr]⟩
  by_cases hs : c.sees .newline
  · obtain ⟨t, us, hr, hk⟩ := exists_of_sees hs
    rw [on_pos hs]
    exact ⟨(run_look hc).absent, by simp [lineEnd, hr, Lookahead.lineLength_cons, hk]⟩
  · have hlook := run_look (e := e) hc
    obtain ⟨hrun, hread⟩ := run_rejectLine (e := e) (p := .unexpectedToken) hlook.live rfl s
    rw [on_neg hs]
    exact ⟨(hrun.present.after hlook), by rw [hread, look_lineEnd]⟩

/-- **The end of a line**: a blank, what does not belong there, and the terminator. -/
lemma run_endLine (hc : c.Live) (s : String) :
    Run e 3 (Form.blank * Form.rest e * Form.lineEnd) c
        ((c.eatBlank.finishLine s).eatNewline) ∧
      ((c.eatBlank.finishLine s).eatNewline).Aligned ∧
      c.lineEnd ≤ ((c.eatBlank.finishLine s).eatNewline).read := by
  obtain ⟨hb, _⟩ := run_eatBlank (e := e) hc
  obtain ⟨hf, hread⟩ := run_finishLine (e := e) hb.live s
  obtain ⟨hn, _⟩ := run_eatNewline (e := e) hf.live
  refine ⟨(hb.trans hf).trans hn, aligned_eatNewline ?_, ?_⟩
  · rw [hf.lineEnd_eq hread.le, hread]
  · rw [← hb.lineEnd_eq (eatBlank_le_lineEnd hc), ← hread]
    exact hn.read_le

/-- What `eatNewlines` does in a turn. -/
def newlineTurn (c : Cursor) : Turn :=
  if c.atEnd then .done c else if c.look.sees .newline then .again c.look.bump else .done c.look

/-- Where `eatNewlines` ends aligned: on a line of its own, or in front of a terminator. -/
def BeforeNewlines (c : Cursor) : Prop :=
  c.rest = [] ∨ c.lineStart = true ∨ c.sees .newline

lemma run_newlineTurn (hc : c.Live) (hi : c.BeforeNewlines) :
    Turning e 1 (Form.leaf .newline) 1 BeforeNewlines Aligned c (newlineTurn c) := by
  have hlook := run_look (e := e) hc
  rw [newlineTurn]
  by_cases hend : c.atEnd
  · rw [if_pos hend]
    exact ⟨(Run.refl hc).weaken (Nat.zero_le _) le_rfl, Or.inl (by simpa [atEnd] using hend)⟩
  rw [if_neg hend]
  by_cases hs : c.look.sees .newline
  · rw [if_pos hs]
    obtain ⟨hrun, hread⟩ := run_bump (e := e) hlook.live hs
    refine ⟨hrun.after hlook, by rw [hread, look_read]; omega, ?_⟩
    rcases aligned_bump hs with h | h
    · exact Or.inl h
    · exact Or.inr (Or.inl h)
  · rw [if_neg hs]
    rw [look_sees] at hs
    rcases hi with h | h | h
    · exact ⟨hlook, Or.inl (by simpa using h)⟩
    · exact ⟨hlook, Or.inr (by simpa using h)⟩
    · exact absurd h hs

/-- All line terminators ahead. -/
lemma run_eatNewlines (hc : c.Live) (h : c.BeforeNewlines) :
    Run e 2 (Form.leaf .newline)∗ c c.eatNewlines ∧ c.eatNewlines.Aligned := by
  obtain ⟨hrun, hj⟩ := Run.loop (by decide) (fun _ hc hi => run_newlineTurn hc hi) hc h
  exact ⟨hrun.weaken le_rfl (mul_one _).le, hj⟩

end Cursor

end RequestFile
