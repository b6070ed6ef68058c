import RequestFile.Proofs.Canonical.Exact

/-!
References to variables, read exactly.

The name in a reference may hold whatever else ends a name or a value: it is told by its own brackets.

* **Names.** Behind its first run a name goes on group by group, each of which ends with a word, a
  hyphen or a bracket (`Lookahead.exists_of_identifierTail`). So a name that is accepted to its last
  token (`Lookahead.IsName`) is accepted in the same way in front of the closer of a reference
  (`Lookahead.IsName.append`), and it does not end with a brace (`Lookahead.IsName.last`).
* **References.** Between its braces a name is scanned apart (`Token.scanFrom_reference`). A search
  passes over the reference (`Lookahead.skips_reference`), and it is read as one node
  (`Cursor.exact_variableRef`).
-/

namespace RequestFile

namespace Lookahead

variable {closer : Kind} {set : KindSet} {ts us : List Token} {t x : Token} {n skip : Nat}

/-! ### Groups -/

/-- A group does not depend on what follows it. -/
lemma groupLength?_append_of_some (h : groupLength? closer ts = some n) (us : List Token) :
    groupLength? closer (ts ++ us) = some n := by
  induction ts generalizing n with
  | nil => cases h
  | cons t ts ih =>
      rw [groupLength?] at h
      rw [List.cons_append, groupLength?]
      split_ifs at h ⊢ with hk hn
      · exact h
      · obtain ⟨m, hm, rfl⟩ := Option.map_eq_some_iff.mp h
        rw [ih hm]
        rfl

/-- A group ends with its closer. -/
lemma last_of_groupLength? (h : groupLength? closer ts = some n) :
    ∃ us t, ts.take n = us ++ [t] ∧ t.kind = closer := by
  induction ts generalizing n with
  | nil => cases h
  | cons t ts ih =>
      rw [groupLength?] at h
      split_ifs at h with hk hn
      · obtain rfl := Option.some.inj h
        exact ⟨[], t, rfl, hk⟩
      · obtain ⟨m, hm, rfl⟩ := Option.map_eq_some_iff.mp h
        obtain ⟨us, u, htake, hu⟩ := ih hm
        exact ⟨t :: us, u, by rw [List.take_succ_cons, htake]; rfl, hu⟩

/-- A group goes up to its first closer. -/
lemma groupLength?_eq (h : ∀ u ∈ ts, u.kind ≠ closer ∧ u.kind ≠ .newline) (ht : t.kind = closer)
    (us : List Token) : groupLength? closer (ts ++ t :: us) = some (ts.length + 1) := by
  induction ts with
  | nil => simp [groupLength?, ht]
  | cons u ts ih =>
      obtain ⟨⟨hk, hn⟩, hts⟩ := List.forall_mem_cons.mp h
      rw [List.cons_append, groupLength?, if_neg hk, if_neg hn, ih hts]
      rfl

lemma lengthOutsideVariablesFrom_skip (set : KindSet) (ts us : List Token) :
    lengthOutsideVariablesFrom set ts.length (ts ++ us)
      = ts.length + lengthOutsideVariables set us := by
  induction ts with
  | nil => exact (Nat.zero_add _).symm
  | cons t ts ih =>
      rw [List.cons_append, List.length_cons, lengthOutsideVariablesFrom, ih]
      omega

/-! ### Names -/

/-- A run of words and hyphens ends in front of something else. -/
lemma identifierRun_append_of_stop (ts : List Token) (ht : identifierKinds.contains t.kind = false)
    (us : List Token) : identifierRun (ts ++ t :: us) = identifierRun ts := by
  rw [identifierRun, identifierRun, List.takeWhile_append]
  split_ifs with hlen
  · rw [List.takeWhile_cons_of_neg (by simp [ht]), List.append_nil, hlen]
  · rfl

/-- The kinds that names end with. -/
def nameEnds : List Kind :=
  [.word, .dash, .doubleDash, .bracketClose, .parenClose]

lemma mem_nameEnds_of_run : ∀ u ∈ ts.take (identifierRun ts), u.kind ∈ nameEnds := by
  have hall : ∀ k ∈ identifierKinds.members, k ∈ nameEnds := by decide
  have htake : ts.take (identifierRun ts) = ts.takeWhile fun t => identifierKinds.contains t.kind :=
    (List.prefix_iff_eq_take.mp (List.takeWhile_prefix _)).symm
  rw [htake]
  exact fun u hu => hall _ (List.contains_iff_mem.mp (List.mem_takeWhile_imp (p := fun t : Token =>
    identifierKinds.contains t.kind) hu))

/-- A group in brackets ends as names do. -/
lemma mem_nameEnds_of_group (hn : groupLength? closer ts = some n) (hc : closer ∈ nameEnds) :
    ∀ u ∈ (x :: ts.take n).getLast?, u.kind ∈ nameEnds := by
  obtain ⟨us, t, htake, ht⟩ := last_of_groupLength? hn
  intro u hu
  rw [htake, ← List.cons_append, List.getLast?_concat] at hu
  obtain rfl := Option.some.inj hu
  rwa [ht]

/-- **Groups** go on a name: what the next one takes, that it takes the same in front of the closer of
a reference, and how it ends. -/
lemma exists_of_identifierTail (h : identifierTailFrom 0 (x :: ts) ≠ 0) :
    ∃ n ≤ ts.length, identifierTailFrom 0 (x :: ts) = identifierTailFrom n ts + 1 ∧
      (∀ t us, t.kind = .varClose → identifierTailFrom 0 (x :: (ts ++ t :: us))
        = identifierTailFrom n (ts ++ t :: us) + 1) ∧
      ∀ u ∈ (x :: ts.take n).getLast?, u.kind ∈ nameEnds := by
  have hle : ∀ {closer : Kind} {n : Nat}, closer ≠ .newline → groupLength? closer ts = some n →
      n ≤ ts.length := fun hc hn => (groupLength?_le hc hn).trans (lineLength_le ts)
  rw [identifierTailFrom] at h
  -- the functions of the grammar are tried in their order: an index, a call, a further name
  split at h
  · next hk =>
      split at h
      · next n hn =>
          exact ⟨n + 2, hle (by decide) hn, by simp [identifierTailFrom, hk, hn],
            fun t us _ => by simp [identifierTailFrom, hk, groupLength?_append_of_some hn],
            mem_nameEnds_of_group hn (by decide)⟩
      · exact absurd rfl h
  · next hk =>
      split at h
      · next n hn =>
          exact ⟨n, hle (by decide) hn, by simp [identifierTailFrom, hk, hn],
            fun t us _ => by simp [identifierTailFrom, hk, groupLength?_append_of_some hn],
            mem_nameEnds_of_group hn (by decide)⟩
      · exact absurd rfl h
  · next hk =>
      split_ifs at h with hdot
      · refine ⟨identifierRun ts, (identifierRun_le ts).trans (lineLength_le ts),
          by simp [identifierTailFrom, hk, hdot], fun t us ht => ?_, fun u hu => ?_⟩
        · have hstop : identifierKinds.contains t.kind = false := by rw [ht]; rfl
          rw [identifierTailFrom, hk]
          simp [hdot, identifierRun_append_of_stop ts hstop]
        · rcases List.mem_cons.mp (List.mem_of_getLast? hu) with rfl | hmem
          · rw [hk]
            decide
          · exact mem_nameEnds_of_run u hmem
      · exact absurd rfl h
  · exact absurd rfl h

/-- Groups that are all that is left are taken in the same way in front of the closer of a
reference. -/
lemma identifierTailFrom_append_of_whole (hskip : skip ≤ ts.length)
    (h : identifierTailFrom skip ts = ts.length) (ht : t.kind = .varClose) (us : List Token) :
    identifierTailFrom skip (ts ++ t :: us) = ts.length := by
  induction ts generalizing skip with
  | nil =>
      obtain rfl := Nat.le_zero.mp hskip
      simp [identifierTailFrom, ht]
  | cons x ts ih =>
      cases skip with
      | succ n =>
          rw [identifierTailFrom, List.length_cons] at h
          rw [List.cons_append, identifierTailFrom, List.length_cons,
            ih (Nat.le_of_succ_le_succ hskip) (Nat.succ_inj.mp h)]
      | zero =>
          obtain ⟨n, hn, heq, happend, _⟩ :=
            exists_of_identifierTail (by rw [h]; exact Nat.succ_ne_zero _)
          rw [heq, List.length_cons] at h
          rw [List.cons_append, happend t us ht, ih hn (Nat.succ_inj.mp h), List.length_cons]

/-- How groups end that are all that is left. -/
lemma last_of_identifierTail (hlast : ∀ u ∈ (x :: ts.take skip).getLast?, u.kind ∈ nameEnds)
    (h : identifierTailFrom skip ts = ts.length) : ∀ u ∈ (x :: ts).getLast?, u.kind ∈ nameEnds := by
  induction ts generalizing x skip with
  | nil => simpa using hlast
  | cons y ts ih =>
      rw [List.getLast?_cons_cons]
      cases skip with
      | succ n =>
          rw [identifierTailFrom, List.length_cons] at h
          rw [List.take_succ_cons, List.getLast?_cons_cons] at hlast
          exact ih hlast (Nat.succ_inj.mp h)
      | zero =>
          obtain ⟨n, _, heq, _, hends⟩ :=
            exists_of_identifierTail (by rw [h]; exact Nat.succ_ne_zero _)
          rw [heq, List.length_cons] at h
          exact ih hends (Nat.succ_inj.mp h)

/-- A name that is accepted to its last token. -/
def IsName (ts : List Token) : Prop :=
  identifierLength? ts = some ts.length

instance decidableIsName (ts : List Token) : Decidable (IsName ts) :=
  inferInstanceAs (Decidable (_ = _))

lemma identifierTailFrom_drop (hn : n ≤ ts.length) :
    identifierTailFrom n ts = n + identifierTailFrom 0 (ts.drop n) := by
  induction ts generalizing n with
  | nil =>
      obtain rfl := Nat.le_zero.mp hn
      rfl
  | cons t ts ih =>
      cases n with
      | zero => simp
      | succ n =>
          rw [identifierTailFrom, ih (Nat.le_of_succ_le_succ hn), List.drop_succ_cons]
          omega

/-- A name is a run that is not empty, and groups. -/
lemma identifierLength?_eq (h : identifierRun ts ≠ 0) :
    identifierLength? ts = some (identifierTailFrom (identifierRun ts) ts) := by
  rw [identifierTailFrom_drop ((identifierRun_le ts).trans (lineLength_le ts)), identifierLength?]
  split
  · next heq => exact absurd heq h
  · rfl

namespace IsName

lemma run_ne_zero (h : IsName ts) : identifierRun ts ≠ 0 := fun hzero => by
  rw [IsName, identifierLength?, hzero] at h
  cases h

lemma tail_eq (h : IsName ts) : identifierTailFrom (identifierRun ts) ts = ts.length :=
  Option.some.inj ((identifierLength?_eq h.run_ne_zero).symm.trans h)

/-- **A name in front of the closer of a reference** is that name. -/
lemma append (h : IsName ts) (ht : t.kind = .varClose) (us : List Token) :
    identifierLength? (ts ++ t :: us) = some ts.length := by
  have hstop : identifierKinds.contains t.kind = false := by rw [ht]; rfl
  have hrun := identifierRun_append_of_stop ts hstop us
  rw [identifierLength?_eq (hrun.trans_ne h.run_ne_zero), hrun]
  exact congrArg some (identifierTailFrom_append_of_whole
    ((identifierRun_le ts).trans (lineLength_le ts)) h.tail_eq ht us)

/-- A name stands on one line. -/
lemma newline (h : IsName ts) : ∀ t ∈ ts, t.kind ≠ .newline := fun t ht =>
  kind_of_mem_take (identifierLength?_bounds h).2 (by rwa [List.take_length])

/-- How a name begins. -/
lemma first (h : IsName ts) : ∃ x us, ts = x :: us ∧ identifierKinds.contains x.kind := by
  have hrun := h.run_ne_zero
  cases ts with
  | nil => exact absurd rfl hrun
  | cons x us =>
      refine ⟨x, us, rfl, by_contra fun hx => hrun ?_⟩
      simp [identifierRun, hx]

/-- No blank stands in front of a name. -/
lemma startsWith_blank (h : IsName ts) (us : List Token) :
    startsWith .whitespace (ts ++ us) = false := by
  obtain ⟨x, xs, rfl, hx⟩ := h.first
  rw [List.cons_append, startsWith_cons, decide_eq_false_iff_not]
  intro hk
  rw [hk] at hx
  cases hx

/-- How a name ends. -/
lemma last (h : IsName ts) : ∀ u ∈ ts.getLast?, u.kind ∈ nameEnds := by
  obtain ⟨x, us, rfl, _⟩ := h.first
  obtain ⟨n, hn⟩ := Nat.exists_eq_succ_of_ne_zero h.run_ne_zero
  have htail := h.tail_eq
  rw [hn, identifierTailFrom, List.length_cons] at htail
  have hends : ∀ u ∈ (x :: us.take n).getLast?, u.kind ∈ nameEnds := by
    rw [← List.take_succ_cons, ← Nat.succ_eq_add_one, ← hn]
    exact fun u hu => mem_nameEnds_of_run u (List.mem_of_getLast? hu)
  exact last_of_identifierTail hends (Nat.succ_inj.mp htail)

end IsName

end Lookahead

/-! ### Tokens -/

namespace Token

open Lookahead (IsName nameEnds)

variable {b : Bool} {id : List Char}

/-- The opener of a reference. -/
def varOpen : Token :=
  ⟨.varOpen, "\x7b\x7b"⟩

/-- The closer of a reference. -/
def varClose : Token :=
  ⟨.varClose, "\x7d\x7d"⟩

/-- The braces of which two are one token. -/
def braces : List (Char × Kind) :=
  [('\x7b', .varOpen), ('\x7d', .varClose)]

lemma scanFrom_braces {c : Char} {k : Kind} (hc : (c, k) ∈ braces) (b : Bool) (ds : List Char) :
    scanFrom b 0 (c :: c :: ds) = ⟨k, String.ofList [c, c]⟩ :: scanFrom false 0 ds := by
  have hall : ∀ q ∈ braces, isWordChar q.1 = false ∧ isBlank q.1 = false ∧
      isStrayBreak q.1 = false ∧ q.1 ≠ '#' ∧ q.1 ≠ '-' ∧ pairs.lookup (q.1, q.1) = some q.2 ∧
      q.2 ≠ .redirectMarker ∧ (q.2 == .newline) = false := by
    decide
  obtain ⟨hw, hb, hs, hh, hd, hp, hk, hn⟩ := hall _ hc
  have hpair : pairKind? c (c :: ds) = some k := hp
  have hlead : lead b c (c :: ds) = (k, 1) := by simp [lead, hw, hb, hs, hh, hd, hpair]
  rw [scanFrom_cons, hlead, hn]
  rfl

/-- A name ends with none of the characters that go on with a brace. -/
lemma borders_reference (hid : IsName (scanFrom b 0 id)) (ds : List Char) :
    Borders id ('\x7d' :: ds) := by
  intro x hx y hy
  obtain rfl := Option.some.inj hy
  obtain ⟨us, t, hts, ht⟩ := exists_getLast_token (x := x) (lexeme_of_mem_scanFrom b id)
    (by rwa [toList_textOf_scanFrom])
  have hmem : t ∈ scanFrom b 0 id := by simp [hts]
  have hend : t.kind ∈ nameEnds := hid.last t (by rw [hts, List.getLast?_concat]; rfl)
  have hx : ∀ q ∈ pairs, q.1.2 = '\x7d' → q.1.1 ≠ x := by
    by_cases hk : t.kind = .word
    · have hword := RunKind.word.forall_mem_text b id t hmem hk x (List.mem_of_getLast? ht)
      have hall : ∀ q ∈ pairs, q.1.2 = '\x7d' → isWordChar q.1.1 = false := by decide
      rintro q hq hqy rfl
      rw [hall q hq hqy] at hword
      cases hword
    · have hopen : ∀ k ∈ nameEnds, k = .word ∨ k ∉ openKinds := by decide
      have hfixed := (lexeme_of_mem_scanFrom b id t hmem).mem_fixedTexts
        ((hopen _ hend).resolve_left hk)
      have hall : ∀ f ∈ fixedTexts, f.1 ∈ nameEnds → ∀ q ∈ pairs, q.1.2 = '\x7d' →
          q.1.1 ∉ f.2.toList := by
        decide
      rintro q hq hqy rfl
      exact hall _ hfixed hend q hq hqy (List.mem_of_getLast? ht)
  exact parted_of_mark (by decide) (fun h => absurd h (by decide)) (by decide) hx

/-- **References**: the name is scanned apart from the braces around it, and the reference from what
follows it. -/
lemma scanFrom_reference (hid : IsName (scanFrom false 0 id)) (b : Bool) (ds : List Char) :
    scanFrom b 0 ('\x7b' :: '\x7b' :: (id ++ '\x7d' :: '\x7d' :: ds))
      = varOpen :: (scanFrom false 0 id ++ varClose :: scanFrom false 0 ds) := by
  rw [scanFrom_braces (k := .varOpen) (by decide),
    scanFrom_append_of_borders (borders_reference hid _),
    scanFrom_braces (k := .varClose) (by decide)]
  rfl

end Token

/-! ### Searches -/

namespace Lookahead

variable {set : KindSet} {ids : List Token}

/-- A search passes over a reference, whatever stands in it. -/
lemma skips_reference (hids : ∀ u ∈ ids, u.kind ≠ .varClose ∧ u.kind ≠ .newline) :
    Skips set (Token.varOpen :: (ids ++ [Token.varClose])) := by
  intro us
  have hgroup := groupLength?_eq hids (t := Token.varClose) rfl us
  have hskip := lengthOutsideVariablesFrom_skip set (ids ++ [Token.varClose]) us
  rw [List.append_assoc, List.singleton_append, List.length_append, List.length_singleton] at hskip
  have hopen : Token.varOpen.kind = .varOpen := rfl
  rw [List.cons_append, List.append_assoc, List.singleton_append, lengthOutsideVariables,
    lengthOutsideVariablesFrom, if_pos hopen, hgroup, Option.getD_some, hskip, List.length_cons,
    List.length_append, List.length_singleton]
  omega

end Lookahead

/-! ### Runs -/

namespace Cursor

open Lookahead (IsName)

variable {stop : Nat} {ids us : List Token} {c : Cursor}

/-- The tree of a reference to a name. -/
def referenceTree (name : String) : Tree :=
  .node .variable [.leaf .varOpen "\x7b\x7b", .node .identifier [.leaf .text name],
    .leaf .varClose "\x7d\x7d"]

lemma exact_variableName (hc : c.Live) (hr : c.rest = ids ++ Token.varClose :: us) (hid : IsName ids)
    (hs : c.read + ids.length ≤ stop) :
    Exact ids [.node .identifier [.leaf .text (Token.textOf ids)]] c (c.variableName stop) := by
  obtain ⟨x, xs, rfl, _⟩ := hid.first
  have hlength := hid.append (t := Token.varClose) rfl us
  rw [← hr] at hlength
  have hlt : c.read < stop := by
    rw [List.length_cons] at hs
    omega
  rw [variableName, if_pos hlt, identifierWithin, hlength]
  dsimp only
  rw [if_pos (by simpa using hs)]
  exact exact_leaf hc hr (List.cons_ne_nil _ _) rfl

lemma exact_blankBeforeCloser_skip (hc : c.Live) (hs : ¬c.sees .whitespace) :
    Exact [] [] c (c.blankBeforeCloser stop) := by
  rw [blankBeforeCloser, on_neg hs]
  split_ifs
  · exact exact_look hc
  · exact .refl hc

lemma exact_variableCloser (hc : c.Live) (hr : c.rest = Token.varClose :: us) (hs : c.read < stop)
    (opener : Span) :
    Exact [Token.varClose] [.leaf .varClose "\x7d\x7d"] c (c.variableCloser stop opener) := by
  have hlook := exact_look hc
  rw [variableCloser, if_pos hs, on_pos (by simp [sees, hr, Token.varClose])]
  exact hlook.trans (exact_bump hlook.live ((look_rest c).trans hr))

/-- **References** are one node. -/
lemma exact_variableRef (hc : c.Live)
    (hr : c.rest = Token.varOpen :: (ids ++ [Token.varClose]) ++ us) (hid : IsName ids)
    (hs : c.read + (ids.length + 2) ≤ stop) :
    Exact (Token.varOpen :: (ids ++ [Token.varClose])) [referenceTree (Token.textOf ids)] c
      (c.variableRef stop) := by
  have hlook := exact_look hc
  have hr' : c.look.opened.rest = [Token.varOpen] ++ (ids ++ ([Token.varClose] ++ us)) := by
    rw [opened, look_rest, hr]
    simp
  have hread : c.look.opened.read = c.read := look_read c
  rw [variableRef, demand_eq (by simp [sees, hr, Token.varOpen])]
  dsimp only [node]
  generalize c.look.span = opener
  have hopen := exact_bump hlook.live.opened hr'
  have hread₁ : c.look.opened.bump.read = c.look.opened.read + 1 := hopen.read
  have hblank : ¬c.look.opened.bump.sees .whitespace := by
    rw [sees, hopen.rest_eq hr', hid.startsWith_blank]
    exact Bool.false_ne_true
  have hbefore := hopen.quiet (exact_eatBlank_skip hopen.live hblank)
  have hread₂ : c.look.opened.bump.eatBlank.read = c.look.opened.read + 1 := hbefore.read
  -- no blank stands in front of the name or behind it, so only the name moves the cursor
  have hname : Exact ids [.node .identifier [.leaf .text (Token.textOf ids)]] _
      (c.look.opened.bump.eatBlank.variableName stop) :=
    exact_variableName hbefore.live (hbefore.rest_eq hr') hid (by omega)
  have hbehind : Exact [] [] _
      ((c.look.opened.bump.eatBlank.variableName stop).blankBeforeCloser stop) :=
    exact_blankBeforeCloser_skip hname.live (by
      simp [sees, hname.rest_eq (hbefore.rest_eq hr'), Token.varClose])
  have hread₃ := (hname.quiet hbehind).read
  have hlt : ((c.look.opened.bump.eatBlank.variableName stop).blankBeforeCloser stop).read < stop := by
    omega
  have hclose := exact_variableCloser hbehind.live
    ((hname.quiet hbehind).rest_eq (hbefore.rest_eq hr')) hlt opener
  rw [if_pos (by omega)]
  exact hlook.trans ((hbefore.trans ((hname.quiet hbehind).trans hclose)).node)

/-- A reference that is all of a text. -/
lemma exact_interpolated_reference (hc : c.Live)
    (hr : c.rest = Token.varOpen :: (ids ++ [Token.varClose]) ++ us) (hid : IsName ids)
    (hs : stop = c.read + (ids.length + 2)) :
    Exact (Token.varOpen :: (ids ++ [Token.varClose])) [referenceTree (Token.textOf ids)] c
      (c.interpolated stop) := by
  have hlook := exact_look hc
  refine exact_interpolated_piece hc hr (List.cons_ne_nil _ _) ?_ (by simpa using hs) ?_
  · rw [List.forall_mem_cons, List.forall_mem_append, List.forall_mem_singleton]
    exact ⟨by decide, hid.newline, by decide⟩
  · rw [interpolatedPiece, on_pos (by simp [sees, hr, Token.varOpen])]
    exact hlook.trans (exact_variableRef hlook.live ((look_rest c).trans hr) hid
      (by rw [look_read]; omega))

end Cursor

end RequestFile
