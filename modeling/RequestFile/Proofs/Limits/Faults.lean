import RequestFile.Proofs.Body
import RequestFile.Proofs.Invariant

/-!
Which faults can follow.

At its limit of tokens a parse does not stop at once. Loops end there, but productions that have been
entered go on to their ends, in front of tokens that they would have left behind. Two promises may
break on the way.

* **Questions.** The loop over the lines that go on a URL asks what the next line is, not whether a
  limit was reached, so the cursor may get stuck in it.
* **Arguments.** The parenthesis that opens the arguments of a command is looked up ahead of the value
  in front of it. A value that is cut short does not end there.

All other promises hold whatever is left of the budget (`Blameless`): what a production takes it has
seen, or its line begins with it, or it stands at a position that was looked up and that nothing in
between goes beyond. So a parse that breaks a promise is stuck, or misses a parenthesis that its source
has (`Parsed.excused_of_fault`). It never takes a token at the end.
-/

namespace RequestFile

/-- The faults that a parse of some tokens may end in for want of a budget. -/
inductive Fault.Excused (ts : List Token) : Fault → Prop
  | stuck : Excused ts .stuck
  | arguments : (∃ t ∈ ts, t.kind = .parenOpen) → Excused ts (.misplaced .parenOpen)

namespace Cursor

open Lookahead

variable {ts : List Token} {c d : Cursor} {k : Kind} {stop : Nat}

/-! ### How far productions go -/

lemma rest_bump (c : Cursor) : c.bump.rest = c.rest.drop 1 := by
  rw [bump]
  cases hr : c.rest with
  | nil => exact hr
  | cons t us => simp [take, hr]

lemma read_bump_le (c : Cursor) : c.bump.read ≤ c.read + 1 := by
  rw [bump]
  cases c.rest with
  | nil => exact Nat.le_add_right _ _
  | cons t us => exact Nat.add_le_add_left (List.length_take_le _ _) _

lemma read_on_le {yes no : Cursor → Cursor} (hyes : (yes c.look).read ≤ stop)
    (hno : (no c.look).read ≤ stop) : (c.on k yes no).read ≤ stop := by
  simp only [on]
  split_ifs
  · exact hyes
  · exact hno

lemma read_eat_le (c : Cursor) (k : Kind) : (c.eat k).read ≤ c.read + 1 := by
  rw [eat]
  split_ifs
  · exact Nat.le_add_right _ _
  · exact read_on_le (c.look.read_bump_le.trans (by rw [look_read]))
      ((look_read c).le.trans (Nat.le_add_right _ _))

lemma read_demand (c : Cursor) (k : Kind) : (c.demand k).read = c.read := by
  simp only [demand, on]
  split_ifs <;> exact look_read c

lemma read_leaf_le (h : c.read ≤ stop) : (c.leaf k stop).read ≤ stop :=
  (c.opened.read_textUntil_le stop).trans_eq (max_eq_right h)

lemma read_identifierWithin_le (h : c.read ≤ stop) :
    (c.identifierWithin (some stop)).read ≤ stop := by
  rw [identifierWithin]
  cases identifierLength? c.rest with
  | none => exact (reportHere_read _ _ _).le.trans h
  | some n =>
      dsimp only
      split_ifs with hn
      · exact (read_leaf_le (Nat.le_add_right _ _)).trans (of_decide_eq_true hn)
      · exact (reportHere_read _ _ _).le.trans h

lemma read_variableName_le (h : c.read ≤ stop) : (c.variableName stop).read ≤ stop := by
  rw [variableName]
  split_ifs
  · exact read_identifierWithin_le h
  · exact (reportHere_read _ _ _).le.trans h

lemma read_blankBeforeCloser_le (h : c.read ≤ stop) : (c.blankBeforeCloser stop).read ≤ stop := by
  have hlook : c.look.read ≤ stop := (look_read c).le.trans h
  rw [blankBeforeCloser]
  split_ifs with hlt
  · refine read_on_le ?_ hlook
    split_ifs
    · exact c.look.read_bump_le.trans (by rw [look_read]; exact hlt.le)
    · exact hlook
  · exact h

lemma read_variableCloser_le {opener : Span} (h : c.read ≤ stop) :
    (c.variableCloser stop opener).read ≤ stop := by
  simp only [variableCloser]
  split_ifs with hlt
  · exact read_on_le (c.look.read_bump_le.trans (by rwa [look_read]))
      ((fileAt_read _ _ _).le.trans ((look_read c).le.trans h))
  · exact (fileAt_read _ _ _).le.trans h

/-- A reference that begins in front of a position does not go beyond it, whatever it takes. -/
lemma read_variableRef_le (h : c.read < stop) : (c.variableRef stop).read ≤ stop := by
  have hopen : (c.demand .varOpen).opened.bump.read ≤ stop :=
    calc (c.demand .varOpen).opened.bump.read
        ≤ (c.demand .varOpen).read + 1 := read_bump_le _
      _ = c.read + 1 := by rw [read_demand]
      _ ≤ stop := h
  simp only [variableRef]
  refine read_variableCloser_le (read_blankBeforeCloser_le (read_variableName_le ?_))
  split_ifs with hlt
  · exact (read_eat_le _ _).trans hlt
  · exact hopen

lemma read_interpolated_le (h : c.read ≤ stop) : (c.interpolated stop).read ≤ stop := by
  refine iterate_induction (P := fun d => d.read ≤ stop) (fun _ h => h) (fun d h => ?_) _ h
  split_ifs with hmore
  · have hlt : d.look.read < stop := by
      simpa using (Bool.and_eq_true_iff.mp hmore).1
    have hbefore := before_bounds varOpenKinds hlt.le
    have htext : (d.look.textUntil (d.look.before varOpenKinds stop)).read ≤ stop :=
      calc (d.look.textUntil (d.look.before varOpenKinds stop)).read
          ≤ max d.look.read (d.look.before varOpenKinds stop) := read_textUntil_le _ _
        _ = d.look.before varOpenKinds stop := max_eq_right hbefore.1
        _ ≤ stop := hbefore.2
    exact read_on_le (read_variableRef_le hlt) htext
  · exact h

lemma read_part_le (h : c.read ≤ stop) : (c.part k stop).read ≤ stop := by
  rw [part]
  split_ifs
  · exact read_interpolated_le (c := c.opened) h
  · exact h

/-! ### Blameless cursors -/

/-- A cursor between two of some scanned tokens, with any budget. If it has broken a promise, it is
excused. -/
structure Blameless (ts : List Token) (c : Cursor) : Prop where
  rest : c.rest = ts.drop c.read
  lexed : Token.Lexed c.rest
  excused : ∀ f, c.fault = some f → f.Excused ts

namespace Blameless

variable {turn : Cursor → Turn} {body yes no : Cursor → Cursor} {j : Kind}

lemma congr (h : Blameless ts c) (hr : d.rest = c.rest) (hread : d.read = c.read)
    (hf : d.fault = c.fault) : Blameless ts d where
  rest := by rw [hr, hread, h.rest]
  lexed := hr ▸ h.lexed
  excused := hf ▸ h.excused

/-- Only the first fault counts. -/
lemma broken (h : Blameless ts c) {f : Fault} (hf : c.fault = none → f.Excused ts) :
    Blameless ts (c.broken f) where
  rest := h.rest
  lexed := h.lexed
  excused := fun g hg => by
    rw [Cursor.broken] at hg
    cases hc : c.fault with
    | none =>
        obtain rfl : f = g := by simpa [hc] using hg
        exact hf hc
    | some f' => exact h.excused g (by simpa [hc] using hg)

lemma look (h : Blameless ts c) : Blameless ts c.look := by
  rw [Cursor.look]
  split_ifs
  · exact h.broken fun _ => .stuck
  · exact h.congr rfl rfl rfl

lemma on (h : Blameless ts c)
    (hyes : Blameless ts c.look → c.look.sees k → Blameless ts (yes c.look))
    (hno : Blameless ts c.look → Blameless ts (no c.look)) : Blameless ts (c.on k yes no) := by
  simp only [Cursor.on]
  split_ifs with hs
  · exact hyes h.look hs
  · exact hno h.look

/-! ### Taking tokens -/

lemma take (h : Blameless ts c) (k : Kind) (n : Nat) : Blameless ts (c.take k n) where
  rest := by
    simp only [Cursor.take, h.rest, List.drop_drop, List.length_take, List.length_drop]
    rcases le_or_gt (c.read + n) ts.length with hle | hgt
    · rw [min_eq_left (by omega)]
    · rw [List.drop_of_length_le hgt.le, List.drop_of_length_le (by omega)]
  lexed := h.lexed.drop n
  excused := h.excused

lemma bump (h : Blameless ts c) (hne : c.rest ≠ []) : Blameless ts c.bump := by
  obtain ⟨t, us, hr⟩ := List.exists_cons_of_ne_nil hne
  rw [Cursor.bump, hr]
  exact h.take t.kind 1

lemma bump_of_sees (h : Blameless ts c) (hs : c.sees k) : Blameless ts c.bump :=
  h.bump (ne_nil_of_sees hs)

/-- A production that is entered where it begins takes its first token. -/
lemma demandBump (h : Blameless ts c) (hs : c.sees k) : Blameless ts (c.demand k).bump := by
  rw [demand_eq hs]
  exact h.look.bump_of_sees ((look_sees c k).trans hs)

lemma textUntil (h : Blameless ts c) (stop : Nat) : Blameless ts (c.textUntil stop) := by
  rw [Cursor.textUntil]
  split_ifs
  · exact h
  · exact h.take _ _

lemma eat (h : Blameless ts c) (k : Kind) : Blameless ts (c.eat k) := by
  rw [Cursor.eat]
  split_ifs
  · exact h
  · exact h.on bump_of_sees fun h => h

lemma eatBlank (h : Blameless ts c) : Blameless ts c.eatBlank :=
  h.eat _

lemma eatNewline (h : Blameless ts c) : Blameless ts c.eatNewline :=
  h.eat _

lemma eatBlankLine (h : Blameless ts c) : Blameless ts c.eatBlankLine :=
  h.eatBlank.eatNewline

/-! ### Positions that were looked up -/

lemma drop_rest (h : Blameless ts c) (hle : c.read ≤ stop) :
    c.rest.drop (stop - c.read) = ts.drop stop := by
  rw [h.rest, List.drop_drop, Nat.add_sub_cancel' hle]

/-- In front of a token that was seen ahead, something is left. -/
lemma ne_nil (h : Blameless ts c) (hle : c.read ≤ stop) (hj : startsWith j (ts.drop stop)) :
    c.rest ≠ [] := by
  obtain ⟨t, us, hr, _⟩ := exists_of_startsWith hj
  have hlt : stop < ts.length := by
    by_contra hge
    rw [List.drop_of_length_le (Nat.not_lt.mp hge)] at hr
    cases hr
  rw [h.rest, Ne, List.drop_eq_nil_iff]
  omega

/-- A token of another kind is not taken. -/
lemma read_eat_le_of_ahead (h : Blameless ts c) (hle : c.read ≤ stop)
    (hj : startsWith j (ts.drop stop)) (hk : k ≠ j) : (c.eat k).read ≤ stop := by
  rcases hle.lt_or_eq with hlt | rfl
  · exact (read_eat_le c k).trans hlt
  · have hs : ¬c.sees k := by
      obtain ⟨t, us, hr, rfl⟩ := exists_of_startsWith hj
      rw [sees, h.rest, hr, startsWith_cons]
      simpa using hk.symm
    rw [Cursor.eat]
    split_ifs
    · exact hle
    · rw [on_neg hs]
      exact (look_read c).le

/-! ### Grouping and loops -/

lemma opened (h : Blameless ts c) : Blameless ts c.opened :=
  h.congr rfl rfl rfl

lemma node (h : Blameless ts c) (hb : Blameless ts c.opened → Blameless ts (body c.opened)) :
    Blameless ts (c.node k body) :=
  (hb h.opened).congr rfl rfl rfl

lemma leaf (h : Blameless ts c) (k : Kind) (stop : Nat) : Blameless ts (c.leaf k stop) :=
  h.node fun h => h.textUntil stop

lemma operator (h : Blameless ts c) (hne : c.rest ≠ []) : Blameless ts c.operator :=
  h.node fun h => h.bump hne

lemma errorUntil (h : Blameless ts c) (stop : Nat) : Blameless ts (c.errorUntil stop) := by
  rw [Cursor.errorUntil]
  split_ifs
  · exact h
  · exact h.leaf _ stop

lemma nested (h : Blameless ts c) (hb : ∀ {c}, Blameless ts c → Blameless ts (body c)) :
    Blameless ts (c.nested body) :=
  nested_cases (fun _ => h.congr rfl rfl rfl) fun _ =>
    (hb (c := c.lowered) (h.congr rfl rfl rfl)).congr rfl rfl rfl

lemma ifBefore {c' : Cursor} (h : Blameless ts c) (stop : Nat) (h' : Blameless ts c') :
    Blameless ts (if c.read < stop then c' else c) := by
  split_ifs
  · exact h'
  · exact h

lemma loop (h : Blameless ts c) (hturn : ∀ {c}, Blameless ts c → Blameless ts (turn c).cursor) :
    Blameless ts (c.loop turn) :=
  iterate_induction (fun _ h => h.broken fun _ => .stuck) (fun _ h => hturn h) _ h

lemma loopWhile {more : Cursor → Bool} (h : Blameless ts c)
    (hbody : ∀ {c}, Blameless ts c → more c → Blameless ts (body c)) :
    Blameless ts (c.loopWhile more body) := by
  refine h.loop fun {c} h => ?_
  split_ifs with hmore
  · exact hbody h hmore
  · exact h

lemma eatNewlines (h : Blameless ts c) : Blameless ts c.eatNewlines := by
  refine h.loop fun {c} h => ?_
  dsimp only
  split_ifs with _ hs
  · exact h
  · exact h.look.bump_of_sees hs
  · exact h.look

/-! ### Reports -/

lemma fileAt (h : Blameless ts c) (o : Nat) (x : Diagnostic) : Blameless ts (c.fileAt o x) := by
  rw [Cursor.fileAt]
  split_ifs
  · exact h
  · exact h.congr rfl rfl rfl

lemma reportHere (h : Blameless ts c) (p : Problem) (s : String) : Blameless ts (c.reportHere p s) :=
  h.fileAt _ _

lemma rejectLine (h : Blameless ts c) (p : Problem) (s : String) : Blameless ts (c.rejectLine p s) :=
  (h.fileAt _ _).errorUntil _

lemma finishLine (h : Blameless ts c) (s : String) : Blameless ts (c.finishLine s) := by
  rw [Cursor.finishLine]
  split_ifs
  · exact h
  · exact h.on (fun h _ => h) fun h => h.rejectLine _ s

/-! ### Values and paths -/

lemma identifierWithin (h : Blameless ts c) (bound : Option Nat) :
    Blameless ts (c.identifierWithin bound) := by
  rw [Cursor.identifierWithin]
  cases identifierLength? c.rest with
  | none => exact h.reportHere _ _
  | some n =>
      dsimp only
      split_ifs
      · exact h.leaf _ _
      · exact h.reportHere _ _

lemma identifier (h : Blameless ts c) : Blameless ts c.identifier :=
  h.identifierWithin none

lemma variableName (h : Blameless ts c) (stop : Nat) : Blameless ts (c.variableName stop) := by
  rw [Cursor.variableName]
  split_ifs
  · exact h.identifierWithin _
  · exact h.reportHere _ _

lemma blankBeforeCloser (h : Blameless ts c) (stop : Nat) :
    Blameless ts (c.blankBeforeCloser stop) := by
  rw [Cursor.blankBeforeCloser]
  split_ifs
  · refine h.on (fun h hs => ?_) fun h => h
    split_ifs
    · exact h.bump_of_sees hs
    · exact h
  · exact h

lemma variableCloser (h : Blameless ts c) (stop : Nat) (opener : Span) :
    Blameless ts (c.variableCloser stop opener) := by
  simp only [Cursor.variableCloser]
  split_ifs
  · exact h.on bump_of_sees fun h => h.fileAt _ _
  · exact h.fileAt _ _

lemma variableRef (h : Blameless ts c) (hs : c.sees .varOpen) (stop : Nat) :
    Blameless ts (c.variableRef stop) := by
  simp only [Cursor.variableRef, demand_eq hs]
  refine h.look.node fun h => ?_
  have h := h.bump_of_sees ((look_sees c _).trans hs)
  exact (((h.ifBefore stop h.eatBlank).variableName stop).blankBeforeCloser stop).variableCloser
    stop _

lemma interpolated (h : Blameless ts c) (stop : Nat) : Blameless ts (c.interpolated stop) :=
  h.loopWhile fun h _ => h.on (fun h hs => h.variableRef hs stop) fun h => h.textUntil _

lemma interpolatedNode (h : Blameless ts c) (k : Kind) (stop : Nat) :
    Blameless ts (c.interpolatedNode k stop) :=
  h.node fun h => h.interpolated stop

lemma value (h : Blameless ts c) (stop : Nat) : Blameless ts (c.value stop) := by
  rw [Cursor.value]
  split_ifs
  · exact h
  · exact h.interpolatedNode _ stop

lemma part (h : Blameless ts c) (k : Kind) (stop : Nat) : Blameless ts (c.part k stop) :=
  h.ifBefore stop (h.interpolatedNode k stop)

lemma path (h : Blameless ts c) : Blameless ts c.path := by
  rw [Cursor.path]
  split
  · exact h.reportHere _ _
  · exact h.interpolatedNode _ _

/-! ### Scripts -/

lemma scriptPiece (h : Blameless ts c) (opener : Span) :
    Blameless ts (scriptPiece opener c).cursor := by
  simp only [Cursor.scriptPiece]
  split_ifs with _ hclose hnewline
  · exact h.fileAt _ _
  · exact h.look.bump_of_sees hclose
  · exact h.look.look.bump_of_sees hnewline
  · exact h.look.look.textUntil _

lemma inlineScript (h : Blameless ts c) (hs : c.sees .scriptOpen) : Blameless ts c.inlineScript := by
  simp only [Cursor.inlineScript, demand_eq hs]
  exact h.look.node fun h =>
    (h.bump_of_sees ((look_sees c _).trans hs)).loop fun h => h.scriptPiece _

lemma scriptOrPath (h : Blameless ts c) : Blameless ts c.scriptOrPath :=
  h.on (fun h hs => h.inlineScript hs) path

lemma finishScriptLine (h : Blameless ts c) : Blameless ts c.finishScriptLine := by
  rw [Cursor.finishScriptLine]
  split_ifs
  · exact h
  · exact (h.eatBlank.finishLine _).eatNewlines

lemma scriptLine (h : Blameless ts c) (hne : c.rest ≠ [])
    (hbody : ∀ {c}, Blameless ts c → Blameless ts (body c)) : Blameless ts (c.scriptLine k body) :=
  h.node fun h => (hbody (h.bump hne).eatBlank).finishScriptLine

/-! ### Lines in front of a request -/

lemma separator (h : Blameless ts c) (hs : c.sees .separatorMarker) : Blameless ts c.separator := by
  simp only [Cursor.separator, demand_eq hs]
  exact h.look.node fun h =>
    ((h.bump_of_sees ((look_sees c _).trans hs)).eatBlank.value _).eatBlank.eatNewline

lemma comment (h : Blameless ts c) (hne : c.rest ≠ []) : Blameless ts c.comment :=
  h.node fun h => ((h.bump hne).textUntil _).eatNewline

lemma metadataValue (h : Blameless ts c) : Blameless ts c.metadataValue := by
  simp only [Cursor.metadataValue]
  refine h.ifBefore _ (value ?_ _)
  split_ifs
  · exact h.eatBlank
  · exact h.eatBlank.on (fun h hs => (h.bump_of_sees hs).eatBlank) fun h => h

/-- The `@` of metadata was seen behind the marker of the comment and a blank. -/
lemma metadata (h : Blameless ts c) (hne : c.rest ≠ []) (hm : isMetadata (c.rest.drop 1)) :
    Blameless ts c.metadata := by
  refine h.node fun h => ?_
  have h := h.bump hne
  have hat : c.opened.bump.eatBlank.sees .at := by
    rw [sees, rest_eatBlank_of_lexed h.lexed, rest_bump]
    exact (Bool.and_eq_true_iff.mp hm).1
  exact (h.eatBlank.demandBump hat).identifier.metadataValue.eatBlank.eatNewline

lemma assignedValue (h : Blameless ts c) (stop : Nat) : Blameless ts (c.assignedValue stop) := by
  rw [Cursor.assignedValue]
  split_ifs
  · exact h.reportHere _ _
  · exact h.value stop

lemma assignment (h : Blameless ts c) (hs : c.sees .at) (stop : Nat) :
    Blameless ts (c.assignment stop) := by
  have h := (h.demandBump hs).identifier.eatBlank
  simp only [Cursor.assignment]
  split_ifs
  · exact (h.reportHere _ _).errorUntil _
  · exact h.on (fun h hs => (h.bump_of_sees hs).eatBlank.assignedValue stop) fun h =>
      (h.reportHere _ _).errorUntil _

lemma variableDeclaration (h : Blameless ts c) (hs : c.sees .at) :
    Blameless ts c.variableDeclaration :=
  h.node fun h => (h.assignment hs _).eatBlank.eatNewline

lemma argument (h : Blameless ts c) (hs : c.sees .at) : Blameless ts c.argument :=
  h.node fun h => h.assignment hs _

lemma argumentTurn (h : Blameless ts c) : Blameless ts (argumentTurn c).cursor := by
  simp only [Cursor.argumentTurn]
  split_ifs with hs _ hcomma
  · exact h.look
  · exact (h.look.argument (by simpa using hs)).eatBlank
  · exact ((h.look.argument (by simpa using hs)).eatBlank.look.bump_of_sees hcomma).eatBlank
  · exact (h.look.argument (by simpa using hs)).eatBlank.look

lemma argumentsCloser (h : Blameless ts c) (opener : Span) :
    Blameless ts (c.argumentsCloser opener) := by
  simp only [Cursor.argumentsCloser]
  split_ifs
  · exact h.fileAt _ _
  · exact h.on bump_of_sees fun h => h.fileAt _ _

/-- Arguments may be entered elsewhere if there is a parenthesis. -/
lemma arguments (h : Blameless ts c) (hp : ∃ t ∈ ts, t.kind = .parenOpen) :
    Blameless ts c.arguments := by
  have hbump : Blameless ts (c.demand .parenOpen).bump := by
    by_cases hs : c.sees .parenOpen
    · exact h.demandBump hs
    · have hd : c.demand .parenOpen = c.look.broken (.misplaced .parenOpen) := on_neg hs
      have h : Blameless ts (c.demand .parenOpen) := hd ▸ h.look.broken fun _ => .arguments hp
      -- this fault is on record before a token is taken, so at the end no other one counts
      rcases hr : (c.demand .parenOpen).rest with _ | ⟨t, us⟩
      · rw [Cursor.bump, hr]
        exact h.broken fun hnone => absurd hnone (hd ▸ fault_broken _ _)
      · exact h.bump (by simp [hr])
  exact (hbump.eatBlank.loop argumentTurn).argumentsCloser _

lemma commandValue (h : Blameless ts c) (stop : Nat) : Blameless ts (c.commandValue stop) := by
  rw [Cursor.commandValue]
  split_ifs
  · exact h.value stop
  · exact h.reportHere _ _

/-- The parenthesis of the arguments is looked for among the tokens ahead. -/
lemma command (h : Blameless ts c) : Blameless ts c.command := by
  refine h.node fun h => ?_
  have h := (h.leaf .commandName (c.opened.read + 1)).eatBlank
  generalize (c.opened.leaf .commandName (c.opened.read + 1)).eatBlank = d at h ⊢
  dsimp only
  have hvalue := fun stop => h.commandValue stop
  cases ho : argumentsOffset? (d.segment d.lineEnd) with
  | none => exact ((hvalue _).eatBlank.finishLine _).eatNewline
  | some n =>
      have hp : ∃ t ∈ ts, t.kind = .parenOpen := by
        obtain ⟨t, us, hr, hk⟩ := exists_of_startsWith (startsWith_argumentsOffset? ho)
        have hmem : t ∈ d.segment d.lineEnd := List.mem_of_mem_drop (hr ▸ List.mem_cons_self)
        exact ⟨t, List.mem_of_mem_drop (h.rest ▸ List.mem_of_mem_take hmem), hk⟩
      exact (((hvalue _).eatBlank.arguments hp).eatBlank.finishLine _).eatNewline

/-! ### Request and response lines -/

lemma queryValue (h : Blameless ts c) (stop : Nat) : Blameless ts (c.queryValue stop) :=
  h.ifBefore stop (h.on (fun h hs => (h.operator (ne_nil_of_sees hs)).part _ _) fun h => h)

lemma queryParam (h : Blameless ts c) (stop : Nat) : Blameless ts (c.queryParam stop) := by
  have hbuild : ∀ {c}, Blameless ts c → ∀ i, Blameless ts
      (c.node .queryParam fun c => (c.part .queryParamName i).queryValue stop) := fun h i =>
    h.node fun h => (h.part _ i).queryValue stop
  simp only [Cursor.queryParam]
  split_ifs
  · exact h.on (fun h _ => hbuild h _) fun h => h
  · exact hbuild h _

lemma queryPart (h : Blameless ts c) (hne : c.rest ≠ []) (k : Kind) (stop : Nat) :
    Blameless ts (c.queryPart k stop) :=
  h.node fun h => (h.operator hne).ifBefore stop ((h.operator hne).queryParam stop)

lemma fragment (h : Blameless ts c) (hne : c.rest ≠ []) (stop : Nat) :
    Blameless ts (c.fragment stop) :=
  h.node fun h => (h.operator hne).textUntil _

lemma urlPiece (h : Blameless ts c) (stop : Nat) : Blameless ts (c.urlPiece stop) := by
  have h := h.look
  simp only [Cursor.urlPiece]
  split_ifs with hquestion hampersand hhash hopen
  · exact h.queryPart (ne_nil_of_sees hquestion) _ stop
  · exact h.queryPart (ne_nil_of_sees hampersand) _ stop
  · exact h.fragment (ne_nil_of_sees hhash) stop
  · exact h.variableRef hopen stop
  · exact h.textUntil _

lemma urlLine (h : Blameless ts c) (stop : Nat) : Blameless ts (c.urlLine stop) :=
  h.loopWhile fun h _ => h.urlPiece stop

lemma urlNextLine (h : Blameless ts c) : Blameless ts c.urlNextLine.1 :=
  h.eatBlank.eatNewline.eatBlank.urlLine _

lemma urlNextLines (h : Blameless ts c) (version : Option Nat) (fuel : Nat) :
    Blameless ts (c.urlNextLines version fuel).1 := by
  induction fuel generalizing c version with
  | zero => exact h.broken fun _ => .stuck
  | succ fuel ih =>
      rw [Cursor.urlNextLines]
      split_ifs
      · exact ih h.urlNextLine _
      · exact h

lemma method (h : Blameless ts c) : Blameless ts c.method := by
  have h := h.look
  simp only [Cursor.method]
  split_ifs
  · exact (h.leaf _ _).eatBlank
  · simp only [Cursor.reportMethodCase]
    cases methodLike? (headText c.look.rest) with
    | none => exact h
    | some m => exact h.fileAt _ _
  · exact h

lemma targetUrl (h : Blameless ts c) : Blameless ts c.targetUrl.1 := by
  simp only [Cursor.targetUrl]
  split_ifs
  · exact h.reportHere _ _
  · exact ((h.opened.urlLine _).urlNextLines _ _).congr rfl rfl rfl

lemma version (h : Blameless ts c) (position : Option Nat) : Blameless ts (c.version position) := by
  cases position with
  | none => exact h
  | some v =>
      simp only [Cursor.version]
      split_ifs
      · exact h.eatBlank.leaf _ _
      · exact h.eatBlank

lemma requestLine (h : Blameless ts c) : Blameless ts c.requestLine :=
  ((h.method.targetUrl.version _).eatBlank.finishLine _).eatNewline

lemma status (h : Blameless ts c) : Blameless ts c.status := by
  have h := h.look
  simp only [Cursor.status]
  split_ifs
  · exact ((h.leaf _ _).eatBlank.leaf _ _).eatBlank
  · exact (h.leaf _ _).eatBlank.eatBlank
  · exact h.rejectLine _ _

lemma responseLine (h : Blameless ts c) : Blameless ts c.responseLine :=
  (h.leaf _ _).eatBlank.status.eatNewline

/-! ### Headers -/

lemma checkHeaderName (h : Blameless ts c) (stop : Nat) : Blameless ts (c.checkHeaderName stop) := by
  simp only [Cursor.checkHeaderName]
  split_ifs
  · exact h
  · exact h.fileAt _ _

lemma header (h : Blameless ts c) : Blameless ts c.header := by
  refine h.node fun h => ?_
  have hname := fun stop => ((h.checkHeaderName stop).leaf .headerEntity stop).eatBlank
  refine ((hname _).on (fun h hs => ?_) fun h => h.rejectLine _ _).eatNewline
  exact ((h.bump_of_sees hs).eatBlank.value _).eatBlank

lemma headerLine (h : Blameless ts c) : Blameless ts c.headerLine := by
  have h := h.look
  simp only [Cursor.headerLine]
  split_ifs with hcomment
  · exact h.comment ((sees_of_seesIn_commentKinds hcomment).elim ne_nil_of_sees ne_nil_of_sees)
  · exact h.header
  · exact ((h.fileAt _ _).errorUntil _).eatNewline

lemma headerLines (h : Blameless ts c) : Blameless ts c.headerLines :=
  h.loopWhile fun h _ => h.headerLine

/-! ### Bodies -/

lemma textNode (h : Blameless ts c) (k : Kind) (stop : Nat) : Blameless ts (c.textNode k stop) :=
  h.node fun h => h.loopWhile fun h _ => (h.textUntil _).ifBefore stop (h.textUntil _).eatNewline

lemma external (h : Blameless ts c) (hne : c.rest ≠ []) : Blameless ts c.external :=
  (((h.bump hne).eat .at).eatBlank).path

lemma finishPathLine (h : Blameless ts c) : Blameless ts c.finishPathLine :=
  (h.eatBlank.finishLine _).eatNewline

lemma externalBody (h : Blameless ts c) (hne : c.rest ≠ []) : Blameless ts c.externalBody :=
  (h.node fun h => h.external hne).finishPathLine

lemma multipartExternal (h : Blameless ts c) (hne : c.rest ≠ []) :
    Blameless ts c.multipartExternal :=
  h.node fun h => (h.external hne).finishPathLine

lemma multipartContent (h : Blameless ts c) : Blameless ts c.multipartContent :=
  h.node fun h => (h.textUntil _).eatNewline

/-- The hyphens that close the last boundary are ahead of its first token. -/
lemma boundaryHere (h : Blameless ts c) {textEnd : Nat} (hb : c.boundaryHere textEnd = .last) :
    c.read + 1 ≤ textEnd - 1 ∧ startsWith .doubleDash (ts.drop (textEnd - 1)) := by
  rw [Cursor.boundaryHere] at hb
  split_ifs at hb with hlast
  obtain ⟨hlt, hclose⟩ := Bool.and_eq_true_iff.mp hlast
  have hlt := of_decide_eq_true hlt
  have hle : c.read ≤ textEnd - 1 := by omega
  exact ⟨by omega, h.drop_rest hle ▸ hclose⟩

/-- The closing hyphens of the last boundary were seen behind its text, which does not reach them. -/
lemma boundaryLine (h : Blameless ts c) (hne : c.rest ≠ []) {b : Boundary} {textEnd : Nat}
    (hlast : b = .last → c.read + 1 ≤ textEnd - 1 ∧ startsWith .doubleDash (ts.drop (textEnd - 1))) :
    Blameless ts (c.boundaryLine b textEnd) := by
  refine h.node fun h => ?_
  have h := h.bump hne
  dsimp only
  split_ifs with hb
  · obtain ⟨hle, hclose⟩ := hlast hb
    -- a limit may cut the text short, but it does not make it longer
    have hread : (c.opened.bump.part .boundaryValue (textEnd - 1)).read ≤ textEnd - 1 :=
      read_part_le (c.opened.read_bump_le.trans hle)
    have h := h.part .boundaryValue (textEnd - 1)
    exact ((h.bump (h.ne_nil hread hclose)).eatBlank.finishLine _).eatNewline
  · exact ((h.part _ _).eatBlank.finishLine _).eatNewline

lemma multipartTurn (h : Blameless ts c) (opener : Span) :
    Blameless ts (multipartTurn opener c).cursor := by
  have h' := h.look
  simp only [Cursor.multipartTurn]
  split_ifs with _ _ hboundary hexternal
  · exact h.fileAt _ _
  · exact h.eatBlankLine
  · have hne := ne_nil_of_sees (Bool.and_eq_true_iff.mp hboundary).1
    cases hb : c.look.boundaryHere c.look.boundaryTextEnd with
    | first => exact h'.boundaryLine hne fun hb => by cases hb
    | inner => exact h'.boundaryLine hne fun hb => by cases hb
    | last => exact h'.boundaryLine hne fun _ => h'.boundaryHere hb
  · exact h'.multipartExternal (ne_nil_of_sees (startsWith_of_isExternal hexternal))
  · exact h'.header
  · exact h'.multipartContent

lemma multipart (h : Blameless ts c) (hne : c.rest ≠ []) : Blameless ts c.multipart := by
  simp only [Cursor.multipart]
  exact h.node fun h =>
    (h.boundaryLine hne fun hb => by cases hb).loop fun h => h.multipartTurn _

/-- The equals sign of a parameter was seen behind its name, which does not reach it. -/
lemma formParam (h : Blameless ts c) : Blameless ts c.formParam := by
  simp only [Cursor.formParam]
  have hstop := (outsideVariables_bounds formNameEndKinds c.read_le_lineEnd).1
  generalize c.outsideVariables formNameEndKinds c.lineEnd = nameStop at hstop ⊢
  have hend := trimmedEnd_bounds hstop
  split_ifs with _ hvalue
  · exact h
  · rw [h.drop_rest hstop] at hvalue
    refine h.node fun h => ?_
    have hname : (c.opened.part .formParamName (c.trimmedEnd nameStop)).read ≤ nameStop :=
      calc (c.opened.part .formParamName (c.trimmedEnd nameStop)).read
          ≤ c.trimmedEnd nameStop := read_part_le (c := c.opened) hend.1
        _ ≤ nameStop := hend.2
    have h := h.part .formParamName (c.trimmedEnd nameStop)
    have hread := h.read_eat_le_of_ahead (k := .whitespace) hname hvalue (by decide)
    exact (h.eatBlank.operator (h.eatBlank.ne_nil hread hvalue)).eatBlank.part _ _
  · exact h.node fun h => (h.part _ _).eatBlank

lemma formTurn (h : Blameless ts c) : Blameless ts (formTurn c).cursor := by
  have h := h.formParam.look
  simp only [Cursor.formTurn]
  split_ifs with hs
  · refine (h.operator (ne_nil_of_sees hs)).on (fun h hs => ?_) fun h => h
    split_ifs
    · exact h.bump_of_sees hs
    · exact h
  · exact h

lemma formBody (h : Blameless ts c) : Blameless ts c.formBody :=
  h.node fun h => (((h.loop formTurn).eatBlank).finishLine _).eatNewline

/-- Blank lines are taken up to a position in front of which they stand. -/
lemma skipTo (h : Blameless ts c) (hle : c.read ≤ stop) (hj : startsWith .angleOpen (ts.drop stop)) :
    Blameless ts (c.skipTo stop) ∧ (c.skipTo stop).read ≤ stop := by
  refine iterate_induction (P := fun d => Blameless ts d ∧ d.read ≤ stop)
    (fun d h => ⟨h.1.broken fun _ => .stuck, h.2⟩) (fun d h => ?_) _ ⟨h, hle⟩
  obtain ⟨h, hle⟩ := h
  split_ifs
  · have hblank := h.read_eat_le_of_ahead (k := .whitespace) hle hj (by decide)
    exact ⟨h.eatBlankLine, h.eatBlank.read_eat_le_of_ahead hblank hj (by decide)⟩
  · exact ⟨h, hle⟩

lemma graphqlVariables (h : Blameless ts c) : Blameless ts c.graphqlVariables := by
  simp only [Cursor.graphqlVariables]
  split_ifs
  · exact (h.loopWhile fun h _ => h.eatBlankLine).textNode _ _
  · exact h

/-- The file was seen behind the blank lines. -/
lemma graphqlFile (h : Blameless ts c) : Blameless ts c.graphqlFile := by
  simp only [Cursor.graphqlFile]
  split_ifs with hfile
  · have hopen := (Bool.and_eq_true_iff.mp (Bool.and_eq_true_iff.mp hfile).1).1
    rw [h.rest, List.drop_drop, ← h.rest] at hopen
    obtain ⟨hskip, hread⟩ := h.skipTo (Nat.le_add_right _ _) hopen
    exact hskip.externalBody (hskip.ne_nil hread hopen)
  · exact h

lemma graphqlBody (h : Blameless ts c) : Blameless ts c.graphqlBody :=
  h.node fun h => (h.textNode _ _).graphqlVariables.graphqlFile

/-- What a line of a body section begins takes the tokens that it was told by. -/
lemma bodyItem (h : Blameless ts c) {line : BodyLine} (hb : line.Begins c.rest) :
    Blameless ts (c.bodyItem line) := by
  cases line with
  | blank => exact h.eatBlankLine
  | comment => exact h.comment (hb.elim ne_nil_of_sees ne_nil_of_sees)
  | responseHandler => exact h.scriptLine (ne_nil_of_sees hb) scriptOrPath
  | redirect => exact h.scriptLine (ne_nil_of_sees hb) path
  | multipart => exact h.multipart (ne_nil_of_sees hb.1)
  | external => exact h.externalBody (ne_nil_of_sees hb)
  | xml => exact h.textNode _ _
  | json => exact h.textNode _ _
  | graphql => exact h.graphqlBody
  | form => exact h.formBody
  | raw => exact h.textNode _ _

/-! ### Sections -/

lemma bodySection (h : Blameless ts c) : Blameless ts c.bodySection :=
  h.nested fun h => h.loopWhile fun h _ => h.bodyItem (BodyLine.begins_ofTokens _)

lemma message (h : Blameless ts c) : Blameless ts c.message := by
  have h := h.headerLines
  simp only [Cursor.message]
  split_ifs
  · exact h.bodySection
  · exact h

lemma request (h : Blameless ts c) : Blameless ts c.request :=
  h.nested fun h => h.node fun h => h.requestLine.message

lemma response (h : Blameless ts c) : Blameless ts c.response :=
  h.nested fun h => h.node fun h => h.responseLine.message

/-- A line in front of a request was told by its tokens behind the indentation. -/
lemma preambleTurn (h : Blameless ts c) : Blameless ts (preambleTurn c).cursor := by
  have h' := h.eatBlank
  have hbegins := PreambleLine.begins_ofTokens c.eatBlank.rest
  simp only [Cursor.preambleTurn, ← rest_eatBlank_of_lexed h.lexed]
  generalize PreambleLine.ofTokens c.eatBlank.rest = line at hbegins ⊢
  split_ifs
  · exact h
  · cases line with
    | blank => exact h'.eatNewline
    | comment => exact h'.comment (hbegins.elim ne_nil_of_sees ne_nil_of_sees)
    | metadata =>
        exact h'.metadata (hbegins.1.elim ne_nil_of_sees ne_nil_of_sees) hbegins.2
    | variableDeclaration => exact h'.variableDeclaration hbegins
    | command => exact h'.command
    | preRequestScript => exact h'.scriptLine (ne_nil_of_sees hbegins) scriptOrPath
    | response => exact h'.response
    | request => exact h'.request

lemma fullSection (h : Blameless ts c) : Blameless ts c.fullSection := by
  refine h.nested fun h => h.node fun h => ?_
  split_ifs with hs
  · exact (h.separator hs).loop preambleTurn
  · exact h.loop preambleTurn

/-- **Whole parses** break no other promise, whatever their budget. -/
lemma sections (h : Blameless ts c) : Blameless ts c.sections :=
  h.loopWhile fun h _ => h.fullSection

end Blameless

lemma blameless_start (limits : Limits) (source : String) :
    Blameless (Token.scan source) (start limits (Token.scan source)) where
  rest := rfl
  lexed := Token.lexed_scan source
  excused := fun _ h => by cases h

end Cursor

namespace Parsed

variable {limits : Limits} {source : String} {f : Fault}

/-- **Which faults can follow**: a parse under limits that breaks a promise is stuck, or its source has
a parenthesis that opens arguments and was not met where it was expected. -/
theorem excused_of_fault (h : ofSource limits source = .error (.fault f)) :
    f.Excused (Token.scan source) := by
  have hend := (Cursor.blameless_start limits source).sections
  rw [ofSource, ofCursor] at h
  cases hf : (Cursor.start limits (Token.scan source)).sections.fault with
  | none =>
      rw [hf] at h
      cases hx : (Cursor.start limits (Token.scan source)).sections.exceeded <;> simp [hx] at h
  | some g =>
      rw [hf] at h
      obtain rfl : g = f := by simpa using h
      exact hend.excused g hf

end Parsed

end RequestFile
