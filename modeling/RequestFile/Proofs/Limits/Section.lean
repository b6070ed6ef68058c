import RequestFile.Document
import RequestFile.Parse
import RequestFile.Proofs.Limits.Body
import RequestFile.Proofs.Section

/-!
Sections under limits, and whole parses.

Sections nest three deep: a section, a request or a response, a body section. All of a parse is
`Metered 3`, so a parse that has room for its tokens and for three levels meets no limit, and finds
what a parse without limits finds (`Parsed.ofSource_eq_of_room`). The count of tokens is exact
(`Parsed.ofSource_tokens`).
-/

namespace RequestFile

/-- Whether a request or a response begins, and not a line in front of one. -/
def PreambleLine.isMessage : PreambleLine → Bool
  | response | request => true
  | _ => false

namespace Cursor

namespace Metered

/-! ### Requests and responses -/

lemma message : Metered 1 message := by
  have hbody := ite (p := fun c : Cursor =>
    (!c.stopped && !c.atSeparator && c.atBlankLine) = true) (fun _ => Iff.rfl) bodySection .id
  exact headerLines.andThen hbody

lemma request : Metered 2 request :=
  nested (node (requestLine.andThen message))

lemma response : Metered 2 response :=
  nested (node (responseLine.andThen message))

/-! ### Sections -/

/-- A line in front of a request does not nest; a request or a response does. -/
lemma preambleItem {n : Nat} (line : PreambleLine) (hn : line.isMessage → 2 ≤ n) :
    MeteredTurn n (Cursor.preambleItem line) := by
  cases line with
  | blank => exact .again eatNewline
  | comment => exact .again comment
  | metadata => exact .again metadata
  | variableDeclaration => exact .again variableDeclaration
  | command => exact .again command
  | preRequestScript => exact .again preRequestScript
  | response => exact .done (response.mono (hn rfl))
  | request => exact .done (request.mono (hn rfl))

lemma preambleTurn : MeteredTurn 2 preambleTurn := by
  have hline := MeteredTurn.seen (n := 2)
    (a := fun c => PreambleLine.ofTokens (Lookahead.skipBlanks c.rest)) (fun _ => rfl)
    fun line => .after eatBlank (preambleItem line fun _ => le_rfl)
  exact .ite (p := fun c => (c.stopped || c.atSeparator) = true) (fun _ => Iff.rfl) (.done .id)
    hline

/-- **Sections** are three levels deep. -/
lemma fullSection : Metered 3 fullSection := by
  have hseparator := ite (p := fun c => c.atSeparator = true) (fun _ => Iff.rfl)
    (separator (n := 2)) .id
  have hsection := hseparator.andThen (loop preambleTurn)
  exact nested hsection.node

lemma sections : Metered 3 sections :=
  loopWhile (fun _ => rfl) fullSection

end Metered

end Cursor

/-! ### Whole parses -/

namespace Parsed

open Cursor

variable {limits : Limits} {source : String} {p q : Parsed}

/-- What a parse without limits takes. -/
lemma tokens_start (source : String) :
    (Cursor.start .unlimited (Token.scan source)).sections.budget.tokens
      = (Token.scan source).length := by
  obtain ⟨hrun, _⟩ := run_sections (e := true) (live_start source) (Or.inr rfl)
  exact hrun.live.charged.trans (sections_start source).2

/-- A parse that reaches no limit ends where it ends without limits. -/
lemma sections_freed
    (h : (Cursor.start limits (Token.scan source)).sections.exceeded = none) :
    (Cursor.start .unlimited (Token.scan source)).sections
      = (Cursor.start limits (Token.scan source)).sections.freed :=
  Metered.sections.freed (Cursor.start limits (Token.scan source)) h

/-- **Below its limits** a parse finds what it finds without them. -/
lemma ofSource_eq_of_exceeded
    (h : (Cursor.start limits (Token.scan source)).sections.exceeded = none) :
    ofSource limits source = ofSource .unlimited source := by
  rw [ofSource, ofSource, sections_freed h]
  rfl

/-- A parse that succeeds under limits also does so without them, with the same result. -/
lemma ofSource_unlimited_of_ok (h : ofSource limits source = .ok p) :
    ofSource .unlimited source = .ok p := by
  rw [← h, ofSource_eq_of_exceeded (ofSource_eq_ok.mp h).2.2]

/-- A parse that succeeds is complete, whatever its limits are. -/
lemma complete_of_ok (h : ofSource limits source = .ok p) : p.Complete source := by
  obtain ⟨q, hq, hcomplete⟩ := ofSource_unlimited source
  obtain rfl : q = p := Except.ok.inj (hq.symm.trans (ofSource_unlimited_of_ok h))
  exact hcomplete

/-- Where a limit of tokens is reached, the source has more tokens than that. -/
lemma lt_of_exceeded_tokens
    (h : (Cursor.start limits (Token.scan source)).sections.exceeded = some .tokens) :
    ∃ l, limits.tokens = some l ∧ l < (Token.scan source).length := by
  obtain ⟨l, hl, hlt⟩ := Metered.sections.overrun (Cursor.start limits (Token.scan source)) _ rfl h
  have hfree : (Cursor.start limits (Token.scan source)).freed.sections.budget.tokens
      = (Token.scan source).length := tokens_start source
  exact ⟨l, hl, hlt.trans_eq hfree⟩

/-- Where a limit of depth is reached, it is less than three. -/
lemma lt_of_exceeded_depth
    (h : (Cursor.start limits (Token.scan source)).sections.exceeded = some .depth) :
    ∃ r, limits.depth = some r ∧ r < 3 := by
  obtain ⟨r, hr, hlt⟩ := Metered.sections.overrun (Cursor.start limits (Token.scan source)) _ rfl h
  exact ⟨r, hr, hlt.trans_eq (Nat.zero_add 3)⟩

/-- **Room for everything**: limits that allow all tokens and three levels change nothing. -/
lemma ofSource_eq_of_room (ht : ∀ l, limits.tokens = some l → (Token.scan source).length ≤ l)
    (hd : ∀ r, limits.depth = some r → 3 ≤ r) :
    ofSource limits source = ofSource .unlimited source := by
  refine ofSource_eq_of_exceeded ?_
  cases h : (Cursor.start limits (Token.scan source)).sections.exceeded with
  | none => rfl
  | some l =>
      cases l with
      | tokens =>
          obtain ⟨l, hl, hlt⟩ := lt_of_exceeded_tokens h
          exact absurd (ht l hl) (by omega)
      | depth =>
          obtain ⟨r, hr, hlt⟩ := lt_of_exceeded_depth h
          exact absurd (hd r hr) (by omega)

/-- Documents are parsed as without limits. -/
lemma ofSource_defaultLimits (source : String) :
    ofSource Document.defaultLimits source = ofSource .unlimited source :=
  ofSource_eq_of_room (fun l hl => by cases hl) fun r hr => by cases hr; decide

/-- A parse that succeeds has taken all tokens, and was allowed to. -/
lemma tokens_le_of_ok {l : Nat} (h : ofSource limits source = .ok p) (hl : limits.tokens = some l) :
    (Token.scan source).length ≤ l := by
  have hx := (ofSource_eq_ok.mp h).2.2
  have htokens : (Cursor.start .unlimited (Token.scan source)).sections.budget.tokens
      = (Cursor.start limits (Token.scan source)).sections.budget.tokens :=
    congrArg (·.budget.tokens) (sections_freed hx)
  have hcapped := Metered.sections.capped (Cursor.start limits (Token.scan source))
    (fun _ _ => Nat.zero_le _) l
    ((congrArg Limits.tokens (Metered.sections.limits _)).trans hl)
  rw [← tokens_start, htokens]
  exact hcapped

/-- A parse that ends with a limit has reached it. -/
lemma exceeded_of_limit {l : Limit} (h : ofSource limits source = .error (.limit l)) :
    (Cursor.start limits (Token.scan source)).sections.exceeded = some l := by
  rw [ofSource, ofCursor] at h
  split at h
  · cases h
  · next hx =>
      cases h
      exact hx
  · cases h

/-- **The limit of tokens is exact**: a parse with no limit of depth that may take as many tokens as
there are finds what a parse without limits finds, and takes all of them. With one token less it
does not succeed, and the only limit it can report is that of tokens. -/
theorem ofSource_tokens (source : String) (l : Nat) :
    ((Token.scan source).length ≤ l → ∃ p, ofSource ⟨some l, none⟩ source = .ok p ∧
      ofSource .unlimited source = .ok p ∧ p.tokens = (Token.scan source).length) ∧
    (l < (Token.scan source).length → (∀ p, ofSource ⟨some l, none⟩ source ≠ .ok p) ∧
      ∀ x, ofSource ⟨some l, none⟩ source = .error (.limit x) → x = .tokens) := by
  constructor
  · intro hl
    obtain ⟨p, hp, hcomplete⟩ := ofSource_unlimited source
    have hroom : ofSource ⟨some l, none⟩ source = ofSource .unlimited source :=
      ofSource_eq_of_room (fun l' hl' => by cases hl'; exact hl) (fun r hr => by cases hr)
    exact ⟨p, hroom.trans hp, hp, hcomplete.tokens⟩
  · intro hl
    refine ⟨fun p hp => ?_, fun x hx => ?_⟩
    · exact absurd (tokens_le_of_ok hp rfl) (by omega)
    · cases x with
      | tokens => rfl
      | depth =>
          obtain ⟨r, hr, _⟩ := lt_of_exceeded_depth (exceeded_of_limit hx)
          cases hr

/-- A request line of five tokens, allowed all of them and allowed three. -/
theorem ofSource_tokens_request :
    (∃ p, ofSource ⟨some 5, none⟩ "GET /a\n" = .ok p ∧
      ofSource .unlimited "GET /a\n" = .ok p ∧ p.tokens = (Token.scan "GET /a\n").length) ∧
    (∀ p, ofSource ⟨some 3, none⟩ "GET /a\n" ≠ .ok p) ∧
      ∀ x, ofSource ⟨some 3, none⟩ "GET /a\n" = .error (.limit x) → x = .tokens :=
  ⟨(ofSource_tokens "GET /a\n" 5).1 (by decide +kernel),
    (ofSource_tokens "GET /a\n" 3).2 (by decide +kernel)⟩

end Parsed

end RequestFile
