import RequestFile.Proofs.Canonical.Tokens

/-!
Texts of letters, digits and marks, and the characters that join them.

* **Kinds.** A token of such a text has none of the kinds that need another character
  (`Token.kind_of_marked`). So which marks a text may hold decides what it is kept apart from.
* **Joints.** `?`, `&` and `=` are tokens by themselves, and what stands on either side of one is
  scanned apart (`Token.scanFrom_joint`).
-/

namespace RequestFile

/-- A text of letters, digits and some marks. -/
def MarkedText (ms : List Char) (s : String) : Prop :=
  ∀ c ∈ s.toList, c.isAlphanum ∨ c ∈ ms

instance decidableMarkedText (ms : List Char) (s : String) : Decidable (MarkedText ms s) :=
  inferInstanceAs (Decidable (∀ c ∈ s.toList, c.isAlphanum ∨ c ∈ ms))

/-- Another character does not stand in the text. -/
lemma MarkedText.ne {ms : List Char} {s : String} (h : MarkedText ms s) {x : Char}
    (hx : ¬(x.isAlphanum ∨ x ∈ ms)) : ∀ c ∈ s.toList, c ≠ x := by
  rintro c hc rfl
  exact hx (h c hc)

/-- Without blanks among the marks there are none in the text. -/
lemma MarkedText.not_blank {ms : List Char} {s : String} (h : MarkedText ms s)
    (hms : ∀ c ∈ ms, isBlank c = false) : ∀ c ∈ s.toList, isBlank c = false := by
  intro c hc
  rcases h c hc with halnum | hmem
  · refine Bool.eq_false_iff.mpr fun hblank => ?_
    have hword := Token.isWordChar_of_isAlphanum halnum
    rw [Token.not_isWordChar_of_isBlank hblank] at hword
    cases hword
  · exact hms c hmem

namespace Token

variable {ms : List Char} {s : String} {k : Kind}

/-! ### Kinds -/

/-- A kind that no token of a text of letters, digits and some marks has. -/
def Foreign (ms : List Char) (k : Kind) : Prop :=
  (k = .whitespace ∧ ∀ c ∈ ms, isBlank c = false) ∨ (k = .separatorMarker ∧ '#' ∉ ms) ∨
    k ∉ openKinds ∧ ∀ q ∈ fixedTexts, q.1 = k → ∃ x ∈ q.2.toList, ¬x.isAlphanum ∧ x ∉ ms

instance decidableForeign (ms : List Char) (k : Kind) : Decidable (Foreign ms k) :=
  inferInstanceAs (Decidable (_ ∨ _ ∨ _ ∧ _))

/-- **Kinds** of the tokens of a text of letters, digits and marks. -/
lemma kind_of_marked (hs : MarkedText ms s) (hk : Foreign ms k) (b : Bool) :
    ∀ t ∈ scanFrom b 0 s.toList, t.kind ≠ k := by
  rintro t ht rfl
  have hsub : ∀ c ∈ t.text.toList, c ∈ s.toList := fun c hc => (infix_of_mem_scanFrom ht).subset hc
  obtain ⟨c, ds, hc, hmem⟩ := exists_of_mem_scanFrom ht
  rcases hk with ⟨hk, hms⟩ | ⟨hk, hms⟩ | ⟨hopen, hfixed⟩
  · have hblank := RunKind.whitespace.forall_mem_text b s.toList t ht hk c (by simp [hc])
    rw [hs.not_blank hms c hmem] at hblank
    cases hblank
  · have hmarker := (lexed_scanFrom b s.toList).markers t ht hk
    obtain ⟨ds, hds⟩ := List.isPrefixOf_iff_prefix.mp hmarker
    have hhash := hs '#' (hsub _ (by rw [← hds]; exact List.mem_cons_self))
    exact hms (hhash.resolve_left (by decide))
  · obtain ⟨x, hx, halnum, hmem⟩ :=
      hfixed _ ((lexeme_of_mem_scanFrom b _ t ht).mem_fixedTexts hopen) rfl
    exact (hs x (hsub x hx)).elim halnum hmem

/-! ### Joints -/

/-- The characters that join the parts of a list of parameters. -/
def joints : List (Char × Kind) :=
  [('?', .question), ('&', .ampersand), ('=', .equals)]

/-- The token of a joint. -/
def joint (x : Char) (k : Kind) : Token :=
  ⟨k, String.ofList [x]⟩

/-- **Joints**: what stands on either side of one is scanned apart. -/
lemma scanFrom_joint {x : Char} (hx : (x, k) ∈ joints) (b : Bool) (cs ds : List Char) :
    scanFrom b 0 (cs ++ x :: ds) = scanFrom b 0 cs ++ joint x k :: scanFrom false 0 ds := by
  have hmark : x ∈ marks ∧ x ≠ '#' ∧ x ≠ '!' ∧ x ≠ '-' ∧ symbols.lookup x = some k ∧
      isWordChar x = false ∧ isBlank x = false ∧ isStrayBreak x = false ∧ (k == .newline) = false ∧
      ∀ q ∈ pairs, q.1.1 ≠ x ∧ q.1.2 ≠ x := by
    have hall : ∀ q ∈ joints, q.1 ∈ marks ∧ q.1 ≠ '#' ∧ q.1 ≠ '!' ∧ q.1 ≠ '-' ∧
        symbols.lookup q.1 = some q.2 ∧ isWordChar q.1 = false ∧ isBlank q.1 = false ∧
        isStrayBreak q.1 = false ∧ (q.2 == .newline) = false ∧
        ∀ p ∈ pairs, p.1.1 ≠ q.1 ∧ p.1.2 ≠ q.1 := by
      decide +kernel
    exact hall (x, k) hx
  obtain ⟨hm, hh, hbang, hd, hk, hw, hb, hs, hn, hpairs⟩ := hmark
  have hborders : Borders cs (x :: ds) := by
    intro y _ z hz
    obtain rfl := Option.some.inj hz
    exact parted_of_mark hm (fun h => absurd h hh) hbang fun q hq hqx => absurd hqx (hpairs q hq).2
  have hpair : pairKind? x ds = none := pairKind?_eq_none fun d _ k hmem => (hpairs _ hmem).1 rfl
  have hhyphen : ∀ d ∈ (x :: ds).head?, d ≠ '-' := fun d hmem => Option.some.inj hmem ▸ hd
  rw [scanFrom_append_of_borders hborders, scanFrom_lineStart hhyphen _ false, scanFrom_cons,
    lead_symbol hk hw hb hs hh hd hpair, hn]
  rfl

end Token

end RequestFile
