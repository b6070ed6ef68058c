import RequestFile.Proofs.Lexemes
import RequestFile.Proofs.Section

/-!
The leaves of a tree and the tokens of its source.

The leaves of a parse stand over blocks of tokens, one block below each leaf, and the blocks in a row
are the scanned source (`Parsed.ofSource_leaves`).

* **Blocks.** `Tree.LeafOver` says what the tokens below one leaf are: a leaf that is not text is one
  token of its own kind, and merged text holds no line terminator. So a terminator is always a leaf
  of its own.
* **Counting.** The leaves that are line terminators are the terminators of the source, in order
  (`Tree.Over.filter_newline`). Merging could not hide one.
-/

namespace RequestFile

namespace Token

/-- No token is an error, and none is merged text. -/
lemma Lexeme.kind_ne {t : Token} (h : Lexeme t) : t.kind ≠ .error ∧ t.kind ≠ .text := by
  cases h with
  | fixed hm =>
      have hall : ∀ q ∈ fixedTexts, q.1 ≠ .error ∧ q.1 ≠ .text := by decide
      exact hall _ hm
  | marker _ => exact ⟨by simp, by simp⟩
  | run hk _ _ => cases hk <;> exact ⟨by simp, by simp⟩
  | punct _ _ _ => exact ⟨by simp, by simp⟩

end Token

namespace Tree

variable {ts us : List Token} {l : Kind × String} {ls ms : List (Kind × String)}

/-- What is known about the tokens below a leaf. -/
structure LeafOver (ts : List Token) (l : Kind × String) : Prop where
  nonempty : ts ≠ []
  text_eq : Token.textOf ts = l.2
  /-- A leaf that is not text is one token of its kind. -/
  single : l.1 ≠ .text → ∃ t, ts = [t] ∧ t.kind = l.1
  /-- Merged text stays on its line. -/
  oneLine : l.1 = .text → ∀ t ∈ ts, t.kind ≠ .newline

lemma Block.leafOver (h : Block ts l) : LeafOver ts l := by
  cases h with
  | token t =>
      refine ⟨List.cons_ne_nil t [], (Block.token t).text_eq, fun _ => ⟨t, rfl, rfl⟩, ?_⟩
      intro htext u hu hnl
      rw [List.mem_singleton.mp hu] at hnl
      rw [hnl] at htext
      cases htext
  | text hne hline => exact ⟨hne, rfl, fun h => absurd rfl h, fun _ => hline⟩

namespace LeafOver

/-- A terminator below a leaf is all that stands there. -/
lemma eq_of_newline (h : LeafOver ts l) {t : Token} (ht : t ∈ ts) (hk : t.kind = .newline) :
    ts = [t] ∧ l = (.newline, t.text) := by
  have htext : l.1 ≠ .text := fun htext => h.oneLine htext t ht hk
  obtain ⟨u, rfl, hu⟩ := h.single htext
  obtain rfl := List.mem_singleton.mp ht
  have hs : t.text = l.2 := by simpa [Token.textOf_cons] using h.text_eq
  exact ⟨rfl, Prod.ext (hu.symm.trans hk) hs.symm⟩

/-- The terminators below a leaf, as leaves: the leaf itself, or none. -/
lemma filter_newline (h : LeafOver ts l) :
    (ts.filter (·.kind = .newline)).map (fun t => (t.kind, t.text))
      = [l].filter (·.1 = .newline) := by
  by_cases hl : l.1 = .newline
  · obtain ⟨t, rfl, hk⟩ := h.single (by rw [hl]; decide)
    obtain ⟨_, rfl⟩ := h.eq_of_newline List.mem_cons_self (hk.trans hl)
    simp [hk]
  · have hnone : ts.filter (·.kind = .newline) = [] := by
      rw [List.filter_eq_nil_iff]
      intro t ht hk
      obtain ⟨_, rfl⟩ := h.eq_of_newline ht (of_decide_eq_true hk)
      exact hl rfl
    simp [hnone, hl]

end LeafOver

namespace Over

/-- The blocks below a row of leaves. -/
lemma exists_blocks (h : Over ts ls) :
    ∃ blocks : List (List Token), blocks.flatten = ts ∧ List.Forall₂ LeafOver blocks ls := by
  obtain ⟨blocks, rfl, hblocks⟩ := h
  exact ⟨blocks, rfl, hblocks.imp fun _ _ h => h.leafOver⟩

/-- The tokens below neighbouring leaves are parted where the leaves are. -/
lemma split (h : Over ts (ls ++ ms)) : ∃ us vs, ts = us ++ vs ∧ Over us ls ∧ Over vs ms := by
  obtain ⟨bs, rfl, hbs⟩ := h
  refine ⟨_, _, ?_, ⟨bs.take ls.length, rfl, List.forall₂_take_append _ _ _ hbs⟩,
    ⟨bs.drop ls.length, rfl, List.forall₂_drop_append _ _ _ hbs⟩⟩
  rw [← List.flatten_append, List.take_append_drop]

/-- A tree has the text of the tokens below it. -/
lemma text_eq {t : Tree} (h : Over ts t.leaves) : t.text = Token.textOf ts := by
  have hrow : Over ts (leavesOf [t]) := by rwa [leavesOf, leavesOf, List.append_nil]
  rw [← textOf_singleton, hrow.textOf_eq]

lemma eq_nil (h : Over [] ls) : ls = [] := by
  obtain ⟨bs, hts, hbs⟩ := h
  cases hbs with
  | nil => rfl
  | cons hb _ =>
      rw [List.flatten_cons, eq_comm, List.append_eq_nil_iff] at hts
      rw [hts.1] at hb
      cases hb with
      | text hne => exact absurd rfl hne

/-- Below a single leaf stands one block. -/
lemma leafOver (h : Over ts [l]) : LeafOver ts l := by
  obtain ⟨blocks, rfl, hblocks⟩ := h.exists_blocks
  cases hblocks with
  | cons hb hnil =>
      cases hnil with
      | nil => simpa using hb

/-- **Terminators are leaves**: in a row of leaves stand the terminators of the tokens, in order. -/
lemma filter_newline (h : Over ts ls) :
    ls.filter (·.1 = .newline)
      = (ts.filter (·.kind = .newline)).map fun t => (t.kind, t.text) := by
  obtain ⟨blocks, rfl, hblocks⟩ := h.exists_blocks
  clear h
  induction hblocks with
  | nil => rfl
  | @cons block l blocks ls hb _ ih =>
      calc (l :: ls).filter (·.1 = .newline)
          = [l].filter (·.1 = .newline) ++ ls.filter (·.1 = .newline) := by
            rw [← List.filter_append, List.singleton_append]
        _ = ((block :: blocks).flatten.filter (·.kind = .newline)).map
              fun t => (t.kind, t.text) := by
            rw [← hb.filter_newline, ih, List.flatten_cons, List.filter_append, List.map_append]

/-- Below a leaf stand tokens of the row. -/
lemma exists_block_of_mem (h : Over ts ls) (hl : l ∈ ls) :
    ∃ block, LeafOver block l ∧ ∀ t ∈ block, t ∈ ts := by
  obtain ⟨blocks, rfl, hblocks⟩ := h.exists_blocks
  clear h
  induction hblocks with
  | nil => exact absurd hl List.not_mem_nil
  | @cons block m blocks ls hb _ ih =>
      rcases List.mem_cons.mp hl with rfl | hl
      · exact ⟨block, hb, fun t ht => List.mem_append_left _ ht⟩
      · obtain ⟨b, hb, hsub⟩ := ih hl
        exact ⟨b, hb, fun t ht => List.mem_append_right block (hsub t ht)⟩

/-- A leaf is no error if no token is. -/
lemma kind_ne_error (h : Over ts ls) (hts : ∀ t ∈ ts, t.kind ≠ .error) (hl : l ∈ ls) :
    l.1 ≠ .error := by
  intro herror
  obtain ⟨block, hb, hsub⟩ := h.exists_block_of_mem hl
  obtain ⟨t, rfl, hk⟩ := hb.single (by rw [herror]; decide)
  exact hts t (hsub t List.mem_cons_self) (hk.trans herror)

end Over

end Tree

/-- **The leaves of a parse**: below them the scanned source is cut into blocks, which are not empty.
A leaf that is not text is one token of its own kind; the block below merged text holds no line
terminator, so every terminator of the source is a leaf of its own, and no other leaf is one. No leaf
is an error. -/
theorem Parsed.ofSource_leaves (source : String) :
    ∃ p, Parsed.ofSource .unlimited source = .ok p ∧
      (∃ blocks : List (List Token), blocks.flatten = Token.scan source ∧
        List.Forall₂ Tree.LeafOver blocks p.tree.leaves) ∧
      p.tree.leaves.filter (·.1 = .newline)
        = ((Token.scan source).filter (·.kind = .newline)).map (fun t => (t.kind, t.text)) ∧
      ∀ l ∈ p.tree.leaves, l.1 ≠ .error := by
  obtain ⟨p, hp, hcomplete⟩ := Parsed.ofSource_unlimited source
  have hover := hcomplete.leaves
  have hkinds : ∀ t ∈ Token.scan source, t.kind ≠ .error := fun t ht =>
    (Token.lexeme_of_mem_scan source t ht).kind_ne.1
  exact ⟨p, hp, hover.exists_blocks, hover.filter_newline, fun l hl =>
    hover.kind_ne_error hkinds hl⟩

/-- A line of a body is merged into one leaf of text, and the terminator after it stands apart. -/
example : ∃ p, Parsed.ofSource .unlimited "POST /u\n\na b\n" = .ok p ∧
    p.tree.leaves.drop 5 = [(.text, "a b"), (.newline, "\n")] :=
  ⟨_, rfl, by decide +kernel⟩

end RequestFile
