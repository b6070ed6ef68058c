import RequestFile.Proofs.Placed
import RequestFile.Proofs.Twin.Section

/-!
Where sections start.

* **Sections only at separators.** `Sectioned ts new` says that the trees `new` are sections over
  the tokens `ts`, cut only in front of separators at which a line begins; that is how a parse cuts
  them (`sectioned_sections`).
* **Sections at all separators.** Since what stands in front of a separator is parsed apart, a
  section starts there (`Parsed.joined_append`).

Both together are `Parsed.mem_starts_iff`.
-/

namespace RequestFile

/-! ### Rows of sections -/

/-- A tree that is a section over some tokens. -/
structure IsSection (ts : List Token) (t : Tree) : Prop where
  isNode : t.isNode
  kind : t.kind = .section
  text : t.text = Token.textOf ts
  nonempty : t.text ≠ ""

lemma IsSection.ne_nil {ts : List Token} {t : Tree} (h : IsSection ts t) : ts ≠ [] := by
  rintro rfl
  exact h.nonempty h.text

/-- Sections over neighbouring tokens, each but the first opened by a separator after the end of a
line. -/
inductive Sectioned : List Token → List Tree → Prop
  | nil : Sectioned [] []
  | cons {ts us : List Token} {t : Tree} {new : List Tree} (head : IsSection ts t)
      (cut : us = [] ∨ (∃ u, ts.getLast? = some u ∧ u.kind = .newline) ∧
        Lookahead.startsWith .separatorMarker us)
      (tail : Sectioned us new) : Sectioned (ts ++ us) (t :: new)

namespace Cursor

variable {c : Cursor}

/-- Where a line begins behind some tokens, the last of them is a terminator. -/
lemma Took.exists_newline {ts : List Token} {c' : Cursor} (h : Took ts c c') (hts : ts ≠ [])
    (hl : c'.lineStart = true) : ∃ t, ts.getLast? = some t ∧ t.kind = .newline := by
  obtain ⟨t, ht⟩ := Option.ne_none_iff_exists'.mp (mt List.getLast?_eq_none_iff.mp hts)
  rw [h.lineStart, ht] at hl
  exact ⟨t, ht, of_decide_eq_true hl⟩

/-- A section takes its tokens and is cut off in front of the next one. -/
lemma isSection_fullSection (hc : c.Live) (ha : c.Aligned) (hne : c.rest ≠ []) :
    ∃ ts t, c.rest = ts ++ c.fullSection.rest ∧ IsSection ts t ∧
      c.fullSection.built.toList = c.built.toList ++ [t] ∧
      (c.fullSection.rest = [] ∨ (∃ u, ts.getLast? = some u ∧ u.kind = .newline) ∧
        Lookahead.startsWith .separatorMarker c.fullSection.rest) := by
  obtain ⟨hrun, ⟨ha', hend⟩, hgt⟩ := run_fullSection (e := true) hc ha
  obtain ⟨ts, new, htook, hbuilt, hover, hform⟩ := hrun.grew
  obtain ⟨children, _, rfl⟩ := hform fun _ => rfl
  have htext := hover.textOf_eq
  have hlt := hgt hne
  have hts : ts ≠ [] := by
    rintro rfl
    exact absurd htook.read hlt.ne'
  rw [Tree.textOf_singleton] at htext
  refine ⟨ts, _, htook.rest, ⟨rfl, rfl, htext, fun hempty => ?_⟩, hbuilt, ?_⟩
  · have hlexed := hc.lexed
    rw [htook.rest] at hlexed
    have hpos := sizeOf_pos hlexed.left hts
    rw [Token.sizeOf_eq, ← htext, hempty] at hpos
    exact absurd hpos (by decide)
  · exact or_iff_not_imp_left.mpr fun hmore =>
      ⟨htook.exists_newline hts (ha'.resolve_left hmore), hend.resolve_left hmore⟩

/-- **Sections only at separators.** -/
lemma sectioned_sections (hc : c.Live) (ha : c.Aligned) :
    ∃ new, c.sections.built.toList = c.built.toList ++ new ∧ Sectioned c.rest new := by
  induction hn : c.rest.length using Nat.strong_induction_on generalizing c with
  | h n ih =>
      by_cases hr : c.rest = []
      · rw [sections_of_nil hr, hr]
        exact ⟨[], (List.append_nil _).symm, .nil⟩
      obtain ⟨hrun, hend, _⟩ := run_fullSection (e := true) hc ha
      obtain ⟨ts, t, hrest, hsection, hbuilt, hcut⟩ := isSection_fullSection hc ha hr
      have hlen : c.fullSection.rest.length < n := by
        have hpos := List.length_pos_of_ne_nil hsection.ne_nil
        rw [← hn, hrest, List.length_append]
        omega
      obtain ⟨new, hnew, htail⟩ := ih _ hlen hrun.live hend.1 rfl
      refine ⟨t :: new, ?_, ?_⟩
      · rw [sections_eq hc ha hr, hnew, hbuilt, List.append_assoc, List.singleton_append]
      · rw [hrest]
        exact .cons hsection hcut htail

end Cursor

namespace Sectioned

variable {ts : List Token} {new : List Tree}

lemma eq_nil (h : Sectioned ts new) (hts : ts = []) : new = [] := by
  cases h with
  | nil => rfl
  | cons head _ _ => exact absurd (List.append_eq_nil_iff.mp hts).1 head.ne_nil

/-- Any tree of the row is a section, and a separator opens it unless it is the first. -/
lemma at_split (h : Sectioned ts new) {us vs : List Tree} {t : Tree} (hnew : new = us ++ t :: vs) :
    (∃ ts, IsSection ts t) ∧ (us = [] ∨ ∃ xs ys, ts = xs ++ ys ∧ Tree.textOf us = Token.textOf xs ∧
      (∃ x, xs.getLast? = some x ∧ x.kind = .newline) ∧
      Lookahead.startsWith .separatorMarker ys) := by
  induction h generalizing us with
  | nil => simp at hnew
  | @cons first others s new head cut tail ih =>
      cases us with
      | nil =>
          obtain ⟨rfl, _⟩ := List.cons.inj hnew
          exact ⟨⟨_, head⟩, Or.inl rfl⟩
      | cons u us =>
          obtain ⟨rfl, htail⟩ := List.cons.inj hnew
          obtain ⟨hsection, hcut⟩ := ih htail
          refine ⟨hsection, Or.inr ?_⟩
          rcases hcut with rfl | ⟨xs, ys, rfl, htext, ⟨x, hx, hk⟩, hsep⟩
          · have hne : others ≠ [] := fun hnil => by simp [tail.eq_nil hnil] at htail
            -- the cut is behind the first section, or behind one of the others
            obtain ⟨hlast, hsep⟩ := cut.resolve_left hne
            exact ⟨first, others, rfl, by rw [Tree.textOf_singleton, head.text], hlast, hsep⟩
          · refine ⟨first ++ xs, ys, (List.append_assoc ..).symm, ?_, ⟨x, ?_, hk⟩, hsep⟩
            · rw [← List.singleton_append, Tree.textOf_append, Tree.textOf_singleton, head.text,
                htext, Token.textOf_append]
            · rw [List.getLast?_append, hx]
              rfl

end Sectioned

/-! ### Lines and separators in the source -/

namespace Token

variable {ts : List Token}

/-- Tokens that end with a terminator end a line of the source. -/
lemma Lexed.endsLine_textOf (hl : Lexed ts) (h : ∃ t, ts.getLast? = some t ∧ t.kind = .newline) :
    endsLine (textOf ts) := by
  obtain ⟨t, ht, hk⟩ := h
  rw [endsLine_eq, hl.lineBegins_textOf, ht, Option.map_some, Option.getD_some]
  exact decide_eq_true hk

/-- Tokens that begin with a marker begin with a separator in the source. -/
lemma Lexed.startsSection_textOf (hl : Lexed ts) (h : Lookahead.startsWith .separatorMarker ts) :
    startsSection (textOf ts) := by
  obtain ⟨t, us, rfl, hk⟩ := Lookahead.exists_of_startsWith h
  have hmarker := hl.markers t List.mem_cons_self hk
  rw [startsSection, List.isPrefixOf_iff_prefix] at hmarker ⊢
  rw [textOf_cons, String.toList_append]
  exact hmarker.trans (List.prefix_append ..)

end Token

/-! ### All starts -/

namespace Parsed

/-- Where a section may start: at the front of a source that is not empty, and at a separator at
which a line begins. -/
def SectionStart (source : String) (o : Nat) : Prop :=
  (o = 0 ∧ source ≠ "") ∨
    ∃ a b, source = a ++ b ∧ a.utf8ByteSize = o ∧ endsLine a ∧ startsSection b

/-- The tree of a parse is a row of sections. -/
lemma sectioned_ofSource {source : String} {p : Parsed}
    (h : ofSource .unlimited source = .ok p) :
    ∃ new, p.tree = .node .document new ∧ Sectioned (Token.scan source) new := by
  obtain ⟨new, hbuilt, hsections⟩ :=
    Cursor.sectioned_sections (Cursor.live_start source) (Or.inr rfl)
  obtain ⟨rfl, _⟩ := ofSource_eq_ok.mp h
  have hnew : (Cursor.start .unlimited (Token.scan source)).sections.built.toList = new := hbuilt
  exact ⟨new, by rw [hnew], hsections⟩

/-- Sections start nowhere else. -/
lemma sectionStart_of_mem {source : String} {p : Parsed} (h : ofSource .unlimited source = .ok p)
    {x : Placed} (hx : x ∈ (Placed.mk 0 p.tree).children) : SectionStart source x.start := by
  obtain ⟨new, htree, hsections⟩ := sectioned_ofSource h
  rw [Placed.children, htree] at hx
  obtain ⟨us, t, vs, hnew, rfl⟩ := Placed.mem_sequence.mp hx
  have hlexed := Token.lexed_scan source
  have hsource := Token.textOf_scan source
  obtain ⟨_, rfl | ⟨xs, ys, hscan, htext, hlast, hsep⟩⟩ := hsections.at_split hnew
  · left
    refine ⟨rfl, ?_⟩
    rintro rfl
    have hnil : t :: vs = [] := hnew.symm.trans (hsections.eq_nil rfl)
    exact absurd hnil (List.cons_ne_nil t vs)
  · right
    rw [hscan] at hlexed hsource
    refine ⟨Token.textOf xs, Token.textOf ys, ?_, ?_, hlexed.left.endsLine_textOf hlast,
      hlexed.right.startsSection_textOf hsep⟩
    · rw [← hsource, Token.textOf_append]
    · rw [← htext, ← Tree.sizeOf_eq]
      exact (Nat.zero_add _).symm

/-- A source that is not empty has a section, which starts at its front. -/
lemma exists_first {source : String} {p : Parsed} (h : ofSource .unlimited source = .ok p)
    (hne : source ≠ "") : ∃ t ts, p.tree.children = t :: ts := by
  obtain ⟨q, hq, hcomplete⟩ := ofSource_unlimited source
  obtain rfl : q = p := Except.ok.inj (hq.symm.trans h)
  obtain ⟨new, htree, _⟩ := sectioned_ofSource h
  have htext := hcomplete.lossless
  rw [htree] at htext ⊢
  cases new with
  | nil => exact absurd htext.symm hne
  | cons t ts => exact ⟨t, ts, rfl⟩

/-- A section starts wherever one may. -/
lemma mem_of_sectionStart {source : String} {p : Parsed} (h : ofSource .unlimited source = .ok p)
    {o : Nat} (ho : SectionStart source o) :
    ∃ x ∈ (Placed.mk 0 p.tree).children, x.start = o := by
  rcases ho with ⟨rfl, hne⟩ | ⟨a, b, rfl, rfl, ha, hb⟩
  · obtain ⟨t, ts, hchildren⟩ := exists_first h hne
    refine ⟨⟨0, t⟩, ?_, rfl⟩
    rw [Placed.children, hchildren, Placed.mem_sequence]
    exact ⟨[], t, ts, rfl, rfl⟩
  · obtain ⟨p₁, h₁, hcomplete⟩ := ofSource_unlimited a
    obtain ⟨p₂, h₂, _⟩ := ofSource_unlimited b
    have hjoined := joined_append ha hb h₁ h₂ h
    have hb' : b ≠ "" := by
      rintro rfl
      exact absurd hb (by decide)
    obtain ⟨t, ts, hchildren⟩ := exists_first h₂ hb'
    obtain ⟨new, htree, _⟩ := sectioned_ofSource h₁
    have hsize : Tree.sizeOf p₁.tree.children = a.utf8ByteSize := by
      have htext := hcomplete.lossless
      rw [htree, Tree.text_node] at htext
      rw [htree, Tree.children, Tree.sizeOf_eq, htext]
    refine ⟨⟨0 + Tree.sizeOf p₁.tree.children, t⟩, ?_, by rw [Nat.zero_add, hsize]⟩
    rw [Placed.children, hjoined.tree, Placed.mem_sequence]
    exact ⟨p₁.tree.children, t, ts, by rw [Tree.children, hchildren], rfl⟩

/-- **Where sections start**: below the document there are only sections, none of them empty, and
they start exactly at the front of the source and at the separators at which a line begins,
whatever surrounds these. -/
theorem mem_starts_iff (source : String) :
    ∃ p, ofSource .unlimited source = .ok p ∧
      (∀ t ∈ p.tree.children, t.isNode ∧ t.kind = .section ∧ t.text ≠ "") ∧
      ∀ o, o ∈ (Placed.mk 0 p.tree).children.map Placed.start ↔
        (o = 0 ∧ source ≠ "") ∨
          ∃ a b, source = a ++ b ∧ a.utf8ByteSize = o ∧ endsLine a ∧ startsSection b := by
  obtain ⟨p, h, _⟩ := ofSource_unlimited source
  obtain ⟨new, htree, hsections⟩ := sectioned_ofSource h
  refine ⟨p, h, fun t ht => ?_, fun o => ?_⟩
  · rw [htree] at ht
    obtain ⟨us, vs, hnew⟩ := List.append_of_mem ht
    obtain ⟨⟨ts, hsection⟩, _⟩ := hsections.at_split hnew
    exact ⟨hsection.isNode, hsection.kind, hsection.nonempty⟩
  · rw [List.mem_map]
    constructor
    · rintro ⟨x, hx, rfl⟩
      exact sectionStart_of_mem h hx
    · exact mem_of_sectionStart h

end Parsed

end RequestFile
