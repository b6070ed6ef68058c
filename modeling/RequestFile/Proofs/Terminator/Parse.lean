import RequestFile.Proofs.Section
import RequestFile.Proofs.Terminator.Section

/-!
Parses of recoded sources.

* **Leaves.** A leaf is a line terminator or holds none, so recoding the texts of all leaves changes
  the terminators alone (`Tree.Over.recode_eq`).
* **Parses.** The tree of a recoded source is the tree of the source with the other terminators, and
  the reports are the same with the ends of their ranges moved (`Parsed.ofSource_recode`). How lines
  end matters neither to what is recognised nor to how mistakes are recovered from.
-/

namespace RequestFile

/-! ### Leaves -/

namespace Tree

/-- The tree with another text at its line ends. -/
def withTerminator (e : Terminator) : Tree → Tree :=
  mapLeaves fun k s => if k = .newline then e.text else s

variable {f g : Kind → String → String}

mutual

lemma mapLeaves_congr : ∀ {t : Tree}, (∀ l ∈ t.leaves, f l.1 l.2 = g l.1 l.2) →
    t.mapLeaves f = t.mapLeaves g
  | leaf k s, h => congrArg (leaf k) (h (k, s) List.mem_cons_self)
  | node k _, h => congrArg (node k) (mapLeavesOf_congr h)

lemma mapLeavesOf_congr : ∀ {ts : List Tree}, (∀ l ∈ leavesOf ts, f l.1 l.2 = g l.1 l.2) →
    mapLeavesOf f ts = mapLeavesOf g ts
  | [], _ => rfl
  | t :: ts, h => by
      rw [leavesOf, List.forall_mem_append] at h
      rw [mapLeavesOf, mapLeavesOf, mapLeaves_congr h.1, mapLeavesOf_congr h.2]

end

variable {e : Terminator} {ts : List Token} {l : Kind × String} {ls : List (Kind × String)}

lemma Block.recode_eq (h : Block ts l) (hts : ∀ t ∈ ts, (e.token t).text = e.recode t.text) :
    e.recode l.2 = if l.1 = .newline then e.text else l.2 := by
  cases h with
  | token t =>
      rw [← hts t List.mem_cons_self, Terminator.token]
      split_ifs <;> rfl
  | text _ hline =>
      have hkind : Kind.text ≠ .newline := by decide
      rw [← e.textOf_map hts, e.map_token_eq_self hline, if_neg hkind]

/-- **Recoding leaves** changes the terminators alone. -/
lemma Over.recode_eq (h : Over ts ls) (hts : ∀ t ∈ ts, (e.token t).text = e.recode t.text) :
    ∀ l ∈ ls, e.recode l.2 = if l.1 = .newline then e.text else l.2 := by
  obtain ⟨bs, rfl, hbs⟩ := h
  induction hbs with
  | nil => simp
  | cons hb _ ih =>
      rw [List.flatten_cons, List.forall_mem_append] at hts
      rw [List.forall_mem_cons]
      exact ⟨hb.recode_eq hts.1, ih hts.2⟩

end Tree

/-! ### Parses -/

namespace Parsed

variable {source : String}

/-- A parse of a recoded source ends like that of the source, whatever its limits are. -/
lemma ofSource_recode_tree (e : Terminator) (limits : Limits) (h : '\r' ∉ source.toList) :
    ofSource limits (e.recode source) = (ofSource limits source).map fun p =>
      ⟨e.tree p.tree, p.reports.map (Diagnostic.move (e.offset source)), p.tokens⟩ := by
  have hrecast := (Cursor.recast_start e limits h).sections
  rw [ofSource, ofSource]
  generalize (Cursor.start limits (Token.scan source)).sections = c at hrecast ⊢
  generalize (Cursor.start limits (Token.scan (e.recode source))).sections = d at hrecast ⊢
  rw [ofCursor, ofCursor, hrecast.fault, hrecast.exceeded, hrecast.built, hrecast.reports,
    hrecast.budget]
  cases c.fault with
  | some f => rfl
  | none =>
      cases c.exceeded with
      | some l => rfl
      | none => simp only [Except.map, e.tree_node]

/-- The leaves of a complete parse hold no terminators but their own. -/
lemma Complete.tree_recode {p : Parsed} (hp : p.Complete source) (e : Terminator)
    (h : '\r' ∉ source.toList) : e.tree p.tree = p.tree.withTerminator e :=
  Tree.mapLeaves_congr (hp.leaves.recode_eq (e.text_token h))

/-- **Line terminators do not matter**: a source whose lines end with line feeds, and the same source
with carriage returns, or with both, in their place, have the same tree but for the texts of the
terminators themselves, and the same reports in the same order, each at the range whose ends are
those that the replacement moves the ends of the other to. -/
theorem ofSource_recode (e : Terminator) (h : '\r' ∉ source.toList) :
    ∃ p, ofSource .unlimited source = .ok p ∧
      ofSource .unlimited (e.recode source) = .ok
        ⟨p.tree.withTerminator e, p.reports.map (Diagnostic.move (e.offset source)), p.tokens⟩ := by
  obtain ⟨p, hp, hcomplete⟩ := ofSource_unlimited source
  refine ⟨p, hp, ?_⟩
  rw [ofSource_recode_tree e .unlimited h, hp, ← hcomplete.tree_recode e h]
  rfl

/-- A script that is left open over two lines. -/
theorem ofSource_recode_open_script :
    '\r' ∉ "< \x7b%\n a\n".toList ∧
      ∃ p, ofSource .unlimited "< \x7b%\n a\n" = .ok p ∧
        ofSource .unlimited "< \x7b%\r\n a\r\n" = .ok
          ⟨p.tree.withTerminator .both,
            p.reports.map (Diagnostic.move (Terminator.both.offset "< \x7b%\n a\n")), p.tokens⟩ := by
  have hrecode : "< \x7b%\r\n a\r\n" = Terminator.both.recode "< \x7b%\n a\n" := by decide
  have hfree : '\r' ∉ "< \x7b%\n a\n".toList := by decide
  rw [hrecode]
  exact ⟨hfree, ofSource_recode .both hfree⟩

end Parsed

end RequestFile
