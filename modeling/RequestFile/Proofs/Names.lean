import Mathlib.Data.List.ReduceOption
import Mathlib.Tactic
import RequestFile.Proofs.Validity

/-!
Warnings about the names of sections.

The check of names goes through the sections once and keeps the names it has seen, each with its first
place. What it says about a section depends on the sections in front of it only (`NameWarning`).

* **Names seen.** `Document.Seen` says that a table has the first place of every name that some
  sections give; a section leaves it true of one section more (`Seen.concat`, `Seen.unnamed`,
  `Seen.again`).
* **Documents.** The diagnostics of a document are the reports of the parser and then these warnings,
  none of which is an error (`Document.parse_nameWarnings`).
-/

namespace RequestFile

/-- The name that the metadata of a section give it. There is none without an entry called `name`
(`Section.nameEntry_eq_none_iff`), or where the first of them has no value. -/
def Section.givenName (s : Section) : Option Value :=
  s.nameEntry.bind Entry.value

/-- What is said about the name of a section behind others. Only the first entry called `name` counts
(`Section.nameEntry_eq_some_iff`): without a value it is empty, and a name that was given before is used
twice, the first time where it was first given. -/
inductive NameWarning (earlier : List Section) (s : Section) : Option Diagnostic → Prop
  | unnamed : s.nameEntry = none → NameWarning earlier s none
  | empty {e : Entry} : s.nameEntry = some e → e.value = none →
      NameWarning earlier s (some (Document.emptyName e))
  | fresh {v : Value} : s.givenName = some v →
      (∀ u ∈ earlier.filterMap Section.givenName, u.text ≠ v.text) → NameWarning earlier s none
  | again {v u : Value} {before after : List Value} : s.givenName = some v →
      earlier.filterMap Section.givenName = before ++ u :: after → u.text = v.text →
      (∀ w ∈ before, w.text ≠ v.text) →
      NameWarning earlier s (some (Document.duplicateName v u.span))

namespace Document

variable {earlier : List Section} {s : Section} {seen : List (String × Span)} {name : String}
  {v : Value} {limits : Limits} {source : String} {d : Document}

/-- A table has the first place of every name that some sections give. -/
def Seen (earlier : List Section) (seen : List (String × Span)) : Prop :=
  ∀ name, seen.lookup name
    = ((earlier.filterMap Section.givenName).find? (·.text == name)).map fun u => u.span

namespace Seen

lemma nil : Seen [] [] := fun _ => rfl

/-- A section without a name changes nothing. -/
lemma unnamed (h : Seen earlier seen) (hs : s.givenName = none) : Seen (earlier ++ [s]) seen := by
  intro name
  rw [h name, List.filterMap_append, List.filterMap_cons_none hs, List.filterMap_nil,
    List.append_nil]

/-- A name that was given before keeps its first place. -/
lemma again (h : Seen earlier seen) (hs : s.givenName = some v) {first : Span}
    (hfirst : seen.lookup v.text = some first) : Seen (earlier ++ [s]) seen := by
  intro name
  rw [h name, List.filterMap_append, List.filterMap_cons_some hs, List.filterMap_nil,
    List.find?_append]
  rw [h v.text] at hfirst
  by_cases hname : v.text = name
  · subst hname
    obtain ⟨u, hu, _⟩ := Option.map_eq_some_iff.mp hfirst
    rw [hu, Option.some_or]
  · rw [List.find?_cons_of_neg (by simpa using hname), List.find?_nil, Option.or_none]

/-- A name that is given for the first time has its place here. -/
lemma concat (h : Seen earlier seen) (hs : s.givenName = some v)
    (hnone : seen.lookup v.text = none) : Seen (earlier ++ [s]) ((v.text, v.span) :: seen) := by
  intro name
  rw [List.filterMap_append, List.filterMap_cons_some hs, List.filterMap_nil, List.find?_append,
    List.lookup_cons]
  by_cases hname : v.text = name
  · subst hname
    rw [h v.text, Option.map_eq_none_iff] at hnone
    rw [hnone, Option.none_or, List.find?_cons_of_pos (by simp), beq_self_eq_true]
    rfl
  · have hne : (name == v.text) = false := beq_eq_false_iff_ne.mpr (Ne.symm hname)
    rw [hne, List.find?_cons_of_neg (by simpa using hname), List.find?_nil, Option.or_none]
    exact h name

/-- A name that is not in the table was not given before. -/
lemma fresh (h : Seen earlier seen) (hs : s.givenName = some v)
    (hnone : seen.lookup v.text = none) : NameWarning earlier s none := by
  rw [h v.text, Option.map_eq_none_iff, List.find?_eq_none] at hnone
  exact .fresh hs fun u hu => by simpa using hnone u hu

/-- The place of a name in the table is where it was first given. -/
lemma duplicate (h : Seen earlier seen) (hs : s.givenName = some v) {first : Span}
    (hfirst : seen.lookup v.text = some first) :
    NameWarning earlier s (some (duplicateName v first)) := by
  rw [h v.text] at hfirst
  obtain ⟨u, hu, rfl⟩ := Option.map_eq_some_iff.mp hfirst
  obtain ⟨htext, before, after, hsplit, hbefore⟩ := List.find?_eq_some_iff_append.mp hu
  exact .again hs hsplit (eq_of_beq htext) fun w hw => by simpa using hbefore w hw

end Seen

/-- One section more: what is said about its name, and what has been seen behind it. -/
lemma nameWarnings_step (h : Seen earlier seen) (s : Section) : ∃ w seen',
    NameWarning earlier s w ∧ Seen (earlier ++ [s]) seen' ∧
      ∀ rest, nameWarnings seen (s :: rest) = w.toList ++ nameWarnings seen' rest := by
  cases he : s.nameEntry with
  | none =>
      refine ⟨none, seen, .unnamed he, h.unnamed ?_, fun rest => ?_⟩
      · rw [Section.givenName, he]
        rfl
      · simp only [nameWarnings, he]
        rfl
  | some e =>
      have hgiven : s.givenName = e.value := by
        rw [Section.givenName, he]
        rfl
      cases hv : e.value with
      | none =>
          refine ⟨_, seen, .empty he hv, h.unnamed (hgiven.trans hv), fun rest => ?_⟩
          simp only [nameWarnings, he, hv]
          rfl
      | some v =>
          have hname := hgiven.trans hv
          -- only a name that has not been seen changes what has been
          cases hfirst : seen.lookup v.text with
          | none =>
              refine ⟨none, _, h.fresh hname hfirst, h.concat hname hfirst, fun rest => ?_⟩
              simp only [nameWarnings, he, hv, hfirst]
              rfl
          | some first =>
              refine ⟨_, seen, h.duplicate hname hfirst, h.again hname hfirst, fun rest => ?_⟩
              simp only [nameWarnings, he, hv, hfirst]
              rfl

/-- **One pass over the sections** says of each what it should, by induction on the sections that are
left. -/
lemma nameWarnings_eq (h : Seen earlier seen) (rest : List Section) :
    ∃ ws : List (Option Diagnostic), nameWarnings seen rest = ws.reduceOption ∧
      List.Forall₂ (fun x w => NameWarning ((earlier ++ rest).take x.2) x.1 w)
        (rest.zipIdx earlier.length) ws := by
  induction rest generalizing earlier seen with
  | nil => exact ⟨[], rfl, .nil⟩
  | cons s rest ih =>
      obtain ⟨w, seen', hs, hseen, hstep⟩ := nameWarnings_step h s
      obtain ⟨ws, hws, hall⟩ := ih hseen
      refine ⟨w :: ws, ?_, ?_⟩
      · rw [hstep, hws]
        cases w <;> rfl
      · rw [List.append_assoc, List.singleton_append, List.length_append,
          List.length_singleton] at hall
        rw [List.zipIdx_cons]
        refine .cons ?_ hall
        rwa [List.take_left]

/-- **Warnings about names**: the diagnostics of a document are the reports of the parser, and behind
them what is to be said about the name of each section, in the order of the sections. The document is
as valid as it is by the reports alone. -/
theorem parse_nameWarnings (h : parse limits source = .ok d) :
    ∃ p ws, Parsed.ofSource limits source = .ok p ∧ d.tree = p.tree ∧
      d.diagnostics = p.reports ++ ws.reduceOption ∧
      List.Forall₂ (fun x w => NameWarning (d.sections.take x.2) x.1 w) d.sections.zipIdx ws ∧
      d.isValid = ({ d with diagnostics := p.reports } : Document).isValid := by
  obtain ⟨p, hp, htree, hdiag⟩ := exists_of_parse h
  obtain ⟨ws, hws, hall⟩ := nameWarnings_eq Seen.nil (sectionsOf p.tree)
  refine ⟨p, ws, hp, htree, hdiag.trans (congrArg (p.reports ++ ·) hws), ?_, ?_⟩
  · rw [sections, htree]
    exact hall
  · have hnone : (nameWarnings [] (sectionsOf p.tree)).countP Diagnostic.isError = 0 :=
      List.countP_eq_zero.mpr fun w hw => by simp [not_isError_of_mem_nameWarnings hw]
    simp only [isValid, Diagnostic.errorCount, hdiag, List.countP_append, hnone, Nat.add_zero]

/-- A name without a value, and one that is given three times. -/
theorem parse_nameWarnings_repeated : ∃ d p ws,
    parse defaultLimits "# @name a\n###\n# @name\n###\n# @name a\n###\n# @name a\n" = .ok d ∧
      Parsed.ofSource defaultLimits "# @name a\n###\n# @name\n###\n# @name a\n###\n# @name a\n"
        = .ok p ∧
      d.diagnostics = p.reports ++ ws.reduceOption ∧
      List.Forall₂ (fun x w => NameWarning (d.sections.take x.2) x.1 w) d.sections.zipIdx ws ∧
      d.diagnostics.map (fun w => (w.problem, w.span, w.related.map Related.span)) =
        [(.emptyRequestName, ⟨14, 7⟩, []), (.duplicateRequestName, ⟨34, 1⟩, [⟨8, 1⟩]),
          (.duplicateRequestName, ⟨48, 1⟩, [⟨8, 1⟩])] := by
  obtain ⟨d, hd, hsaid⟩ := exists_ok_of_any (α := ParseError) (q := fun d =>
    d.diagnostics.map (fun w => (w.problem, w.span, w.related.map Related.span)) ==
      [(.emptyRequestName, ⟨14, 7⟩, []), (.duplicateRequestName, ⟨34, 1⟩, [⟨8, 1⟩]),
        (.duplicateRequestName, ⟨48, 1⟩, [⟨8, 1⟩])])
    (x := parse defaultLimits "# @name a\n###\n# @name\n###\n# @name a\n###\n# @name a\n")
    (by decide +kernel)
  obtain ⟨p, ws, hp, _, hdiag, hall, _⟩ := parse_nameWarnings hd
  exact ⟨d, p, ws, hd, hp, hdiag, hall, eq_of_beq hsaid⟩

end Document

end RequestFile
