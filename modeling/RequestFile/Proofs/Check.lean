import Mathlib.Tactic
import RequestFile.Cli.Job
import RequestFile.Proofs.Shadowing
import RequestFile.Proofs.Terminator.Summary

/-!
What a check says.

A check decides on all diagnostics of a document, but shows only those that stay.

* **Errors stay.** Errors come before warnings in the order of priority, so only an error shadows an
  error (`isError_of_shadows`). At the front of the chain of shadows that leads to an error stands
  one that stays (`exists_error_filtered`).
* **Objections.** So a document that does not pass is shown at least one of its diagnostics, and an
  error if it has one (`Job.check_shows_failures`).
-/

namespace RequestFile

/-- Errors come before warnings in the order of priority. -/
lemma Problem.severity_eq_error_iff (p : Problem) :
    p.severity = .error ↔ p.rank < Problem.unknownMethod.rank := by
  cases p <;> decide

namespace Diagnostic

variable {a b : Diagnostic} {ds : List Diagnostic}

lemma isError_iff (d : Diagnostic) : d.isError ↔ d.problem.rank < Problem.unknownMethod.rank := by
  rw [isError, decide_eq_true_iff, severity, Problem.severity_eq_error_iff]

/-- What is of higher priority than an error is an error. -/
lemma isError_of_outranks (h : a.problem.outranks b.problem) (hb : b.isError) : a.isError := by
  have hlt : a.problem.rank < b.problem.rank := of_decide_eq_true h
  exact (isError_iff a).mpr (hlt.trans ((isError_iff b).mp hb))

/-- Only an error shadows an error. Where the order of priority is turned around, both are errors. -/
lemma isError_of_shadows (h : a.shadows b) (hb : b.isError) : a.isError := by
  rw [shadows] at h
  split at h
  · exact isError_of_outranks h hb
  · split at h
    · exact absurd h Bool.false_ne_true
    · split at h
      · exact absurd h Bool.false_ne_true
      · next hmissing _ => simp [isError, severity, Problem.severity, hmissing]
      · exact isError_of_outranks h hb

/-- The front of a chain of shadows that leads to an error is an error. -/
lemma isError_of_chain (h : Relation.ReflTransGen (fun x y => x.shadows y) a b)
    (hb : b.isError) : a.isError := by
  induction h with
  | refl => exact hb
  | tail _ hs ih => exact ih (isError_of_shadows hs hb)

/-- Where there is an error, one stays. -/
lemma exists_error_filtered (h : ∃ e ∈ ds, e.isError) : ∃ e ∈ filtered ds, e.isError := by
  obtain ⟨e, he, herror⟩ := h
  obtain ⟨k, hk, hchain⟩ := exists_chain_of_mem he
  exact ⟨k, hk, isError_of_chain hchain herror⟩

lemma errorCount_eq_zero_iff : errorCount ds = 0 ↔ ∀ d ∈ ds, ¬d.isError :=
  List.countP_eq_zero

lemma warningCount_eq_zero_iff : warningCount ds = 0 ↔ ∀ d ∈ ds, ¬d.isWarning :=
  List.countP_eq_zero

/-- A diagnostic is an error or a warning. -/
lemma isError_or_isWarning (d : Diagnostic) : d.isError ∨ d.isWarning := by
  rw [isError, isWarning]
  cases d.severity <;> decide

end Diagnostic

namespace Document

variable {d : Document} {strict : Bool}

/-- Every text has a document. -/
lemma exists_parse (text : String) : ∃ d, parse defaultLimits text = .ok d ∧ d.source = text := by
  obtain ⟨p, hp, _⟩ := ofSource_default text
  exact ⟨_, by rw [parse, hp], rfl⟩

lemma isValid_iff : d.isValid ↔ ∀ x ∈ d.diagnostics, ¬x.isError := by
  rw [isValid, beq_iff_eq, Diagnostic.errorCount_eq_zero_iff]

/-- What a check minds: errors, and if it is strict all diagnostics. -/
def Fails (d : Document) : Bool → Prop
  | false => ∃ e ∈ d.diagnostics, e.isError
  | true => d.diagnostics ≠ []

lemma passes_iff : d.passes strict ↔ ¬d.Fails strict := by
  cases strict with
  | false => simp [passes, isValid_iff, Fails]
  | true =>
      rw [passes, Bool.and_eq_true, isValid_iff, Fails, not_not, List.eq_nil_iff_forall_not_mem]
      simp only [Bool.not_true, Bool.false_or, beq_iff_eq, Diagnostic.warningCount_eq_zero_iff]
      constructor
      · rintro ⟨herrors, hwarnings⟩ x hx
        rcases x.isError_or_isWarning with h | h
        · exact herrors x hx h
        · exact hwarnings x hx h
      · intro h
        exact ⟨fun x hx => absurd hx (h x), fun x hx => absurd hx (h x)⟩

lemma ne_nil_of_fails (h : d.Fails strict) : d.diagnostics ≠ [] := by
  cases strict with
  | false =>
      obtain ⟨e, he, _⟩ := h
      exact List.ne_nil_of_mem he
  | true => exact h

/-- A document that does not pass is shown what stays of its diagnostics. -/
lemma objections_of_fails (h : d.Fails strict) :
    d.objections strict = some (Diagnostic.filtered d.diagnostics) := by
  rw [objections, if_neg fun hpasses => passes_iff.mp hpasses h]

lemma objections_of_not_fails (h : ¬d.Fails strict) : d.objections strict = none := by
  rw [objections, if_pos (passes_iff.mpr h)]

end Document

namespace Job

/-- The outcome of a check of a source that holds a text with a document. -/
lemma run_check {s : Source} {bytes : Except ReadFault ByteArray} {text : String} {d : Document}
    (htext : s.load bytes = .ok text) (hd : Document.parse Document.defaultLimits text = .ok d)
    (terminal strict : Bool) (coloring : Coloring) :
    (check (some s) strict coloring).run terminal bytes
      = (d.objections strict).elim (.shows "") fun shown =>
          .reports (Diagnostic.render ⟨d.source, some s.label, coloring.applies terminal⟩ shown) := by
  simp only [run, withDocument, htext, hd]
  cases d.objections strict <;> rfl

/-- **A check hides no failure.** Of diagnostics with an error among them an error stays. Whatever
text a source holds, it has a document, and a check of it fails just when there is an error, or if it
is strict any diagnostic. A check that fails shows a list of diagnostics under the label of the
source; the list is not empty, and it has an error if the document has one. -/
theorem check_shows_failures :
    (∀ ds : List Diagnostic,
        (∃ e ∈ ds, e.isError) → ∃ e ∈ Diagnostic.filtered ds, e.isError) ∧
      ∀ (s : Source) (bytes : Except ReadFault ByteArray) (text : String),
        s.load bytes = .ok text →
          ∃ d, Document.parse Document.defaultLimits text = .ok d ∧
            ∀ (terminal strict : Bool) (coloring : Coloring),
              ((d.objections strict).isSome ↔ d.Fails strict) ∧
              (¬d.Fails strict →
                (check (some s) strict coloring).run terminal bytes = .shows "") ∧
              (d.Fails strict → ∃ shown,
                (check (some s) strict coloring).run terminal bytes
                    = .reports (Diagnostic.render
                        ⟨text, some s.label, coloring.applies terminal⟩ shown) ∧
                  shown = Diagnostic.filtered d.diagnostics ∧ shown ≠ [] ∧
                  ((∃ e ∈ d.diagnostics, e.isError) → ∃ e ∈ shown, e.isError)) := by
  refine ⟨fun ds => Diagnostic.exists_error_filtered, fun s bytes text htext => ?_⟩
  obtain ⟨d, hd, rfl⟩ := Document.exists_parse text
  refine ⟨d, hd, fun terminal strict coloring => ?_⟩
  rw [run_check htext hd]
  by_cases hfails : d.Fails strict
  · rw [Document.objections_of_fails hfails]
    refine ⟨iff_of_true rfl hfails, fun hpasses => absurd hfails hpasses, fun _ => ?_⟩
    refine ⟨_, rfl, rfl, ?_, Diagnostic.exists_error_filtered⟩
    rw [Ne, Diagnostic.filtered_eq_nil_iff]
    exact Document.ne_nil_of_fails hfails
  · rw [Document.objections_of_not_fails hfails]
    exact ⟨iff_of_false Bool.false_ne_true hfails, fun _ => rfl, fun h => absurd h hfails⟩

/-- A file with a warning about its method and an error in its header. A check that is not strict fails
on it, and what it shows has an error. -/
theorem check_shows_failures_file :
    ∃ d shown, Document.parse Document.defaultLimits "get /a\nX\n" = .ok d ∧
      (∃ w ∈ d.diagnostics, w.isWarning) ∧ (∃ e ∈ d.diagnostics, e.isError) ∧
      (check (some (.file "a.http")) false .never).run true (.ok "get /a\nX\n".toUTF8)
        = .reports (Diagnostic.render ⟨"get /a\nX\n", some "a.http", false⟩ shown) ∧
      shown = Diagnostic.filtered d.diagnostics ∧ ∃ e ∈ shown, e.isError := by
  have hload : Source.load (.ok "get /a\nX\n".toUTF8) (.file "a.http") = .ok "get /a\nX\n" := rfl
  obtain ⟨hstays, hcheck⟩ := check_shows_failures
  obtain ⟨d, hd, hrun⟩ := hcheck (.file "a.http") (.ok "get /a\nX\n".toUTF8) "get /a\nX\n" hload
  obtain ⟨d', hd', hany⟩ : ∃ d', Document.parse Document.defaultLimits "get /a\nX\n" = .ok d' ∧
      (d'.diagnostics.any Diagnostic.isWarning && d'.diagnostics.any Diagnostic.isError) :=
    Document.exists_ok_of_any (by decide +kernel)
  obtain rfl : d = d' := Except.ok.inj (hd.symm.trans hd')
  obtain ⟨hwarning, herror⟩ := Bool.and_eq_true_iff.mp hany
  have hfails : d.Fails false := List.any_eq_true.mp herror
  obtain ⟨shown, hshown, hfiltered, -, -⟩ := (hrun true false .never).2.2 hfails
  refine ⟨d, shown, hd, List.any_eq_true.mp hwarning, hfails, hshown, hfiltered, ?_⟩
  rw [hfiltered]
  exact hstays d.diagnostics hfails

end Job

end RequestFile
