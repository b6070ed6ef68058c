import Mathlib.Data.Prod.Lex
import Mathlib.Tactic
import RequestFile.Proofs.Shadowing

/-!
Shadows lead one way.

Priority alone does not decide which of two diagnostics shadows the other: where something missing
and something unclosed start together, the order of priority is turned around. Still no chain of
shadows comes back to where it began.

* **Precedence.** Among problems that start together, what is missing comes first, then what is
  unclosed, then all else, and within each of these priority decides (`Problem.precedence`). Except
  between a missing and an unclosed one, this is the order of priority
  (`Problem.precedence_lt_iff_rank_lt`).
* **Shadows.** A diagnostic shadows one that starts later by reaching over it with a higher priority,
  and one that starts with it by precedence (`shadows_iff`).
* **Places.** So a shadow falls on a later start, or at the same start on a later precedence. Both
  together are the place of a diagnostic, and what is shadowed has a later place
  (`place_lt_of_shadows`), also at the end of a chain (`place_lt_of_isChain`).
* **No cycles.** Nothing has a later place than itself (`shadows_acyclic`).
* **Every order.** On a list, going back along shadows ends at a diagnostic that nothing shadows
  (`exists_unshadowed`). It stays in whatever order the reports come
  (`exists_filtered_in_every_order`).
-/

namespace RequestFile

namespace Problem

variable {p q : Problem}

/-- Where the problems of a group come among those that start together. -/
def Group.stage : Group → ℕ
  | .missing => 0
  | .unclosed => 1
  | .unexpected | .lint => 2

lemma Group.stage_eq_zero_iff (g : Group) : g.stage = 0 ↔ g = .missing := by
  cases g <;> decide

lemma Group.stage_eq_one_iff (g : Group) : g.stage = 1 ↔ g = .unclosed := by
  cases g <;> decide

lemma Group.stage_le_two (g : Group) : g.stage ≤ 2 := by
  cases g <;> decide

/-- The order of problems that start together: their groups come in stages, and priority decides
within a stage. -/
def precedence (p : Problem) : ℕ ×ₗ ℕ :=
  toLex (p.group.stage, p.rank)

lemma precedence_lt_iff :
    p.precedence < q.precedence ↔
      p.group.stage < q.group.stage ∨ p.group.stage = q.group.stage ∧ p.rank < q.rank :=
  Prod.Lex.toLex_lt_toLex

/-- What is missing or unclosed has a higher priority than all else. -/
lemma stage_lt_two_iff (p : Problem) : p.group.stage < 2 ↔ p.rank < invalidHeaderName.rank := by
  cases p <;> decide

/-- Precedence is priority, except between a missing and an unclosed problem. -/
lemma precedence_lt_iff_rank_lt (h : ¬(p.group = .missing ∧ q.group = .unclosed))
    (h' : ¬(p.group = .unclosed ∧ q.group = .missing)) :
    p.precedence < q.precedence ↔ p.rank < q.rank := by
  rw [← Group.stage_eq_zero_iff, ← Group.stage_eq_one_iff] at h h'
  -- two stages that differ are then the last one and one in front of it
  have hp := stage_lt_two_iff p
  have hq := stage_lt_two_iff q
  have hlast := p.group.stage_le_two
  have hlast' := q.group.stage_le_two
  rw [precedence_lt_iff]
  omega

end Problem

namespace Diagnostic

variable {a b d m : Diagnostic} {ds : List Diagnostic}

/-! ### When one shadows another -/

/-- Where two diagnostics start together, precedence decides. -/
lemma shadows_iff_of_start_eq (h : a.span.start = b.span.start) :
    a.shadows b ↔ a.problem.precedence < b.problem.precedence := by
  have hreach : a.reachesOver b = false := by simp [reachesOver, h]
  rw [shadows, hreach]
  simp only [Bool.false_eq_true, if_false, h, ne_eq, not_true_eq_false]
  split
  · next ha hb =>
      simp [Problem.precedence_lt_iff, ha, hb, Problem.Group.stage]
  · next ha hb =>
      simp [Problem.precedence_lt_iff, ha, hb, Problem.Group.stage]
  · next hunclosed hmissing =>
      rw [Problem.precedence_lt_iff_rank_lt (fun h => hmissing h.1 h.2) (fun h => hunclosed h.1 h.2),
        Problem.outranks, decide_eq_true_iff]

/-- A diagnostic shadows one that starts later by reaching over it with a higher priority, and one
that starts with it by precedence. -/
lemma shadows_iff :
    a.shadows b ↔
      (a.span.start < b.span.start ∧ b.span.stop ≤ a.span.stop ∧ a.problem.rank < b.problem.rank) ∨
        a.span.start = b.span.start ∧ a.problem.precedence < b.problem.precedence := by
  by_cases hstart : a.span.start = b.span.start
  · simp [shadows_iff_of_start_eq hstart, hstart]
  · by_cases hreach : a.reachesOver b
    · have hover := hreach
      rw [reachesOver, Bool.and_eq_true, decide_eq_true_iff, decide_eq_true_iff] at hover
      simp [shadows, hreach, hstart, hover.1, hover.2, Problem.outranks]
    · have hover : ¬(a.span.start < b.span.start ∧ b.span.stop ≤ a.span.stop) := by
        simpa [reachesOver] using hreach
      simp only [shadows, hreach, hstart, Bool.false_eq_true, if_false, ne_eq, not_false_eq_true,
        if_true, false_iff]
      tauto

/-! ### Places -/

/-- The place of a diagnostic: where it starts, and the precedence of its problem there. -/
def place (d : Diagnostic) : ℕ ×ₗ ℕ ×ₗ ℕ :=
  toLex (d.span.start, d.problem.precedence)

/-- **One shadow.** What is shadowed has a later place. -/
lemma place_lt_of_shadows (h : a.shadows b) : a.place < b.place := by
  refine Prod.Lex.toLex_lt_toLex.mpr ?_
  rcases shadows_iff.mp h with ⟨hstart, _⟩ | htogether
  · exact Or.inl hstart
  · exact Or.inr htogether

/-- **A chain of shadows.** Its end has a later place than its beginning. -/
lemma place_lt_of_isChain (h : (a :: (ds ++ [b])).IsChain fun x y => x.shadows y) :
    a.place < b.place := by
  induction ds generalizing a with
  | nil =>
      have hs : a.shadows b := by simpa using h
      exact place_lt_of_shadows hs
  | cons d ds ih =>
      rw [List.cons_append, List.isChain_cons_cons] at h
      exact (place_lt_of_shadows h.1).trans (ih h.2)

/-- **No cycles.** In a sequence of diagnostics that begins and ends with the same one, not every one
shadows the next. -/
theorem shadows_acyclic (m : Diagnostic) (ms : List Diagnostic) :
    ¬(m :: (ms ++ [m])).IsChain fun a b => a.shadows b := by
  intro h
  exact lt_irrefl m.place (place_lt_of_isChain h)

/-! ### Every order -/

/-- Going back along shadows ends. -/
lemma wellFounded_shadows : WellFounded fun a b : Diagnostic => a.shadows b :=
  Subrelation.wf place_lt_of_shadows (InvImage.wf place wellFounded_lt)

/-- Every diagnostic on a list is at the end of a chain of shadows that begins with one that nothing
on the list shadows. -/
lemma exists_unshadowed (hd : d ∈ ds) :
    ∃ k ∈ ds, (∀ a ∈ ds, a.shadows k = false) ∧
      Relation.ReflTransGen (fun x y => x.shadows y) k d := by
  induction d using wellFounded_shadows.induction with
  | _ d ih =>
      by_cases hs : ∃ a ∈ ds, a.shadows d
      · obtain ⟨a, ha, had⟩ := hs
        obtain ⟨k, hk, hnone, hchain⟩ := ih a had ha
        exact ⟨k, hk, hnone, hchain.tail had⟩
      · have hnone : ∀ a ∈ ds, a.shadows d = false := by simpa using hs
        exact ⟨d, hd, hnone, .refl⟩

/-- What nothing on the list shadows stays. -/
lemma mem_filtered_of_unshadowed (hm : m ∈ ds) (h : ∀ a ∈ ds, a.shadows m = false) :
    m ∈ filtered ds :=
  mem_filtered.mpr ⟨hm, fun a ha => h a ((sublist_standing ds).subset ha)⟩

/-- **Every order.** Each report is at the end of a chain of shadows that begins with a report that
stays in whatever order they all come. -/
theorem exists_filtered_in_every_order (hd : d ∈ ds) :
    ∃ k ∈ ds, (∀ es, es.Perm ds → k ∈ filtered es) ∧
      Relation.ReflTransGen (fun x y => x.shadows y) k d := by
  obtain ⟨k, hk, hnone, hchain⟩ := exists_unshadowed hd
  refine ⟨k, hk, ?_, hchain⟩
  intro es hperm
  exact mem_filtered_of_unshadowed (hperm.mem_iff.mpr hk) fun a ha => hnone a (hperm.mem_iff.mp ha)

end Diagnostic

end RequestFile
