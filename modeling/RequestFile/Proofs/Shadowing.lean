import Mathlib.Tactic
import Mathlib.Logic.Relation
import RequestFile.Diagnostic.Filter

/-!
Which diagnostics stay.

Diagnostics take turns in the order of the reports, and one that still stands at its turn strikes
out all that it shadows, in front of it and behind it.

* **Standing.** `standing` lists those that stand at their turn: no earlier one on the list shadows
  them. What is left out is what one of them shadows (`filtered_eq`).
* **Settled.** What stays stood at its turn (`mem_standing_of_mem_filtered`), so nothing that stays
  shadows anything else that stays, and filtering once more changes nothing (`filtered_settled`).
* **Overtaken.** One that stood at its turn can be struck out later, by one behind it. What it has
  struck out itself does not come back, so a missing diagnostic need not be shadowed by one that
  stays. It is the end of a chain of shadows that begins with one that stays
  (`exists_chain_of_mem`, `missing_iff_shadowed_or_overtaken`).
-/

namespace RequestFile

namespace Diagnostic

variable {a d m : Diagnostic} {ds : List Diagnostic}

/-- Nothing shadows itself. -/
lemma shadows_self (d : Diagnostic) : d.shadows d = false := by
  have hreach : d.reachesOver d = false := by simp [reachesOver]
  have hrank : d.problem.outranks d.problem = false := by simp [Problem.outranks]
  rw [shadows, hreach, hrank]
  cases d.problem.group <;> simp

/-! ### Standing at one's turn -/

/-- The diagnostics that stand at their own turn: those that no earlier one on the list shadows. -/
def standing (ds : List Diagnostic) : List Diagnostic :=
  ds.foldl (fun front d => if front.any (·.shadows d) then front else front ++ [d]) []

lemma standing_concat (ds : List Diagnostic) (d : Diagnostic) :
    standing (ds ++ [d])
      = if (standing ds).any (·.shadows d) then standing ds else standing ds ++ [d] := by
  rw [standing, List.foldl_append, List.foldl_cons, List.foldl_nil, ← standing]

lemma sublist_standing (ds : List Diagnostic) : (standing ds).Sublist ds := by
  induction ds using List.reverseRecOn with
  | nil => exact List.Sublist.refl []
  | append_singleton ds d ih =>
      rw [standing_concat]
      split_ifs
      · exact ih.trans (List.sublist_append_left ds [d])
      · exact ih.append (List.Sublist.refl [d])

/-- No diagnostic on the list shadows one behind it. -/
lemma pairwise_standing (ds : List Diagnostic) :
    (standing ds).Pairwise fun a b => a.shadows b = false := by
  induction ds using List.reverseRecOn with
  | nil => exact List.Pairwise.nil
  | append_singleton ds d ih =>
      rw [standing_concat]
      split_ifs with hd
      · exact ih
      · refine List.pairwise_append.mpr ⟨ih, List.pairwise_singleton _ d, ?_⟩
        intro a ha b hb
        rw [List.mem_singleton] at hb
        simpa [hb] using fun hs => hd (List.any_eq_true.mpr ⟨a, ha, hs⟩)

/-- Every diagnostic stands at its turn or is shadowed by one that does. -/
lemma mem_standing_or_shadowed (h : d ∈ ds) :
    d ∈ standing ds ∨ ∃ a ∈ standing ds, a.shadows d := by
  induction ds using List.reverseRecOn with
  | nil => exact absurd h List.not_mem_nil
  | append_singleton ds e ih =>
      have hsub : standing ds ⊆ standing (ds ++ [e]) := by
        rw [standing_concat]
        split_ifs
        · exact List.Subset.refl _
        · exact List.subset_append_left _ _
      rcases List.mem_append.mp h with hd | hd
      · rcases ih hd with hstands | ⟨a, ha, hs⟩
        · exact Or.inl (hsub hstands)
        · exact Or.inr ⟨a, hsub ha, hs⟩
      · rw [List.mem_singleton.mp hd]
        by_cases hs : (standing ds).any (·.shadows e)
        · obtain ⟨a, ha, hs⟩ := List.any_eq_true.mp hs
          exact Or.inr ⟨a, hsub ha, hs⟩
        · rw [standing_concat, if_neg hs]
          exact Or.inl (List.mem_concat_self)

/-! ### Turns -/

/-- The candidates of `ds` when a list of diagnostics has had its turn. -/
def struckBy (front ds : List Diagnostic) : List Candidate :=
  ds.map fun d => ⟨d, !front.any (·.shadows d)⟩

/-- **One turn.** A diagnostic that still stands joins those that have struck out others. -/
lemma shadowFrom_struckBy {i : Nat} (hi : ds[i]? = some a) (front : List Diagnostic) :
    shadowFrom (struckBy front ds) i
      = struckBy (if front.any (·.shadows a) then front else front ++ [a]) ds := by
  have hget : (struckBy front ds)[i]? = some ⟨a, !front.any (·.shadows a)⟩ := by
    rw [struckBy, List.getElem?_map, hi, Option.map_some]
  rw [shadowFrom, hget]
  by_cases hs : front.any (·.shadows a)
  · simp [hs]
  · simp only [hs, Bool.not_false, if_true]
    apply List.ext_getElem?
    intro j
    rw [List.getElem?_mapIdx, struckBy, struckBy, List.getElem?_map, List.getElem?_map]
    cases hj : ds[j]? with
    | none => rfl
    | some b =>
        have hself : j = i → a.shadows b = false := by
          rintro rfl
          obtain rfl : a = b := Option.some.inj (hi.symm.trans hj)
          exact shadows_self a
        by_cases hji : j = i
        · simp [hji, hself hji]
        · by_cases hab : a.shadows b <;> simp [hji, hab]

/-- **All turns so far.** Those that stood at their turns have struck out others. -/
lemma foldl_shadowFrom {n : Nat} (hn : n ≤ ds.length) :
    (List.range n).foldl shadowFrom (ds.map (Candidate.mk · true))
      = struckBy (standing (ds.take n)) ds := by
  induction n with
  | zero => simp [struckBy, standing]
  | succ n ih =>
      have hget : ds[n]? = some ds[n] := List.getElem?_eq_getElem hn
      rw [List.range_succ, List.foldl_append, ih (Nat.le_of_succ_le hn), List.foldl_cons,
        List.foldl_nil, shadowFrom_struckBy hget, ← standing_concat, List.take_append_getElem hn]

/-- What stays is what nothing that stood at its turn shadows. -/
theorem filtered_eq (ds : List Diagnostic) :
    filtered ds = ds.filter fun d => !(standing ds).any (·.shadows d) := by
  have hturns := foldl_shadowFrom (le_refl ds.length)
  rw [List.take_length] at hturns
  simp only [filtered, hturns, struckBy, List.filter_map, List.map_map]
  exact List.map_id _

lemma mem_filtered : m ∈ filtered ds ↔ m ∈ ds ∧ ∀ a ∈ standing ds, a.shadows m = false := by
  simp [filtered_eq]

/-! ### What stays -/

/-- What stays stood at its turn. -/
lemma mem_standing_of_mem_filtered (h : m ∈ filtered ds) : m ∈ standing ds := by
  obtain ⟨hm, hs⟩ := mem_filtered.mp h
  rcases mem_standing_or_shadowed hm with hstands | ⟨a, ha, hsm⟩
  · exact hstands
  · exact absurd hsm (by simp [hs a ha])

/-- Nothing that stays shadows anything that stays. -/
lemma not_shadows_of_mem_filtered (ha : a ∈ filtered ds) (hm : m ∈ filtered ds) :
    a.shadows m = false :=
  (mem_filtered.mp hm).2 a (mem_standing_of_mem_filtered ha)

/-- A list on which nothing shadows anything is left as it is. -/
lemma filtered_eq_self (h : ∀ a ∈ ds, ∀ b ∈ ds, a.shadows b = false) : filtered ds = ds := by
  rw [filtered_eq, List.filter_eq_self]
  intro d hd
  have hnone : ∀ a ∈ standing ds, a.shadows d = false := fun a ha =>
    h a ((sublist_standing ds).subset ha) d hd
  simpa using hnone

/-! ### Being overtaken -/

/-- A diagnostic that stood at its turn and is shadowed by a later one that did. -/
def Overtaken (ds : List Diagnostic) (a : Diagnostic) : Prop :=
  a ∈ standing ds ∧ ∃ b ∈ standing ds, [a, b].Sublist ds ∧ b.shadows a

/-- What stood at its turn stays, unless one of those behind it shadows it. -/
lemma mem_filtered_or_shadowed {front back : List Diagnostic}
    (h : standing ds = front ++ a :: back) : a ∈ filtered ds ∨ ∃ b ∈ back, b.shadows a := by
  by_cases hback : ∃ b ∈ back, b.shadows a
  · exact Or.inr hback
  have hpairs := pairwise_standing ds
  rw [h, List.pairwise_append] at hpairs
  refine Or.inl (mem_filtered.mpr ⟨(sublist_standing ds).subset (by simp [h]), ?_⟩)
  intro b hb
  rw [h, List.mem_append, List.mem_cons] at hb
  rcases hb with hfront | rfl | hb
  · exact hpairs.2.2 b hfront a List.mem_cons_self
  · exact shadows_self b
  · simpa using fun hs => hback ⟨b, hb, hs⟩

lemma mem_filtered_or_overtaken (h : a ∈ standing ds) : a ∈ filtered ds ∨ Overtaken ds a := by
  obtain ⟨front, back, heq⟩ := List.append_of_mem h
  rcases mem_filtered_or_shadowed heq with hkept | ⟨b, hb, hs⟩
  · exact Or.inl hkept
  · have hsub : [a, b].Sublist (standing ds) := by
      rw [heq]
      exact ((List.singleton_sublist.mpr hb).cons_cons a).trans (List.sublist_append_right _ _)
    exact Or.inr ⟨h, b, by simp [heq, hb], hsub.trans (sublist_standing ds), hs⟩

/-- What stood at its turn stays or is at the end of a chain of shadows that begins with one that
stays. The chain only goes on to diagnostics further behind, so it ends. -/
lemma exists_chain {front back : List Diagnostic} (h : standing ds = front ++ a :: back) :
    ∃ k ∈ filtered ds, Relation.ReflTransGen (fun x y => x.shadows y) k a := by
  induction hn : back.length using Nat.strong_induction_on generalizing front back a with
  | _ n ih =>
      rcases mem_filtered_or_shadowed h with hkept | ⟨b, hb, hs⟩
      · exact ⟨a, hkept, .refl⟩
      · obtain ⟨mid, rest, rfl⟩ := List.append_of_mem hb
        have hlt : rest.length < n := by
          rw [← hn, List.length_append, List.length_cons]
          omega
        have heq : standing ds = (front ++ a :: mid) ++ b :: rest := by
          rw [h, List.append_assoc, List.cons_append]
        obtain ⟨k, hk, hchain⟩ := ih rest.length hlt heq rfl
        exact ⟨k, hk, hchain.tail hs⟩

/-- Every diagnostic is at the end of a chain of shadows that begins with one that stays. -/
lemma exists_chain_of_mem (h : d ∈ ds) :
    ∃ k ∈ filtered ds, Relation.ReflTransGen (fun x y => x.shadows y) k d := by
  have hchain : ∀ a ∈ standing ds,
      ∃ k ∈ filtered ds, Relation.ReflTransGen (fun x y => x.shadows y) k a := by
    intro a ha
    obtain ⟨front, back, heq⟩ := List.append_of_mem ha
    exact exists_chain heq
  rcases mem_standing_or_shadowed h with hstands | ⟨a, ha, hs⟩
  · exact hchain d hstands
  · obtain ⟨k, hk, hka⟩ := hchain a ha
    exact ⟨k, hk, hka.tail hs⟩

lemma filtered_eq_nil_iff : filtered ds = [] ↔ ds = [] := by
  constructor
  · intro h
    by_contra hne
    obtain ⟨d, hd⟩ := List.exists_mem_of_ne_nil ds hne
    obtain ⟨k, hk, _⟩ := exists_chain_of_mem hd
    exact List.ne_nil_of_mem hk h
  · rintro rfl
    rfl

/-! ### The result -/

/-- **What stays is settled.** It is taken from the reports in their order, nothing of it shadows
anything else of it, only from no report nothing stays, and filtering once more changes nothing. -/
theorem filtered_settled (ds : List Diagnostic) :
    (filtered ds).Sublist ds ∧
      (filtered ds).Pairwise (fun a b => a.shadows b = false ∧ b.shadows a = false) ∧
      (filtered ds = [] ↔ ds = []) ∧ filtered (filtered ds) = filtered ds := by
  refine ⟨?_, ?_, filtered_eq_nil_iff, ?_⟩
  · rw [filtered_eq]
    exact List.filter_sublist
  · refine List.pairwise_of_forall_mem_list fun a ha b hb => ⟨?_, ?_⟩
    · exact not_shadows_of_mem_filtered ha hb
    · exact not_shadows_of_mem_filtered hb ha
  · exact filtered_eq_self fun a ha b hb => not_shadows_of_mem_filtered ha hb

/-- **What is left out.** A reported diagnostic is missing just when one that stays shadows it, or
one that was overtaken after it had its turn. A chain of shadows leads to it from one that stays. -/
theorem missing_iff_shadowed_or_overtaken (hm : m ∈ ds) :
    (m ∉ filtered ds ↔
        (∃ k ∈ filtered ds, k.shadows m) ∨ ∃ a, Overtaken ds a ∧ a.shadows m) ∧
      (m ∉ filtered ds → ∃ k ∈ filtered ds, Relation.TransGen (fun x y => x.shadows y) k m) := by
  have hmissing : m ∉ filtered ds ↔ ∃ a ∈ standing ds, a.shadows m := by
    simp [mem_filtered, hm]
  refine ⟨⟨?_, ?_⟩, ?_⟩
  · intro h
    obtain ⟨a, ha, hs⟩ := hmissing.mp h
    rcases mem_filtered_or_overtaken ha with hkept | hover
    · exact Or.inl ⟨a, hkept, hs⟩
    · exact Or.inr ⟨a, hover, hs⟩
  · rintro (⟨k, hk, hs⟩ | ⟨a, hover, hs⟩)
    · exact hmissing.mpr ⟨k, mem_standing_of_mem_filtered hk, hs⟩
    · exact hmissing.mpr ⟨a, hover.1, hs⟩
  · intro h
    obtain ⟨a, ha, hs⟩ := hmissing.mp h
    obtain ⟨front, back, heq⟩ := List.append_of_mem ha
    obtain ⟨k, hk, hchain⟩ := exists_chain heq
    exact ⟨k, hk, .tail' hchain hs⟩

/-- A stray line, an absent URL where it begins, and a stray token inside of it. -/
def lineOverToken : List Diagnostic :=
  [new .unexpectedLine ⟨0, 10⟩, new .expectedUrl ⟨0, 1⟩, new .unexpectedToken ⟨5, 1⟩]

/-- The token is missing although the only diagnostic that shadows it, the line, is missing too. -/
theorem missing_stray_token :
    new .unexpectedToken ⟨5, 1⟩ ∈ lineOverToken ∧
      new .unexpectedToken ⟨5, 1⟩ ∉ filtered lineOverToken ∧
      ∃ k ∈ filtered lineOverToken,
        Relation.TransGen (fun x y => x.shadows y) k (new .unexpectedToken ⟨5, 1⟩) := by
  have hmem : new .unexpectedToken ⟨5, 1⟩ ∈ lineOverToken := by decide
  have hmissing : new .unexpectedToken ⟨5, 1⟩ ∉ filtered lineOverToken := by decide
  exact ⟨hmem, hmissing, (missing_iff_shadowed_or_overtaken hmem).2 hmissing⟩

/-- What is missing need not be shadowed by anything that stays. -/
theorem not_missing_iff_shadowed :
    ¬∀ (ds : List Diagnostic) (m : Diagnostic), m ∈ ds →
      (m ∉ filtered ds ↔ ∃ k ∈ filtered ds, k.shadows m) := by
  intro h
  have hiff := h lineOverToken (new .unexpectedToken ⟨5, 1⟩) (by decide)
  exact absurd (hiff.mp (by decide)) (by decide)

end Diagnostic

end RequestFile
