import Mathlib.Tactic
import RequestFile.Proofs.Placed
import RequestFile.Summary

/-!
Headers merged by name.

* **Pairs.** A header gives a pair of its name and its value. The tree of a header gives the same pair
  as what is read from it (`Entry.header?_ofTree`).
* **Merging.** `HeaderMap.merged` says of a list of pairs what their merged form is: the names, each
  where it occurs first, with the values of that name joined in their order. One pair more is added to
  it (`HeaderMap.merged_concat`), so pair after pair gives the merged form of all of them
  (`HeaderMap.ofEntries_eq_merged`).
-/

namespace RequestFile

/-! ### Distinct names -/

section Distinct

variable {α : Type} [DecidableEq α]

lemma eraseDups_concat (xs : List α) (x : α) :
    (xs ++ [x]).eraseDups = if x ∈ xs then xs.eraseDups else xs.eraseDups ++ [x] := by
  rw [List.eraseDups_append]
  by_cases hx : x ∈ xs <;> simp [List.removeAll, List.eraseDups_cons, hx]

lemma nodup_eraseDups (xs : List α) : xs.eraseDups.Nodup := by
  induction xs using List.reverseRecOn with
  | nil => exact List.nodup_nil
  | append_singleton xs x ih =>
      rw [eraseDups_concat]
      split_ifs with hx
      · exact ih
      · rw [List.nodup_append]
        refine ⟨ih, List.nodup_singleton x, fun y hy z hz h => hx ?_⟩
        rw [← List.mem_singleton.mp hz, ← h]
        exact List.mem_eraseDups.mp hy

end Distinct

/-! ### Pairs of a name and a value -/

/-- The name and the value of an entry that has a name. -/
def Entry.header? (e : Entry) : Option (String × String) :=
  e.name.map fun n => (n.text, e.valueText)

/-- The texts of the name and of the value below a header; a value that is missing is empty. -/
def Tree.header? (t : Tree) : Option (String × String) :=
  (t.child? .headerEntity).map fun n => (n.text, ((t.child? .value).map Tree.text).getD "")

lemma Entry.header?_ofTree (p : Placed) :
    (Entry.ofTree .headerEntity p).header? = p.tree.header? := by
  rw [header?, Tree.header?, ← p.map_tree_child? .headerEntity, ← p.map_tree_child? .value, valueText,
    ofTree]
  simp only [Option.map_map]
  rfl

/-! ### Merging -/

namespace HeaderMap

/-- The merged form of some headers: the distinct names in order of their first occurrence, each with
the values under it, joined by commas in their order. -/
def merged (hs : List (String × String)) : HeaderMap :=
  (hs.map Prod.fst).eraseDups.map fun n =>
    (n, ", ".intercalate ((hs.filter (·.1 = n)).map Prod.snd))

/-- Adding a value under a name, where every name occurs once. -/
lemma add_map {ns : List String} (hn : ns.Nodup) (f : String → String) (n v : String) :
    add n v (ns.map fun x => (x, f x))
      = if n ∈ ns then ns.map fun x => (x, if x = n then f x ++ ", " ++ v else f x)
        else ns.map (fun x => (x, f x)) ++ [(n, v)] := by
  induction ns with
  | nil => rfl
  | cons x ns ih =>
      obtain ⟨hx, hns⟩ := List.nodup_cons.mp hn
      rw [List.map_cons, add]
      by_cases hxn : x = n
      · subst hxn
        have hrest : ns.map (fun y => (y, if y = x then f y ++ ", " ++ v else f y))
            = ns.map fun y => (y, f y) :=
          List.map_congr_left fun y hy => by rw [if_neg fun h : y = x => hx (h ▸ hy)]
        simp [hrest]
      · rw [if_neg hxn, ih hns]
        by_cases hmem : n ∈ ns <;> simp [hmem, hxn, Ne.symm hxn]

/-- One more header is added to the merged ones. -/
lemma merged_concat (hs : List (String × String)) (n v : String) :
    merged (hs ++ [(n, v)]) = (merged hs).add n v := by
  have hvalues : ∀ x, ((hs ++ [(n, v)]).filter (·.1 = x)).map Prod.snd
      = (hs.filter (·.1 = x)).map Prod.snd ++ if n = x then [v] else [] := by
    intro x
    by_cases hx : n = x <;> simp [List.filter_append, hx]
  have hmem : n ∈ hs.map Prod.fst → (hs.filter (·.1 = n)).map Prod.snd ≠ [] := by
    intro hin h0
    obtain ⟨g, hg, hname⟩ := List.mem_map.mp hin
    have hfilter : g ∈ hs.filter (·.1 = n) := List.mem_filter.mpr ⟨hg, by simpa using hname⟩
    rw [List.map_eq_nil_iff.mp h0] at hfilter
    exact List.not_mem_nil hfilter
  rw [merged, merged, add_map (nodup_eraseDups _), List.map_append, List.map_singleton,
    eraseDups_concat]
  simp only [hvalues, List.mem_eraseDups]
  -- a name that was there keeps its place, and a new one comes last
  split_ifs with hin
  · refine List.map_congr_left fun x _ => ?_
    by_cases hx : x = n
    · subst hx
      rw [if_pos rfl, if_pos rfl, String.intercalate_append_of_ne_nil (hmem hin) (by simp),
        String.intercalate_singleton]
    · rw [if_neg hx, if_neg (Ne.symm hx), List.append_nil]
  · have hnone : (hs.filter (·.1 = n)).map Prod.snd = [] := by
      rw [List.map_eq_nil_iff, List.filter_eq_nil_iff]
      exact fun g hg hname => hin (List.mem_map.mpr ⟨g, hg, by simpa using hname⟩)
    rw [List.map_append, List.map_singleton, if_pos rfl, hnone, List.nil_append,
      String.intercalate_singleton]
    refine congrArg (· ++ [(n, v)]) (List.map_congr_left fun x hx => ?_)
    have hne : n ≠ x := fun heq => hin (heq ▸ List.mem_eraseDups.mp hx)
    rw [if_neg hne, List.append_nil]

/-- **Entry after entry** gives the merged form of all that have a name. -/
lemma ofEntries_eq_merged (es : List Entry) : ofEntries es = merged (es.filterMap Entry.header?) := by
  induction es using List.reverseRecOn with
  | nil => rfl
  | append_singleton es e ih =>
      rw [ofEntries, List.foldl_concat, ← ofEntries, ih, List.filterMap_append]
      cases hname : e.name with
      | none =>
          have hnone : [e].filterMap Entry.header? = [] := by simp [Entry.header?, hname]
          rw [hnone, List.append_nil]
      | some n =>
          have hsome : [e].filterMap Entry.header? = [(n.text, e.valueText)] := by
            simp [Entry.header?, hname]
          rw [hsome, merged_concat]

end HeaderMap

end RequestFile
