import RequestFile.Proofs.Leaves
import RequestFile.Proofs.Nodes

/-!
Nodes at their places in a tree.

A `Site` is a node together with the kinds of the nodes around it and the leaves in front of it, all
the way back to the start of the source. `Tree.sites` lists the nodes of a tree with their places.

* **Lines.** `Tree.AtLineStart` says that a line begins behind some leaves, and `Tree.Indented` that
  a blank may stand between that line's start and their end.
* **Rows.** The sites of a row of trees are those of its parts, the second part with the leaves of
  the first in front (`Tree.sitesOf_append`).
-/

namespace RequestFile

namespace Tree

/-- A node where it stands in a tree. -/
structure Site where
  /-- The kinds of the nodes around it, from the inside out. -/
  around : List Kind
  /-- The leaves in front of it. -/
  front : List (Kind × String)
  tree : Tree

mutual

/-- The nodes of a tree, the root included, at their places. -/
def sites (around : List Kind) (front : List (Kind × String)) : Tree → List Site
  | leaf _ _ => []
  | node k ts => ⟨around, front, node k ts⟩ :: sitesOf (k :: around) front ts

/-- The nodes of neighbouring trees at their places. -/
def sitesOf (around : List Kind) (front : List (Kind × String)) : List Tree → List Site
  | [] => []
  | t :: ts => sites around front t ++ sitesOf around (front ++ t.leaves) ts

end

variable {around : List Kind} {front : List (Kind × String)} {k : Kind} {s : Site} {t u v : Tree}
  {ts us : List Tree} {P : Tree → Prop}

lemma sitesOf_append : sitesOf around front (ts ++ us)
    = sitesOf around front ts ++ sitesOf around (front ++ leavesOf ts) us := by
  induction ts generalizing front with
  | nil => simp [sitesOf, leavesOf]
  | cons t ts ih =>
      rw [List.cons_append, sitesOf, sitesOf, ih, leavesOf, List.append_assoc, List.append_assoc]

lemma sitesOf_singleton (t : Tree) : sitesOf around front [t] = sites around front t := by
  rw [sitesOf, sitesOf, List.append_nil]

mutual

/-- What holds for every node holds at every site. -/
lemma Every.of_mem_sites : ∀ {t : Tree} {around : List Kind} {front : List (Kind × String)},
    Every P t → s ∈ sites around front t → P s.tree
  | leaf _ _, _, _, _, hs => by simp [sites] at hs
  | node k ts, around, front, h, hs => by
      rw [sites] at hs
      rcases List.mem_cons.mp hs with rfl | hs
      · exact h.1
      · exact EveryOf.of_mem_sitesOf h.2 hs

lemma EveryOf.of_mem_sitesOf : ∀ {ts : List Tree} {around : List Kind}
    {front : List (Kind × String)}, EveryOf P ts → s ∈ sitesOf around front ts → P s.tree
  | [], _, _, _, hs => by simp [sitesOf] at hs
  | t :: ts, around, front, h, hs => by
      rw [sitesOf, List.mem_append] at hs
      rcases hs with hs | hs
      · exact Every.of_mem_sites h.1 hs
      · exact EveryOf.of_mem_sitesOf h.2 hs

end

mutual

/-- Every node of a kind stands at a site. -/
lemma exists_site : ∀ {t : Tree} (around : List Kind) (front : List (Kind × String)),
    u ∈ t.nodesOf k → ∃ s ∈ sites around front t, s.tree = u ∧ u.kind = k
  | leaf _ _, _, _, hu => by simp [nodesOf] at hu
  | node k' ts, around, front, hu => by
      rw [nodesOf] at hu
      have hbelow : u ∈ nodesOfAll k ts → ∃ s ∈ sites around front (node k' ts),
          s.tree = u ∧ u.kind = k := fun hu => by
        obtain ⟨s, hs, htree⟩ := exists_site_of (k' :: around) front hu
        exact ⟨s, List.mem_cons_of_mem _ hs, htree⟩
      split_ifs at hu with hk
      · rcases List.mem_cons.mp hu with rfl | hu
        · exact ⟨_, List.mem_cons_self, rfl, eq_of_beq hk⟩
        · exact hbelow hu
      · exact hbelow hu

lemma exists_site_of : ∀ {ts : List Tree} (around : List Kind) (front : List (Kind × String)),
    u ∈ nodesOfAll k ts → ∃ s ∈ sitesOf around front ts, s.tree = u ∧ u.kind = k
  | [], _, _, hu => by simp [nodesOfAll] at hu
  | t :: ts, around, front, hu => by
      rw [nodesOfAll, List.mem_append] at hu
      rcases hu with hu | hu
      · obtain ⟨s, hs, htree⟩ := exists_site around front hu
        exact ⟨s, List.mem_append_left _ hs, htree⟩
      · obtain ⟨s, hs, htree⟩ := exists_site_of around (front ++ t.leaves) hu
        exact ⟨s, List.mem_append_right _ hs, htree⟩

end

lemma nodesOfAll_eq_flatMap (k : Kind) (ts : List Tree) :
    nodesOfAll k ts = ts.flatMap (nodesOf k) := by
  induction ts with
  | nil => rfl
  | cons t ts ih => rw [nodesOfAll, List.flatMap_cons, ih]

lemma nodesOfAll_append : nodesOfAll k (ts ++ us) = nodesOfAll k ts ++ nodesOfAll k us := by
  rw [nodesOfAll_eq_flatMap, nodesOfAll_eq_flatMap, nodesOfAll_eq_flatMap, List.flatMap_append]

lemma nodesOf_leaf (K : Kind) (w : String) : (leaf K w).nodesOf k = [] := by
  rw [nodesOf]

lemma nodesOf_node_of_ne {K : Kind} (h : K ≠ k) (ts : List Tree) :
    (node K ts).nodesOf k = nodesOfAll k ts := by
  rw [nodesOf, if_neg (by simpa using h)]

lemma mem_nodesOf_self (h : t.isNode) : t ∈ t.nodesOf t.kind := by
  cases t with
  | leaf _ _ => cases h
  | node k ts => simp [nodesOf, kind]

lemma mem_nodesOf_node {K : Kind} (h : u ∈ nodesOfAll k ts) : u ∈ (node K ts).nodesOf k := by
  rw [nodesOf]
  split_ifs
  · exact List.mem_cons_of_mem _ h
  · exact h

lemma mem_nodesOfAll_of_mem (ht : t ∈ ts) (hu : u ∈ t.nodesOf k) : u ∈ nodesOfAll k ts := by
  rw [nodesOfAll_eq_flatMap]
  exact List.mem_flatMap_of_mem ht hu

mutual

/-- The child nodes of a node of a tree are nodes of the tree. -/
lemma mem_nodesOf_of_mem_children : ∀ {t : Tree}, u ∈ t.nodesOf k → v ∈ u.children → v.isNode →
    v ∈ t.nodesOf v.kind
  | leaf _ _, hu, _, _ => by simp [nodesOf] at hu
  | node k' ts, hu, hv, hnode => by
      have hbelow : u ∈ nodesOfAll k ts → v ∈ (node k' ts).nodesOf v.kind := fun hu =>
        mem_nodesOf_node (mem_nodesOfAll_of_mem_children hu hv hnode)
      rw [nodesOf] at hu
      split_ifs at hu
      · rcases List.mem_cons.mp hu with rfl | hu
        · exact mem_nodesOf_node (mem_nodesOfAll_of_mem hv (mem_nodesOf_self hnode))
        · exact hbelow hu
      · exact hbelow hu

lemma mem_nodesOfAll_of_mem_children : ∀ {ts : List Tree}, u ∈ nodesOfAll k ts → v ∈ u.children →
    v.isNode → v ∈ nodesOfAll v.kind ts
  | [], hu, _, _ => by simp [nodesOfAll] at hu
  | t :: ts, hu, hv, hnode => by
      rw [nodesOfAll, List.mem_append] at hu ⊢
      exact hu.imp (fun hu => mem_nodesOf_of_mem_children hu hv hnode)
        fun hu => mem_nodesOfAll_of_mem_children hu hv hnode

end

mutual

/-- Below a node of a tree stand some of the tokens below the tree. -/
lemma Over.of_mem_sites : ∀ {t : Tree} {toks : List Token} {around : List Kind}
    {front : List (Kind × String)}, Over toks t.leaves → s ∈ sites around front t →
    ∃ here, (∀ t ∈ here, t ∈ toks) ∧ Over here s.tree.leaves
  | leaf _ _, _, _, _, _, hs => by simp [sites] at hs
  | node k ts, toks, around, front, h, hs => by
      rw [sites] at hs
      rcases List.mem_cons.mp hs with rfl | hs
      · exact ⟨toks, fun _ ht => ht, h⟩
      · have hts : Over toks (leavesOf ts) := h
        exact Over.of_mem_sitesOf hts hs

lemma Over.of_mem_sitesOf : ∀ {ts : List Tree} {toks : List Token} {around : List Kind}
    {front : List (Kind × String)}, Over toks (leavesOf ts) → s ∈ sitesOf around front ts →
    ∃ here, (∀ t ∈ here, t ∈ toks) ∧ Over here s.tree.leaves
  | [], _, _, _, _, hs => by simp [sitesOf] at hs
  | t :: ts, toks, around, front, h, hs => by
      rw [leavesOf] at h
      obtain ⟨us, vs, rfl, hus, hvs⟩ := h.split
      rw [sitesOf, List.mem_append] at hs
      rcases hs with hs | hs
      · obtain ⟨here, hsub, hhere⟩ := Over.of_mem_sites hus hs
        exact ⟨here, fun t ht => List.mem_append_left vs (hsub t ht), hhere⟩
      · obtain ⟨here, hsub, hhere⟩ := Over.of_mem_sitesOf hvs hs
        exact ⟨here, fun t ht => List.mem_append_right us (hsub t ht), hhere⟩

end

mutual

/-- Nodes only stand at sites. -/
lemma isNode_of_mem_sites : ∀ {t : Tree} {around : List Kind} {front : List (Kind × String)},
    s ∈ sites around front t → s.tree.isNode
  | leaf _ _, _, _, hs => by simp [sites] at hs
  | node k ts, _, _, hs => by
      rw [sites] at hs
      rcases List.mem_cons.mp hs with rfl | hs
      · rfl
      · exact isNode_of_mem_sitesOf hs

lemma isNode_of_mem_sitesOf : ∀ {ts : List Tree} {around : List Kind}
    {front : List (Kind × String)}, s ∈ sitesOf around front ts → s.tree.isNode
  | [], _, _, hs => by simp [sitesOf] at hs
  | t :: ts, _, _, hs => by
      rw [sitesOf, List.mem_append] at hs
      exact hs.elim isNode_of_mem_sites isNode_of_mem_sitesOf

end

mutual

/-- A node below a tree is the tree itself, or stands below a node of the tree as one of its
children. -/
lemma eq_or_child_of_mem_sites : ∀ {t : Tree} {around : List Kind} {front : List (Kind × String)},
    Every P t → s ∈ sites around front t →
    s = ⟨around, front, t⟩ ∧ t.isNode ∨
      ∃ v, P v ∧ s.tree ∈ v.children ∧ s.tree.isNode ∧ s.around.head? = some v.kind
  | leaf _ _, _, _, _, hs => by simp [sites] at hs
  | node k ts, around, front, h, hs => by
      rw [sites] at hs
      rcases List.mem_cons.mp hs with rfl | hs
      · exact .inl ⟨rfl, rfl⟩
      · rcases row_or_child_of_mem_sites h.2 hs with ⟨lead, t, tail, rfl, hnode, rfl⟩ | hbelow
        · exact .inr ⟨_, h.1, List.mem_append_right lead List.mem_cons_self, hnode, rfl⟩
        · exact .inr hbelow

/-- A node below a row of trees stands in the row, or below a node as one of its children. -/
lemma row_or_child_of_mem_sites : ∀ {ts : List Tree} {around : List Kind}
    {front : List (Kind × String)}, EveryOf P ts → s ∈ sitesOf around front ts →
    (∃ lead t tail, ts = lead ++ t :: tail ∧ t.isNode ∧ s = ⟨around, front ++ leavesOf lead, t⟩) ∨
      ∃ v, P v ∧ s.tree ∈ v.children ∧ s.tree.isNode ∧ s.around.head? = some v.kind
  | [], _, _, _, hs => by simp [sitesOf] at hs
  | t :: ts, around, front, h, hs => by
      rw [sitesOf, List.mem_append] at hs
      rcases hs with hs | hs
      · rcases eq_or_child_of_mem_sites h.1 hs with ⟨rfl, hnode⟩ | hbelow
        · exact .inl ⟨[], t, ts, rfl, hnode, by rw [leavesOf, List.append_nil]⟩
        · exact .inr hbelow
      · rcases row_or_child_of_mem_sites h.2 hs with ⟨lead, u, tail, rfl, hnode, rfl⟩ | hbelow
        · exact .inl ⟨t :: lead, u, tail, rfl, hnode, by rw [leavesOf, List.append_assoc]⟩
        · exact .inr hbelow

end

/-! ### Lines -/

/-- Whether a line begins behind some leaves: there are none, or the last is a terminator. -/
def AtLineStart (ls : List (Kind × String)) : Prop :=
  ∀ l ∈ ls.getLast?, l.1 = .newline

/-- Whether at most one blank stands at the end of some leaves behind the start of a line. -/
def Indented (ls : List (Kind × String)) : Prop :=
  ∃ us, AtLineStart us ∧ (ls = us ∨ ∃ w, ls = us ++ [(.whitespace, w)])

variable {ls : List (Kind × String)} {toks : List Token}

lemma AtLineStart.indented (h : AtLineStart ls) : Indented ls :=
  ⟨ls, h, .inl rfl⟩

/-- A line begins behind the leaves over some tokens if one begins behind the tokens. -/
lemma Over.atLineStart (h : Over toks ls)
    (hl : (toks.getLast?.map fun t => decide (t.kind = .newline)).getD true = true) :
    AtLineStart ls := by
  intro l hlast
  obtain ⟨ms, rfl⟩ := List.getLast?_eq_some_iff.mp hlast
  obtain ⟨us, vs, rfl, _, hvs⟩ := h.split
  have hb := hvs.leafOver
  have hend : (us ++ vs).getLast? = some (vs.getLast hb.nonempty) := by
    rw [List.getLast?_append, List.getLast?_eq_some_getLast hb.nonempty, Option.some_or]
  rw [hend] at hl
  obtain ⟨_, heq⟩ := hb.eq_of_newline (List.getLast_mem hb.nonempty) (of_decide_eq_true hl)
  exact congrArg Prod.fst heq

end Tree

end RequestFile
