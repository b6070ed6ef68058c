import RequestFile.Proofs.Form

/-!
Places of trees.

* **Sizes.** A tree covers the bytes of its text (`Tree.size_eq`), so the size of a row of trees is
  that of their texts put together.
* **Rows.** Every tree of a row starts after those in front of it (`Placed.mem_sequence`), and
  without their places the trees of a row are the row (`Placed.map_tree_sequence`).
-/

namespace RequestFile

namespace Tree

@[simp]
lemma sizeOf_cons (t : Tree) (ts : List Tree) : sizeOf (t :: ts) = t.size + sizeOf ts := rfl

mutual

/-- A tree covers the bytes of its text. -/
lemma size_eq : ∀ t : Tree, t.size = t.text.utf8ByteSize
  | leaf k s => by rw [← textOf_singleton, textOf_leaf, size]
  | node k ts => by rw [text_node, size, sizeOf_eq]

lemma sizeOf_eq : ∀ ts : List Tree, sizeOf ts = (textOf ts).utf8ByteSize
  | [] => rfl
  | t :: ts => by
      rw [sizeOf, size_eq t, sizeOf_eq ts, textOf_cons, String.utf8ByteSize_append]

end

end Tree

namespace Placed

/-- Every tree of a row starts after those in front of it. -/
lemma mem_sequence {n : Nat} {ts : List Tree} {p : Placed} :
    p ∈ sequence n ts ↔ ∃ us t vs, ts = us ++ t :: vs ∧ p = ⟨n + Tree.sizeOf us, t⟩ := by
  induction ts generalizing n with
  | nil => simp [sequence]
  | cons t ts ih =>
      rw [sequence, List.mem_cons, ih]
      constructor
      · rintro (rfl | ⟨us, u, vs, rfl, rfl⟩)
        · exact ⟨[], t, ts, rfl, rfl⟩
        · exact ⟨t :: us, u, vs, rfl, by rw [Tree.sizeOf_cons, Nat.add_assoc]⟩
      · rintro ⟨us, u, vs, heq, rfl⟩
        cases us with
        | nil =>
            obtain ⟨rfl, rfl⟩ := List.cons.inj heq
            exact Or.inl rfl
        | cons x us =>
            obtain ⟨rfl, rfl⟩ := List.cons.inj heq
            exact Or.inr ⟨us, u, vs, rfl, by rw [Tree.sizeOf_cons, Nat.add_assoc]⟩

lemma sequence_append (n : Nat) (ts us : List Tree) :
    sequence n (ts ++ us) = sequence n ts ++ sequence (n + Tree.sizeOf ts) us := by
  induction ts generalizing n with
  | nil => rfl
  | cons t ts ih => rw [List.cons_append, sequence, ih, sequence, Tree.sizeOf_cons, Nat.add_assoc,
      List.cons_append]

lemma map_tree_sequence (n : Nat) (ts : List Tree) : (sequence n ts).map tree = ts := by
  induction ts generalizing n with
  | nil => rfl
  | cons t ts ih => rw [sequence, List.map_cons, ih]

lemma map_tree_childrenOf (p : Placed) (k : Kind) :
    (p.childrenOf k).map tree = p.tree.childrenOf k := by
  have hfilter := List.filter_map (f := tree) (p := fun c => c.isNode && c.kind == k)
    (l := p.children)
  rw [children, map_tree_sequence] at hfilter
  exact hfilter.symm

lemma map_tree_child? (p : Placed) (k : Kind) : (p.child? k).map tree = p.tree.child? k := by
  have hfind := List.find?_map (f := tree) (p := fun c => c.isNode && c.kind == k)
    (l := p.children)
  rw [children, map_tree_sequence] at hfind
  exact hfind.symm

end Placed

end RequestFile
