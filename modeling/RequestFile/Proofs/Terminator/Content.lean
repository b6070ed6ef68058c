import RequestFile.Content.Section
import RequestFile.Proofs.Nodes
import RequestFile.Proofs.Placed
import RequestFile.Proofs.Terminator.Parse

/-!
What is read from the trees of recoded sources.

* **Lines.** Names, values, methods and versions stand on one line (`Form.bars_breaks_production`),
  so they are the same in both sources.
* **Places.** `Placed.Stands` says that a tree stands in a source where it is placed. In the recoded
  source it stands where its offset has moved to, and so do the trees below it
  (`Placed.Stands.children_recoded`).
* **Content.** What metadata and headers say (`Entry.said`), the names of sections and the kinds of
  bodies do not change; the text of a URL is recoded.
-/

namespace RequestFile

open scoped Computability

/-! ### Texts of trees -/

namespace Tree

variable {e : Terminator} {t : Tree} {k : Kind}

mutual

lemma text_recode (e : Terminator) : ∀ t : Tree, (e.tree t).text = e.recode t.text
  | leaf k s => by
      rw [Terminator.tree, mapLeaves, ← textOf_singleton, textOf_leaf, ← textOf_singleton,
        textOf_leaf]
  | node k ts => by rw [e.tree_node, text_node, textOf_recode e ts, text_node]

lemma textOf_recode (e : Terminator) : ∀ ts : List Tree,
    textOf (ts.map e.tree) = e.recode (textOf ts)
  | [] => rfl
  | t :: ts => by
      rw [List.map_cons, textOf_cons, text_recode e t, textOf_recode e ts, textOf_cons,
        e.recode_append]

end

@[simp]
lemma kind_withTerminator : (t.withTerminator e).kind = t.kind := by
  cases t <;> rfl

@[simp]
lemma isNode_withTerminator : (t.withTerminator e).isNode = t.isNode := by
  cases t <;> rfl

lemma withTerminator_node (ts : List Tree) :
    (node k ts).withTerminator e = .node k (ts.map (withTerminator e)) := by
  rw [withTerminator, mapLeaves, mapLeavesOf_eq]

lemma children_withTerminator :
    (t.withTerminator e).children = t.children.map (withTerminator e) := by
  cases t with
  | leaf k s => rfl
  | node k ts => rw [withTerminator_node, children, children]

/-- Whether a tree goes over the end of a line. -/
def Breaks (t : Tree) : Prop :=
  ∃ l ∈ t.leaves, l.1 = .newline

mutual

lemma mapLeaves_eq_self {f : Kind → String → String} :
    ∀ {t : Tree}, (∀ l ∈ t.leaves, f l.1 l.2 = l.2) → t.mapLeaves f = t
  | leaf k s, h => congrArg (leaf k) (h (k, s) List.mem_cons_self)
  | node k _, h => congrArg (node k) (mapLeavesOf_eq_self h)

lemma mapLeavesOf_eq_self {f : Kind → String → String} :
    ∀ {ts : List Tree}, (∀ l ∈ leavesOf ts, f l.1 l.2 = l.2) → mapLeavesOf f ts = ts
  | [], _ => rfl
  | t :: ts, h => by
      rw [leavesOf, List.forall_mem_append] at h
      rw [mapLeavesOf, mapLeaves_eq_self h.1, mapLeavesOf_eq_self h.2]

end

/-- What stands on one line stays as it is. -/
lemma withTerminator_eq_self (h : ¬t.Breaks) : t.withTerminator e = t :=
  mapLeaves_eq_self fun l hl => if_neg fun hk => h ⟨l, hl, hk⟩

end Tree

/-! ### Nodes on one line -/

namespace Form

variable {L : TreeLanguage} {k : Kind} {e : Bool}

lemma bars_breaks_leaf (hk : k ≠ .newline) : Bars Tree.Breaks (leaf k) := by
  rintro _ ⟨u, rfl, rfl⟩ t ht ⟨l, hl, hn⟩
  rw [List.mem_singleton.mp ht, Tree.leaves, List.mem_singleton] at hl
  rw [hl] at hn
  exact hk hn

lemma bars_breaks_text : Bars Tree.Breaks text := by
  rintro _ ⟨us, _, _, rfl⟩ t ht ⟨l, hl, hn⟩
  rw [List.mem_singleton.mp ht, Tree.leaves, List.mem_singleton] at hl
  rw [hl] at hn
  cases hn

/-- A node goes over the end of a line only where one of its children does. -/
lemma Bars.breaks_node (h : Bars Tree.Breaks L) (k : Kind) : Bars Tree.Breaks (node k L) := by
  rintro _ ⟨ts, hts, rfl⟩ t ht ⟨l, hl, hn⟩
  rw [List.mem_singleton.mp ht, Tree.leaves] at hl
  have hrow := h ts hts
  clear hts ht
  induction ts with
  | nil => simp [Tree.leavesOf] at hl
  | cons u ts ih =>
      rw [Tree.leavesOf, List.mem_append] at hl
      rcases hl with hl | hl
      · exact hrow u List.mem_cons_self ⟨l, hl, hn⟩
      · exact ih hl fun t ht => hrow t (List.mem_cons_of_mem u ht)

lemma Bars.kstar {p : Tree → Prop} (h : Bars p L) : Bars p L∗ := by
  intro w hw t ht
  obtain ⟨ws, rfl, hws⟩ := Language.mem_kstar.mp hw
  obtain ⟨w, hmem, ht⟩ := List.mem_flatten.mp ht
  exact h w (hws w hmem) t ht

lemma bars_breaks_content : Bars Tree.Breaks (content e) := by
  have hblank : Bars Tree.Breaks blank := (bars_breaks_leaf (by decide)).opt
  have hname : Bars Tree.Breaks (identifier e) :=
    (bars_breaks_text.breaks_node _).add (bars_lapse e)
  have hclose : Bars Tree.Breaks (leaf .varClose + lapse e) :=
    (bars_breaks_leaf (by decide)).add (bars_lapse e)
  have hreference : Bars Tree.Breaks (reference e) :=
    (((((bars_breaks_leaf (by decide)).mul hblank).mul hname).mul hblank).mul hclose).breaks_node _
  exact (bars_breaks_text.add hreference).kstar

/-- The kinds of nodes that name something or give it a value. -/
def inlineKinds : List Kind :=
  [.identifier, .value, .method, .httpVersion, .headerEntity]

/-- **Names and values** stand on one line. -/
lemma bars_breaks_production (hk : k ∈ inlineKinds) {m : Bool} :
    Bars Tree.Breaks (production e m k) := by
  simp only [inlineKinds, List.mem_cons, List.not_mem_nil, or_false] at hk
  rcases hk with rfl | rfl | rfl | rfl | rfl
  · exact bars_breaks_text.breaks_node _
  · exact bars_breaks_content.breaks_node _
  · exact bars_breaks_text.breaks_node _
  · exact bars_breaks_text.breaks_node _
  · exact bars_breaks_text.breaks_node _

end Form

/-! ### Places -/

namespace Placed

/-- The tree in a recoded source. -/
def recoded (e : Terminator) (source : String) (x : Placed) : Placed :=
  ⟨e.offset source x.start, x.tree.withTerminator e⟩

/-- A tree of a parse, at its place in the source. -/
structure Stands (e : Terminator) (source : String) (x : Placed) : Prop where
  place : ∃ a b, source = a ++ (x.tree.text ++ b) ∧ x.start = a.utf8ByteSize
  plain : e.tree x.tree = x.tree.withTerminator e
  whole : x.tree.Every fun t => [t] ∈ Form.production true true t.kind

variable {e : Terminator} {source : String} {x y : Placed} {k : Kind}

lemma Stands.text_recoded (h : x.Stands e source) :
    (x.recoded e source).tree.text = e.recode x.tree.text := by
  rw [recoded, ← h.plain, Tree.text_recode]

/-- A row of trees moves with its offset. -/
lemma sequence_recoded {ts : List Tree} (hplain : ∀ t ∈ ts, e.tree t = t.withTerminator e)
    {a b : String} (hsource : source = a ++ (Tree.textOf ts ++ b)) :
    sequence (e.offset source a.utf8ByteSize) (ts.map (Tree.withTerminator e))
      = (sequence a.utf8ByteSize ts).map (recoded e source) := by
  induction ts generalizing a with
  | nil => rfl
  | cons t ts ih =>
      obtain ⟨ht, hts⟩ := List.forall_mem_cons.mp hplain
      have hnext : source = (a ++ t.text) ++ (Tree.textOf ts ++ b) := by
        rw [hsource, Tree.textOf_cons, String.append_assoc, String.append_assoc]
      have hstop : e.offset source a.utf8ByteSize + (t.withTerminator e).size
          = e.offset source (a.utf8ByteSize + t.size) := by
        calc e.offset source a.utf8ByteSize + (t.withTerminator e).size
            = (e.recode (a ++ t.text)).utf8ByteSize := by
              rw [← ht, Tree.size_eq, Tree.text_recode, hsource, e.offset_append, e.recode_append,
                String.utf8ByteSize_append]
          _ = e.offset source (a.utf8ByteSize + t.size) := by
              rw [Tree.size_eq, ← String.utf8ByteSize_append, hnext, e.offset_append]
      rw [List.map_cons, sequence, hstop, Tree.size_eq, ← String.utf8ByteSize_append, ih hts hnext,
        sequence, List.map_cons, Tree.size_eq, ← String.utf8ByteSize_append]
      rfl

/-- The trees below a node, in the source. -/
lemma Stands.row {o : Nat} {ts : List Tree} (h : Stands e source ⟨o, .node k ts⟩) :
    (∃ a b, source = a ++ (Tree.textOf ts ++ b) ∧ o = a.utf8ByteSize) ∧
      (∀ t ∈ ts, e.tree t = t.withTerminator e) ∧
      Tree.EveryOf (fun t => [t] ∈ Form.production true true t.kind) ts := by
  have hplain := h.plain
  rw [e.tree_node, Tree.withTerminator_node, Tree.node.injEq, List.map_inj_left] at hplain
  exact ⟨h.place, hplain.2, h.whole.children⟩

/-- **The trees below** move along. -/
lemma Stands.children_recoded (h : x.Stands e source) :
    (x.recoded e source).children = x.children.map (recoded e source) := by
  obtain ⟨o, _ | ⟨k, ts⟩⟩ := x
  · rfl
  · obtain ⟨⟨a, b, hsource, rfl⟩, hplain, _⟩ := h.row
    rw [children, recoded, Tree.children_withTerminator]
    exact sequence_recoded hplain hsource

lemma Stands.of_mem_children (h : x.Stands e source) (hy : y ∈ x.children) :
    y.Stands e source := by
  obtain ⟨o, _ | ⟨k, ts⟩⟩ := x
  · cases hy
  · obtain ⟨⟨a, b, hsource, rfl⟩, hplain, hwhole⟩ := h.row
    obtain ⟨us, t, vs, hts, rfl⟩ := mem_sequence.mp hy
    obtain rfl : ts = us ++ t :: vs := hts
    have ht : t ∈ us ++ t :: vs := List.mem_append_right us List.mem_cons_self
    refine ⟨⟨a ++ Tree.textOf us, Tree.textOf vs ++ b, ?_, ?_⟩, hplain t ht, hwhole.of_mem ht⟩
    · rw [hsource, Tree.textOf_append, Tree.textOf_cons]
      simp only [String.append_assoc]
    · rw [Tree.sizeOf_eq, String.utf8ByteSize_append]

lemma Stands.childrenOf_recoded (h : x.Stands e source) (k : Kind) :
    (x.recoded e source).childrenOf k = (x.childrenOf k).map (recoded e source) := by
  rw [childrenOf, h.children_recoded, List.filter_map, childrenOf]
  simp [Function.comp_def, recoded]

lemma Stands.child?_recoded (h : x.Stands e source) (k : Kind) :
    (x.recoded e source).child? k = (x.child? k).map (recoded e source) := by
  rw [child?, h.children_recoded, List.find?_map, child?]
  simp [recoded]

lemma Stands.of_mem_childrenOf (h : x.Stands e source) (hy : y ∈ x.childrenOf k) :
    y.Stands e source :=
  h.of_mem_children (List.mem_of_mem_filter hy)

lemma Stands.of_child? (h : x.Stands e source) (hy : x.child? k = some y) : y.Stands e source :=
  h.of_mem_children (List.mem_of_find?_eq_some hy)

/-- **Names and values** below a tree stay as they are. -/
lemma Stands.tree_child? (h : x.Stands e source) (hk : k ∈ Form.inlineKinds) :
    ((x.recoded e source).child? k).map tree = (x.child? k).map tree := by
  rw [h.child?_recoded, Option.map_map]
  refine Option.map_congr fun y hy => ?_
  have hfound := List.find?_some hy
  obtain ⟨hnode, hkind⟩ := Bool.and_eq_true_iff.mp hfound
  have hform := (h.of_child? hy).whole.of_isNode hnode
  rw [eq_of_beq hkind] at hform
  exact Tree.withTerminator_eq_self
    (Form.bars_breaks_production hk _ hform _ (List.mem_singleton_self _))

end Placed

/-! ### Content -/

/-- What an entry says, wherever it stands. -/
def Entry.said (x : Entry) : Option String × Option String :=
  (x.name.map (·.text), x.value.map (·.text))

/-- The name of a section is told by what its metadata say and by its title. -/
lemma Section.name_congr {s s' : Section}
    (hm : s'.metadata.map Entry.said = s.metadata.map Entry.said)
    (ht : s'.title.map (·.text) = s.title.map (·.text)) : s'.name = s.name := by
  have hname : ∀ s : Section, s.name
      = ((s.metadata.map Entry.said).find? fun v => v.1.any (· == "name")).elim
          (s.title.map (·.text)) Prod.snd := fun s => by
    have hentry : s.nameEntry.map Entry.said
        = (s.metadata.map Entry.said).find? fun v => v.1.any (· == "name") := by
      rw [List.find?_map, nameEntry]
      simp [Entry.said, Function.comp_def, Option.any_map]
    rw [← hentry, name]
    cases s.nameEntry <;> rfl
  rw [hname, hname, hm, ht]

namespace Placed.Stands

variable {e : Terminator} {source : String} {x y : Placed} {k K : Kind}

lemma text_child? (h : x.Stands e source) (hk : k ∈ Form.inlineKinds) :
    ((x.recoded e source).child? k).map (·.tree.text) = (x.child? k).map (·.tree.text) := by
  have htree := congrArg (Option.map Tree.text) (h.tree_child? hk)
  rwa [Option.map_map, Option.map_map] at htree

lemma text_tree_child? (h : x.Stands e source) (hk : k ∈ Form.inlineKinds) :
    ((x.recoded e source).tree.child? k).map Tree.text = (x.tree.child? k).map Tree.text := by
  rw [← map_tree_child?, ← map_tree_child?, h.tree_child? hk]

lemma said_entry (h : x.Stands e source) (hk : k ∈ Form.inlineKinds) :
    (Entry.ofTree k (x.recoded e source)).said = (Entry.ofTree k x).said := by
  have hname := h.text_child? hk
  have hvalue := h.text_child? (k := .value) (by decide)
  simp only [Entry.said, Entry.ofTree, Option.map_map]
  exact Prod.ext hname hvalue

lemma said_entries (h : x.Stands e source) (hk : k ∈ Form.inlineKinds) :
    (((x.recoded e source).childrenOf K).map (Entry.ofTree k)).map Entry.said
      = ((x.childrenOf K).map (Entry.ofTree k)).map Entry.said := by
  rw [h.childrenOf_recoded, List.map_map, List.map_map, List.map_map]
  exact List.map_congr_left fun y hy => (h.of_mem_childrenOf hy).said_entry hk

/-- **The name of a section** stays. -/
lemma name_section (h : x.Stands e source) :
    (Section.ofTree (x.recoded e source)).name = (Section.ofTree x).name := by
  refine Section.name_congr (h.said_entries (by decide)) ?_
  simp only [Section.title, Section.ofTree, h.child?_recoded, Option.map_map]
  cases hy : x.child? .requestSeparator with
  | none => rfl
  | some y =>
      have htitle := (h.of_child? hy).text_child? (k := .value) (by decide)
      simp only [Option.map_some, Function.comp_apply, Option.join_some, Option.map_map]
      exact htitle

/-- **The kind of a body** is that of its node. -/
lemma name_body (e : Terminator) (source : String) (x : Placed) :
    (Body.ofTree? (x.recoded e source)).map (·.content.name)
      = (Body.ofTree? x).map (·.content.name) := by
  obtain ⟨o, _ | ⟨k, ts⟩⟩ := x
  · rfl
  · rw [recoded, Tree.withTerminator_node]
    cases k <;> rfl

end Placed.Stands

end RequestFile
