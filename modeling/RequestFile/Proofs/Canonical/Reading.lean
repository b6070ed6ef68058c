import RequestFile.Proofs.Canonical.Section
import RequestFile.Proofs.Limits.Outcome
import RequestFile.Proofs.Merging
import RequestFile.Proofs.Text

/-!
Reading the trees of printed requests.

* **Headers.** The merged headers of a request are those of its summary (`RequestModel.ofEntries_eq`).
* **Lines.** The number of a line counts the lines printed in front of it (`lineNumber_unlines`).
* **Trees.** What a summary says of a section is read off the trees that were parsed
  (`Summary.ofRequest_tree`).
-/

namespace RequestFile

/-! ### Lines -/

lemma count_unlines {ls : List String} (h : ∀ l ∈ ls, OneLine l) :
    (unlines ls).toList.count '\n' = ls.length := by
  induction ls with
  | nil => rfl
  | cons l ls ih =>
      obtain ⟨hl, hls⟩ := List.forall_mem_cons.mp h
      have hnone : l.toList.count '\n' = 0 :=
        List.count_eq_zero.mpr fun hmem => (hl '\n' hmem).1 rfl
      rw [toList_unlines_cons, List.count_append, hnone, List.count_cons_self, ih hls, List.length_cons,
        Nat.zero_add]

/-- **Line numbers** count the lines in front. -/
lemma lineNumber_unlines {ls : List String} (h : ∀ l ∈ ls, OneLine l) (rest : String) :
    lineNumber (unlines ls ++ rest) (unlines ls).utf8ByteSize = ls.length + 1 := by
  rw [lineNumber_append, count_unlines h]

/-! ### Trees -/

@[simp]
lemma text_node_leaf (K k : Kind) (s : String) : (Tree.node K [.leaf k s]).text = s := by
  rw [Tree.text_node, Tree.textOf_leaf]

/-- What a header is read as. -/
lemma header?_tree (h : HeaderModel) : h.tree.header? = some (h.name, h.value) := by
  by_cases hv : h.value = "" <;>
    simp [Tree.header?, Tree.child?, HeaderModel.tree, Cursor.spacedTrees, Tree.children, Tree.isNode,
      Tree.kind, hv]

lemma RequestModel.mergedHeaders_eq (hs : List HeaderModel) :
    mergedHeaders hs = HeaderMap.merged (hs.map fun h => (h.name, h.value)) := by
  simp [mergedHeaders, HeaderMap.merged, List.filter_map, Function.comp_def]

/-- **Headers** are merged in their order. -/
lemma RequestModel.ofEntries_eq {ps : List Placed} {hs : List HeaderModel}
    (h : ps.map Placed.tree = hs.map HeaderModel.tree) :
    HeaderMap.ofEntries (ps.map (Entry.ofTree .headerEntity)) = mergedHeaders hs := by
  have hread : ∀ ps : List Placed, (ps.map (Entry.ofTree .headerEntity)).filterMap Entry.header?
      = (ps.map Placed.tree).filterMap Tree.header? := fun ps => by
    rw [List.filterMap_map, List.filterMap_map]
    exact List.filterMap_congr fun p _ => Entry.header?_ofTree p
  have hpairs : hs.filterMap (Tree.header? ∘ HeaderModel.tree) = hs.map fun h => (h.name, h.value) :=
    (List.filterMap_congr fun h _ => header?_tree h).trans (congrFun List.filterMap_eq_map' hs)
  rw [HeaderMap.ofEntries_eq_merged, hread, h, List.filterMap_map, hpairs, mergedHeaders_eq]

namespace RequestModel

variable (m : RequestModel) (url body : List Tree)

lemma childrenOf_header :
    (Tree.node .request (m.requestTrees url body)).childrenOf .header
      = m.headers.map HeaderModel.tree := by
  have hheaders : (m.headers.map HeaderModel.tree).filter (fun c => c.isNode && c.kind == .header)
      = m.headers.map HeaderModel.tree := by
    rw [List.filter_eq_self, List.forall_mem_map]
    exact fun h _ => rfl
  have hline : (m.requestLineTrees url).filter (fun c => c.isNode && c.kind == .header) = [] := by
    rw [requestLineTrees, versionTrees]
    cases m.version <;> rfl
  have hbody : (m.bodyTrees body).filter (fun c => c.isNode && c.kind == .header) = [] := by
    rw [bodyTrees]
    cases m.body <;> rfl
  rw [Tree.childrenOf, Tree.children, requestTrees, List.filter_append, List.filter_append,
    hheaders, hline, hbody, List.nil_append, List.append_nil]

/-- The version stands in the request line. -/
lemma child_httpVersion :
    ((Tree.node .request (m.requestTrees url body)).child? .httpVersion).map Tree.text
      = m.version.map ("HTTP/" ++ ·) := by
  have hheaders :
      (m.headers.map HeaderModel.tree).find? (fun c => c.isNode && c.kind == .httpVersion) = none := by
    rw [List.find?_eq_none, List.forall_mem_map]
    exact fun h _ => Bool.false_ne_true
  have hbody : (m.bodyTrees body).find? (fun c => c.isNode && c.kind == .httpVersion) = none := by
    rw [bodyTrees]
    cases m.body <;> rfl
  have hline : (m.requestLineTrees url).find? (fun c => c.isNode && c.kind == .httpVersion)
      = m.version.map fun v => .node .httpVersion [.leaf .text ("HTTP/" ++ v)] := by
    rw [requestLineTrees, versionTrees]
    cases m.version <;> rfl
  rw [Tree.child?, Tree.children, requestTrees, List.find?_append, List.find?_append, hheaders,
    hbody, hline, Option.or_none, Option.or_none, Option.map_map]
  refine congrArg (m.version.map ·) (funext fun v => ?_)
  exact text_node_leaf ..

lemma filterMap_sequence_eq_nil {α : Type} {f : Placed → Option α} {ts : List Tree}
    (h : ∀ t ∈ ts, ∀ k, f ⟨k, t⟩ = none) (n : Nat) : (Placed.sequence n ts).filterMap f = [] := by
  induction ts generalizing n with
  | nil => rfl
  | cons t ts ih =>
      obtain ⟨ht, hts⟩ := List.forall_mem_cons.mp h
      rw [Placed.sequence, List.filterMap_cons, ht n, ih hts]

/-- The first body of a request. -/
lemma head_bodies (o : Nat) :
    ((Placed.mk o (.node .request (m.requestTrees url body))).children.filterMap
        Body.ofTree?).head?.map (·.content.name) = m.body.map fun _ => "json_body" := by
  have hline : ∀ t ∈ m.requestLineTrees url, ∀ k, Body.ofTree? ⟨k, t⟩ = none := by
    rw [requestLineTrees, versionTrees]
    cases m.version <;> simp [Body.ofTree?, BodyContent.ofTree?]
  have hheaders : ∀ t ∈ m.headers.map HeaderModel.tree, ∀ k, Body.ofTree? ⟨k, t⟩ = none := by
    rw [List.forall_mem_map]
    exact fun h _ k => rfl
  rw [Placed.children, Tree.children, requestTrees, Placed.sequence_append, Placed.sequence_append,
    List.filterMap_append, List.filterMap_append, filterMap_sequence_eq_nil hline,
    filterMap_sequence_eq_nil hheaders, bodyTrees]
  cases m.body <;> rfl

/-- The name of a section is its title. -/
lemma name_section (o : Nat) : (Section.ofTree ⟨o, m.tree url body⟩).name = m.title := by
  have hentry : (Section.ofTree ⟨o, m.tree url body⟩).nameEntry = none := rfl
  rw [Section.name, hentry]
  cases ht : m.title with
  | none =>
      simp [Section.title, Section.ofTree, tree, separatorTree, Cursor.spacedTrees, ht, Placed.child?,
        Placed.children, Placed.sequence, Tree.children, Tree.isNode, Tree.kind]
  | some t =>
      have hne := m.title_ne t ht
      simp [Section.title, Section.ofTree, tree, separatorTree, Cursor.spacedTrees, ht, hne,
        Placed.child?, Placed.children, Placed.sequence, Tree.children, Tree.isNode, Tree.kind,
        Value.ofTree, Piece.ofTree]

/-- The request of a section starts behind its separator. -/
lemma request_section (o : Nat) : (Section.ofTree ⟨o, m.tree url body⟩).request
    = some (Request.ofTree ⟨o + m.separatorTree.size, .node .request (m.requestTrees url body)⟩) := by
  rfl

/-- **What a summary says of a section.** -/
lemma ofRequest_tree {source : String} {o n : Nat} (hurl : Tree.textOf url = m.url)
    (hline : lineNumber source (o + m.separatorTree.size) = n + 1) :
    (Section.ofTree ⟨o, m.tree url body⟩).request.map
        (Summary.ofRequest source (Section.ofTree ⟨o, m.tree url body⟩)) = some (m.summary n) := by
  have hname : m.title.filter (fun n => !n.isEmpty) = m.title := by
    cases ht : m.title with
    | none => rfl
    | some t => simpa using m.title_ne t ht
  let r : Request :=
    Request.ofTree ⟨o + m.separatorTree.size, .node .request (m.requestTrees url body)⟩
  have hmethod : r.method = some m.method :=
    (Option.map_some ..).trans (congrArg some (text_node_leaf .method .text m.method))
  have htarget : r.url.map Url.oneLine = some m.url := by
    have hjoined := joinedLines_eq m.url_chars
    rw [← hurl] at hjoined ⊢
    exact congrArg some hjoined
  have hversion : r.version = m.version.map ("HTTP/" ++ ·) := m.child_httpVersion url body
  have hheaders : HeaderMap.ofEntries r.headers = mergedHeaders m.headers := by
    refine ofEntries_eq ?_
    rw [Placed.map_tree_childrenOf]
    exact m.childrenOf_header url body
  have hbody : r.bodies.head?.map (·.content.name) = m.body.map fun _ => "json_body" :=
    m.head_bodies url body _
  have hstart : lineNumber source r.span.start = n + 1 := hline
  rw [request_section, Option.map_some, Summary.ofRequest, summary, name_section, hname, hmethod,
    htarget, hversion, hheaders, hbody, hstart]
  rfl

end RequestModel

end RequestFile
