import RequestFile.Proofs.Closing
import RequestFile.Proofs.LastLine.Summary
import RequestFile.Proofs.Merging
import RequestFile.Proofs.Origin

/-!
Headers in the summaries of requests.

* **Requests.** A document has one summary for each request below one of its sections
  (`Document.requestNodes`), and a summary merges the headers directly below its request.
* **Nested headers.** Below a request no other node than a multipart body has room for headers, and
  none but the request has room for such a body. So the other headers in a request are those of its
  multipart bodies (`Tree.Formed.own_or_multipart_header`).
* **Documents.** `Document.parse_headers` says both of every parse.
-/

namespace RequestFile

open scoped Computability

/-! ### Nested headers -/

namespace Tree

variable {k : Kind} {r t : Tree}

/-- Every node of a tree has the form of its kind. -/
def Formed (t : Tree) : Prop :=
  Every (fun t => [t] ∈ Form.production true true t.kind) t

/-- A node in a request is the request or of an inner kind. -/
lemma Formed.eq_or_inner (hr : r.Formed) (hk : r.kind = .request) (ht : t ∈ r.nodesOf k) :
    t = r ∨ k ∉ outerKinds := by
  cases r with
  | leaf _ _ => simp [nodesOf] at ht
  | node K ts =>
      obtain rfl : K = .request := hk
      have hchild : ∀ u ∈ ts, u.isNode → u.kind ∉ outerKinds := fun u hu hnode => by
        have hslots : ∀ s ∈ (Shape.ofKind .request).slots, ∀ K ∈ s.types, K ∉ outerKinds := by
          decide
        exact kind_of_mem_children (P := (· ∉ outerKinds)) hr.1 (by decide) (fun _ => hslots) hu hnode
      rw [nodesOf] at ht
      have hbelow : t ∈ nodesOfAll k ts → k ∉ outerKinds := fun ht => by
        obtain ⟨hinner, hkind⟩ := (kindsBelow_inner.everyOf hr.2 hchild).of_mem_nodesOfAll ht
        rwa [hkind] at hinner
      split_ifs at ht
      · exact (List.mem_cons.mp ht).imp_right hbelow
      · exact .inr (hbelow ht)

/-- A node in a request whose kind has slots in a few kinds only: its parent is the request, or of one
of the inner kinds among them. -/
lemma Formed.exists_parent (hr : r.Formed) (hk : r.kind = .request) (ht : t ∈ r.nodesOf k)
    (ks : List Kind) (hrequest : k ≠ .request) (herror : k ≠ .error)
    (hslots : ∀ K ∈ Kind.nodes, (∃ s ∈ (Shape.ofKind K).slots, k ∈ s.types) →
      K ∈ outerKinds ++ ks) :
    t ∈ r.childrenOf k ∨ ∃ u, u.kind ∈ ks ∧ u ∈ r.nodesOf u.kind ∧ t ∈ u.childrenOf k := by
  obtain ⟨hnode, hkind⟩ := isNode_of_mem_nodesOf ht
  rcases eq_or_exists_parent ht with rfl | ⟨u, hu, hunode, hmem⟩
  · exact absurd (hkind.symm.trans hk) hrequest
  have hchild : t ∈ u.childrenOf k := List.mem_filter.mpr ⟨hmem, by simp [hnode, hkind]⟩
  rcases hr.eq_or_inner hk hu with rfl | hinner
  · exact .inl hchild
  have hform := (Every.of_mem_nodesOf hr hu).1
  have hmember : u.kind ∈ outerKinds ++ ks :=
    kind_of_mem_children (P := fun K => K = k → u.kind ∈ outerKinds ++ ks) hform
      (fun heq => absurd heq.symm herror)
      (fun hnodes s hs K hK heq => hslots _ hnodes ⟨s, hs, heq ▸ hK⟩) hmem hnode hkind
  exact .inr ⟨u, (List.mem_append.mp hmember).resolve_left hinner, hu, hchild⟩

/-- **The headers in a request** are its own and those of its multipart bodies. -/
lemma Formed.own_or_multipart_header (hr : r.Formed) (hk : r.kind = .request)
    (ht : t ∈ r.nodesOf .header) : t ∈ r.childrenOf .header ∨
      ∃ b ∈ r.childrenOf .multipartFormData, t ∈ b.childrenOf .header := by
  rcases hr.exists_parent hk ht [.multipartFormData] (by decide) (by decide)
    (by decide +kernel) with hown | ⟨b, hb, hmem, hchild⟩
  · exact .inl hown
  rw [List.mem_singleton.mp hb] at hmem
  rcases hr.exists_parent hk hmem [] (by decide) (by decide) (by decide +kernel) with
    hbody | ⟨u, hu, _⟩
  · exact .inr ⟨b, hbody, hchild⟩
  · cases hu

/-- Every header has a name. -/
lemma Formed.isSome_header? (hr : r.Formed) (ht : t ∈ r.childrenOf .header) : t.header?.isSome := by
  obtain ⟨hmem, hkind⟩ := List.mem_filter.mp ht
  rw [Bool.and_eq_true, beq_iff_eq] at hkind
  have hform := (hr.children.of_mem hmem).of_isNode hkind.1
  rw [hkind.2] at hform
  obtain ⟨n, hn, _⟩ := Form.exists_childrenOf_eq (k := .headerEntity) hform rfl
  rw [header?, Option.isSome_map, child?_eq_head?, hn]
  rfl

end Tree

namespace Document

variable {limits : Limits} {source : String} {d : Document} {r : Placed}

/-! ### Summaries -/

/-- The requests of a document where they stand, one for each section that holds one. -/
def requestNodes (d : Document) : List Placed :=
  ((Placed.mk 0 d.tree).childrenOf .section).filterMap fun s => s.child? .request

lemma formed_of_parse (h : parse limits source = .ok d) : d.tree.Formed :=
  (Form.Whole.every (e := true) (m := true) [d.tree] (form_of_parse h)).1

/-- A request is a node of its kind with nodes of their forms. -/
lemma formed_of_mem_requestNodes (h : parse limits source = .ok d) (hr : r ∈ d.requestNodes) :
    r.tree.Formed ∧ r.tree.kind = .request := by
  obtain ⟨s, hs, hchild⟩ := List.mem_filterMap.mp hr
  have hsection : s.tree ∈ d.tree.childrenOf .section := by
    rw [← Placed.map_tree_childrenOf ⟨0, d.tree⟩]
    exact List.mem_map_of_mem hs
  have hrequest : s.tree.child? .request = some r.tree := by
    rw [← Placed.map_tree_child?, hchild]
    rfl
  have hkind := List.find?_some hrequest
  rw [Bool.and_eq_true, beq_iff_eq] at hkind
  have hformed := (formed_of_parse h).children.of_mem (List.mem_of_mem_filter hsection)
  exact ⟨hformed.children.of_mem (List.mem_of_find?_eq_some hrequest), hkind.2⟩

/-- What the summary of a request says of its place and its headers. -/
lemma ofRequest_headers (source : String) (s : Section) (r : Placed) :
    (Summary.ofRequest source s (Request.ofTree r)).line = lineNumber source r.start ∧
      (Summary.ofRequest source s (Request.ofTree r)).headers
        = HeaderMap.merged ((r.tree.childrenOf .header).filterMap Tree.header?) := by
  refine ⟨rfl, ?_⟩
  rw [← Placed.map_tree_childrenOf, List.filterMap_map]
  refine (HeaderMap.ofEntries_eq_merged _).trans (congrArg HeaderMap.merged ?_)
  rw [Request.ofTree, List.filterMap_map]
  exact List.filterMap_congr fun p _ => Entry.header?_ofTree p

/-- **Headers in summaries**: a document has one summary for each section that holds a request, in
their order. Its headers are the headers directly below the request, all of which have a name, in
their merged form: the distinct names in order of first occurrence, each with its values joined. The
other headers in a request, which do not count, are those of its multipart bodies. -/
theorem parse_headers (h : parse limits source = .ok d) :
    List.Forall₂ (fun r s => s.line = lineNumber d.source r.start ∧
      s.headers = HeaderMap.merged ((r.tree.childrenOf .header).filterMap Tree.header?))
        d.requestNodes d.summaries ∧
    ∀ r ∈ d.requestNodes, (∀ t ∈ r.tree.childrenOf .header, t.header?.isSome) ∧
      ∀ t ∈ r.tree.nodesOf .header, t ∈ r.tree.childrenOf .header ∨
        ∃ b ∈ r.tree.childrenOf .multipartFormData, t ∈ b.childrenOf .header := by
  constructor
  · rw [summaries_eq, requestNodes]
    refine List.rel_filterMap (R := Eq) ?_ (List.forall₂_same.mpr fun _ _ => rfl)
    rintro s _ rfl
    simp only [Summary.ofSection?]
    cases s.child? .request with
    | none => exact Option.Rel.none
    | some r => exact Option.Rel.some (ofRequest_headers d.source (Section.ofTree s) r)
  · intro r hr
    obtain ⟨hformed, hkind⟩ := formed_of_mem_requestNodes h hr
    exact ⟨fun t ht => hformed.isSome_header? ht, fun t ht => hformed.own_or_multipart_header hkind ht⟩

/-- A name that is given three times, once without a value, and a header in a multipart body. -/
theorem parse_headers_repeated : ∃ d,
    parse defaultLimits "POST /u\na: 1\nb: 2\na:\na: 3\n\n--x\na: 4\n\ny\n--x--\n" = .ok d ∧
    d.summaries.map Summary.headers = [[("a", "1, , 3"), ("b", "2")]] ∧
    List.Forall₂ (fun r s => s.line = lineNumber d.source r.start ∧
      s.headers = HeaderMap.merged ((r.tree.childrenOf .header).filterMap Tree.header?))
        d.requestNodes d.summaries ∧
    (d.tree.nodesOf .header).length = 5 := by
  obtain ⟨d, hd, hany⟩ := exists_ok_of_any (α := ParseError) (q := fun d =>
    d.summaries.map Summary.headers == [[("a", "1, , 3"), ("b", "2")]]
      && (d.tree.nodesOf .header).length == 5)
    (x := parse defaultLimits "POST /u\na: 1\nb: 2\na:\na: 3\n\n--x\na: 4\n\ny\n--x--\n")
    (by decide +kernel)
  obtain ⟨hheaders, hlength⟩ := Bool.and_eq_true_iff.mp hany
  exact ⟨d, hd, eq_of_beq hheaders, (parse_headers hd).1, eq_of_beq hlength⟩

end Document

end RequestFile
