import RequestFile.Proofs.Agreement
import RequestFile.Proofs.Traversal

/-!
Where requests and bodies come from.

A request is built where a line has been taken for one, and so is a body, which is a child of a request
or a response. What is known about the production that builds it is then known of every request and of
every body of a document.

* **Parents.** Every node but the root is a child of one that has a slot for it
  (`Tree.exists_parent`), so the nodes of a body are found from the body.
* **Origins.** `Cursor.Opens` says that a body is built at a cursor, and a site of a request or a body
  has its origin (`Tree.Site.HasOrigin`) at a cursor behind the leaves in front of it. This is a
  property of single lines (`Cursor.onLines_hasOrigin`).
* **Properties.** `Cursor.Adds P` says that a run adds trees with the property `P` only. Such runs
  compose, too.
* **Documents.** Every site of a parse has its origin (`Parsed.hasOrigin`), so every body has one
  (`Parsed.exists_opens`).
-/

namespace RequestFile

open scoped Computability

namespace Tree

variable {k : Kind} {t u : Tree} {ts : List Tree} {P Q : Tree → Prop}

mutual

lemma isNode_of_mem_nodesOf : ∀ {t : Tree}, u ∈ t.nodesOf k → u.isNode ∧ u.kind = k
  | leaf _ _, hu => by simp [nodesOf] at hu
  | node k' ts, hu => by
      rw [nodesOf] at hu
      split_ifs at hu with hk
      · rcases List.mem_cons.mp hu with rfl | hu
        · exact ⟨rfl, eq_of_beq hk⟩
        · exact isNode_of_mem_nodesOfAll hu
      · exact isNode_of_mem_nodesOfAll hu

lemma isNode_of_mem_nodesOfAll : ∀ {ts : List Tree}, u ∈ nodesOfAll k ts → u.isNode ∧ u.kind = k
  | [], hu => by simp [nodesOfAll] at hu
  | t :: ts, hu => by
      rw [nodesOfAll, List.mem_append] at hu
      exact hu.elim isNode_of_mem_nodesOf isNode_of_mem_nodesOfAll

end

mutual

/-- A node of a tree is its root or the child of a node of the tree. -/
lemma eq_or_exists_parent : ∀ {t : Tree}, u ∈ t.nodesOf k →
    u = t ∨ ∃ v ∈ t.nodesOf v.kind, v.isNode ∧ u ∈ v.children
  | leaf _ _, hu => by simp [nodesOf] at hu
  | node k' ts, hu => by
      have hbelow : u ∈ nodesOfAll k ts →
          ∃ v ∈ (node k' ts).nodesOf v.kind, v.isNode ∧ u ∈ v.children := fun hu => by
        rcases mem_or_exists_parent hu with hmem | ⟨v, hv, hnode, hmem⟩
        · exact ⟨node k' ts, mem_nodesOf_self rfl, rfl, hmem⟩
        · exact ⟨v, mem_nodesOf_node hv, hnode, hmem⟩
      rw [nodesOf] at hu
      split_ifs at hu
      · exact (List.mem_cons.mp hu).imp_right hbelow
      · exact .inr (hbelow hu)

lemma mem_or_exists_parent : ∀ {ts : List Tree}, u ∈ nodesOfAll k ts →
    u ∈ ts ∨ ∃ v ∈ nodesOfAll v.kind ts, v.isNode ∧ u ∈ v.children
  | [], hu => by simp [nodesOfAll] at hu
  | t :: ts, hu => by
      rw [nodesOfAll, List.mem_append] at hu
      rcases hu with hu | hu
      · rcases eq_or_exists_parent hu with rfl | ⟨v, hv, hmem⟩
        · exact .inl List.mem_cons_self
        · exact .inr ⟨v, List.mem_append_left _ hv, hmem⟩
      · rcases mem_or_exists_parent hu with hmem | ⟨v, hv, hmem⟩
        · exact .inl (List.mem_cons_of_mem t hmem)
        · exact .inr ⟨v, List.mem_append_right _ hv, hmem⟩

end

mutual

lemma Every.and : ∀ {t : Tree}, Every P t → Every Q t → Every (fun t => P t ∧ Q t) t
  | leaf _ _, _, _ => trivial
  | node _ _, h, h' => ⟨⟨h.1, h'.1⟩, EveryOf.and h.2 h'.2⟩

lemma EveryOf.and : ∀ {ts : List Tree}, EveryOf P ts → EveryOf Q ts →
    EveryOf (fun t => P t ∧ Q t) ts
  | [], _, _ => trivial
  | _ :: _, h, h' => ⟨Every.and h.1 h'.1, EveryOf.and h.2 h'.2⟩

end

/-- The kinds of the bodies of requests and responses. -/
def bodyKinds : List Kind :=
  [.multipartFormData, .externalBody, .xmlBody, .jsonBody, .graphqlBody, .formUrlencodedBody,
   .rawBody]

/-- The kinds of nodes that have bodies. -/
def messageKinds : List Kind :=
  [.request, .response]

/-- The kinds of bodies that are not parts of others. -/
def wholeBodyKinds : List Kind :=
  [.multipartFormData, .xmlBody, .graphqlBody, .formUrlencodedBody, .rawBody]

/-- Of a node of another kind nothing is said. -/
lemma not_mem_of_contains {ks : List Kind} {t : Tree} (h : t.isNode → ks.contains t.kind = false)
    (hnode : t.isNode) : t.kind ∉ ks := by
  simpa using h hnode

/-- The kinds of nodes that requests and responses stand below, and their own. -/
def outerKinds : List Kind :=
  [.document, .section, .request, .response]

/-- Requests and responses have slots in no other nodes, and such bodies have none either. -/
lemma not_mem_of_inner_slot : ∀ k ∈ Kind.nodes, k ∉ outerKinds → ∀ s ∈ (Shape.ofKind k).slots,
    ∀ K ∈ s.types, K ∉ outerKinds ++ wholeBodyKinds := by
  decide +kernel

/-- Below other nodes there are other nodes only. -/
lemma kindsBelow_inner : KindsBelow (· ∉ outerKinds) where
  error := by decide
  slots := fun k hmem hk s hs K hK hout =>
    not_mem_of_inner_slot k hmem hk s hs K hK (List.mem_append_left _ hout)

end Tree

/-- The kind of the body that a line begins, if it begins one. -/
def BodyLine.body? : BodyLine → Option Kind
  | .blank | .comment | .responseHandler | .redirect => none
  | .multipart => some .multipartFormData
  | .external => some .externalBody
  | .xml => some .xmlBody
  | .json => some .jsonBody
  | .graphql => some .graphqlBody
  | .form => some .formUrlencodedBody
  | .raw => some .rawBody

/-- A body tells the line that it begins with. -/
lemma BodyLine.body?_inj {l l' : BodyLine} {k : Kind} (h : l.body? = some k)
    (h' : l'.body? = some k) : l = l' := by
  cases l <;> cases h <;> cases l' <;> first | rfl | cases h'

namespace Cursor

variable {all : List Token} {k : Nat} {L M : TreeLanguage} {P : Tree → Prop} {line : BodyLine}
  {t : Tree} {c c' c'' : Cursor}

/-! ### Runs that add trees of one sort -/

/-- From `c` to `c'` only trees with a property are added, over tokens of the source. -/
def Adds (P : Tree → Prop) (c c' : Cursor) : Prop :=
  ∃ new, c'.built.toList = c.built.toList ++ new ∧ c'.rest <:+ c.rest ∧ ∀ t ∈ new, P t

namespace Adds

protected lemma refl (c : Cursor) : Adds P c c :=
  ⟨[], (List.append_nil _).symm, List.suffix_rfl, fun _ ht => absurd ht List.not_mem_nil⟩

lemma trans (h : Adds P c c') (h' : Adds P c' c'') : Adds P c c'' := by
  obtain ⟨new, hb, hr, hn⟩ := h
  obtain ⟨new', hb', hr', hn'⟩ := h'
  refine ⟨new ++ new', ?_, hr'.trans hr, List.forall_mem_append.mpr ⟨hn, hn'⟩⟩
  rw [hb', hb, List.append_assoc]

lemma suffix (h : Adds P c c') (hr : c.rest <:+ all) : c'.rest <:+ all := by
  obtain ⟨_, _, hsuffix, _⟩ := h
  exact hsuffix.trans hr

/-- What the form of a run tells about the trees that are added. -/
lemma of_run (h : Run true k L c c') (hL : ∀ w ∈ L, ∀ t ∈ w, P t) : Adds P c c' := by
  obtain ⟨ts, new, ht, hb, _, hn⟩ := h.grew
  exact ⟨new, hb, ⟨ts, ht.rest.symm⟩, hL new (hn fun _ => rfl)⟩

/-- A run whose form has no nodes of some kinds. -/
lemma of_none {q : Kind → Bool} [hL : Form.Tallied q L] (hx : hL.tally.all (·.most = some 0))
    (h : Run true k L c c') (hP : ∀ t : Tree, (t.isNode → q t.kind = false) → P t) :
    Adds P c c' :=
  .of_run h fun _ hw t ht => hP t (Form.none_of_tally hx hw t ht)

/-- A row of trees that are added, as the children of a node. -/
lemma node {K : Kind} {Q : Tree → Prop} (h : Adds P c.opened c')
    (hQ : ∀ new, c'.built.toList = new → (∀ t ∈ new, P t) → Q (.node K new)) :
    Adds Q c (c'.closed K c.built) := by
  obtain ⟨new, hb, hr, hn⟩ := h
  have hnew : c'.built.toList = new := by simpa [opened] using hb
  refine ⟨[.node K c'.built.toList], by rw [closed, Array.toList_push], hr, fun t ht => ?_⟩
  obtain rfl := List.mem_singleton.mp ht
  exact hQ _ rfl fun t ht => hn t (hnew ▸ ht)

/-- A loop, each turn of which adds such trees over tokens of the source. -/
lemma loop {I J : Cursor → Prop} {turn : Cursor → Turn} (hk : 3 * k ≤ fullPatience)
    (hturn : ∀ d, d.Live → I d → Turning true k L M I J d (turn d))
    (hadds : ∀ d, d.Live → I d → d.rest <:+ all → Adds P d (turn d).cursor) (hc : c.Live) (hi : I c)
    (hr : c.rest <:+ all) : Adds P c (c.loop turn) := by
  refine related_loop (R := fun d d' => d.rest <:+ all → Adds P d d') (fun d _ => .refl d)
    (fun h h' hr => ?_) hk hturn hadds hc hi hr
  exact (h hr).trans (h' ((h hr).suffix hr))

end Adds

/-! ### Bodies -/

/-- A body that is built at a cursor, where a line begins that has been taken for it. -/
structure Opens (all : List Token) (line : BodyLine) (t : Tree) (c : Cursor) : Prop where
  live : c.Live
  lineStart : c.lineStart = true
  nonempty : c.rest ≠ []
  suffix : c.rest <:+ all
  told : BodyLine.ofTokens c.rest = line
  built : ∃ new, (c.bodyItem line).built.toList = c.built.toList ++ new ∧ t ∈ new

/-- What a run adds is the body that its line begins, where its form has no other. -/
lemma body_of_run [hL : Form.Tallied (fun K => Tree.bodyKinds.contains K && line.body? != some K) L]
    (hx : hL.tally.all (·.most = some 0)) (h : Run true k L c c') {new : List Tree}
    (hb : c'.built.toList = c.built.toList ++ new) (ht : t ∈ new) (hnode : t.isNode)
    (hk : t.kind ∈ Tree.bodyKinds) : line.body? = some t.kind := by
  obtain ⟨_, new', _, hb', _, hn⟩ := h.grew
  obtain rfl : new = new' := List.append_cancel_left (hb.symm.trans hb')
  have hnone := Form.none_of_tally hx (hn fun _ => rfl) t ht hnode
  simpa [hk] using hnone

/-- **A body is what its line has been taken for.** -/
lemma Opens.body (h : Opens all line t c) (hnode : t.isNode) (hk : t.kind ∈ Tree.bodyKinds) :
    line.body? = some t.kind := by
  obtain ⟨hc, hl, hne, _, htold, new, hb, ht⟩ := h
  have hbegins := BodyLine.begins_ofTokens c.rest
  rw [htold] at hbegins
  cases line with
  | blank => exact body_of_run (by decide) (run_blankLine hc hbegins hne).toRun hb ht hnode hk
  | comment => exact body_of_run (by decide) (run_comment hc hbegins).toRun hb ht hnode hk
  | responseHandler =>
      exact body_of_run (by decide) (run_responseHandler hc hbegins).toRun hb ht hnode hk
  | redirect => exact body_of_run (by decide) (run_responseRedirect hc hbegins).toRun hb ht hnode hk
  | multipart => exact body_of_run (by decide) (run_multipart hc hbegins).toRun hb ht hnode hk
  | external => exact body_of_run (by decide) (run_externalBody hc hbegins).toRun hb ht hnode hk
  | xml => exact body_of_run (by decide) (run_textBody hc (.inr hl) hne).toRun hb ht hnode hk
  | json => exact body_of_run (by decide) (run_textBody hc (.inr hl) hne).toRun hb ht hnode hk
  | graphql => exact body_of_run (by decide) (run_graphqlBody hc (.inr hl) hne).toRun hb ht hnode hk
  | form => exact body_of_run (by decide) (run_formBody hc hbegins).toRun hb ht hnode hk
  | raw => exact body_of_run (by decide) (run_rawBody hc (.inr hl) hne).toRun hb ht hnode hk

end Cursor

/-! ### Origins -/

namespace Tree

variable {all : List Token} {around : List Kind} {front : List (Kind × String)} {k : Kind}
  {s : Site} {t : Tree} {ts : List Tree}

/-- A body that is no part of another one stands here. -/
def Site.IsBody (s : Site) : Prop :=
  s.tree.kind ∈ wholeBodyKinds ∨
    s.tree.kind ∈ bodyKinds ∧ ∃ k ∈ s.around.head?, k ∈ messageKinds

/-- A request or a body is built at a cursor that stands behind the leaves in front of it, or, for a
body, in front of what the same line has built before; of other nodes nothing is said. -/
structure Site.HasOrigin (all : List Token) (s : Site) : Prop where
  request : s.tree.kind = .request → ∃ c : Cursor, c.Live ∧ c.HasUrl ∧ c.Reached all s.front ∧
    c.request.built.toList = c.built.toList ++ [s.tree]
  body : s.IsBody → ∃ c line front lead tail, Cursor.Opens all line s.tree c ∧
    c.Reached all front ∧ s.front = front ++ leavesOf lead ∧
    (c.bodyItem line).built.toList = c.built.toList ++ (lead ++ s.tree :: tail)

lemma mem_bodyKinds_of_whole : ∀ k ∈ wholeBodyKinds, k ∈ bodyKinds := by
  decide

/-- Of nodes of other kinds nothing is said. -/
lemma Site.hasOrigin_of_kind (hr : s.tree.kind ≠ .request) (hb : s.tree.kind ∉ bodyKinds) :
    s.HasOrigin all where
  request := fun h => absurd h hr
  body := fun h => absurd (h.elim (mem_bodyKinds_of_whole _) And.left) hb

/-- Nothing is said of what stands below other nodes. -/
lemma Site.hasOrigin_of_parent {v : Tree} (h : [v] ∈ Form.production true true v.kind)
    (hv : v.kind ∉ outerKinds) (hmem : s.tree ∈ v.children) (hnode : s.tree.isNode)
    (haround : s.around.head? = some v.kind) : s.HasOrigin all := by
  have hkind : s.tree.kind ∉ outerKinds ++ wholeBodyKinds :=
    kind_of_mem_children (P := (· ∉ outerKinds ++ wholeBodyKinds)) h (by decide)
      (fun hnodes => not_mem_of_inner_slot _ hnodes hv) hmem hnode
  have hmessage : ∀ k ∈ messageKinds, k ∈ outerKinds := by decide
  rw [List.mem_append, not_or] at hkind
  refine ⟨fun hk => absurd (hk ▸ by decide) hkind.1, fun hbody => ?_⟩
  rcases hbody with hwhole | ⟨_, k, hk, hmem⟩
  · exact absurd hwhole hkind.2
  · rw [haround] at hk
    obtain rfl := Option.some.inj hk
    exact absurd (hmessage _ hmem) hv

/-- A row of nodes with the origins of the bodies in the row itself. -/
lemma hasOrigin_of_row (hform : EveryOf (fun t => [t] ∈ Form.production true true t.kind) ts)
    (hk : ∀ t ∈ ts, t.isNode → t.kind ∉ outerKinds)
    (hrow : ∀ lead t tail, ts = lead ++ t :: tail → t.isNode → t.kind ∈ bodyKinds →
      Site.HasOrigin all ⟨around, front ++ leavesOf lead, t⟩)
    (hs : s ∈ sitesOf around front ts) : s.HasOrigin all := by
  rcases row_or_child_of_mem_sites (hform.and (kindsBelow_inner.everyOf hform hk)) hs with
    ⟨lead, t, tail, hts, hnode, rfl⟩ | ⟨v, ⟨hv, hinner⟩, hmem, hnode, haround⟩
  · by_cases hbody : t.kind ∈ bodyKinds
    · exact hrow lead t tail hts hnode hbody
    · have hinner := hk t (by rw [hts]; simp) hnode
      exact Site.hasOrigin_of_kind (fun h => hinner (h ▸ by decide)) hbody
  · exact Site.hasOrigin_of_parent hv hinner hmem hnode haround

/-- In a row without such nodes nothing is said of any site. -/
lemma hasOrigin_of_plain_row (hform : EveryOf (fun t => [t] ∈ Form.production true true t.kind) ts)
    (hk : ∀ t ∈ ts, t.isNode → t.kind ∉ outerKinds ++ bodyKinds)
    (hs : s ∈ sitesOf around front ts) : s.HasOrigin all := by
  refine hasOrigin_of_row hform
    (fun t ht hnode hout => hk t ht hnode (List.mem_append_left _ hout))
    (fun lead t tail heq hnode hbody => ?_) hs
  exact absurd (List.mem_append_right _ hbody) (hk t (by rw [heq]; simp) hnode)

end Tree

namespace Cursor

variable {all : List Token} {around : List Kind} {c : Cursor}

/-! ### Runs that build nodes with their origins -/

/-- **An item of a body section** is built where its line begins. -/
lemma builds_bodyItem (hc : c.Live) (ha : c.Aligned) (hmore : !c.stopped && !c.atSeparator) :
    Builds (Tree.Site.HasOrigin all) all around c (c.bodyItem (BodyLine.ofTokens c.rest)) := by
  intro front hr
  have hmore' := hmore
  simp only [hc.stopped_eq, atEnd, Bool.and_eq_true, Bool.not_eq_true',
    List.isEmpty_eq_false_iff] at hmore'
  have hsuffix : c.rest <:+ all := by
    obtain ⟨before, hall, _⟩ := hr
    exact ⟨before, hall.symm⟩
  obtain ⟨hrun, _⟩ := run_bodyItem_turn (e := true) c hc ha hmore
  obtain ⟨ts, new, ht, hb, hover, hn⟩ := hrun.grew
  have hmem := hn fun _ => rfl
  have hnone : ∀ t ∈ new, t.isNode → t.kind ∉ Tree.outerKinds := fun t ht hnode => by
    simpa using Form.none_of_tally (p := Tree.outerKinds.contains) (by decide) hmem t ht hnode
  refine ⟨new, hb, hr.took ht hover, fun s hs => ?_⟩
  refine Tree.hasOrigin_of_row (Form.Whole.every new hmem) hnone
    (fun lead t tail heq hnode _ => ⟨fun hk => ?_, fun _ => ?_⟩) hs
  · exact absurd (hk ▸ by decide) (hnone t (by rw [heq]; simp) hnode)
  · have hopens : Opens all (BodyLine.ofTokens c.rest) t c :=
      ⟨hc, ha.lineStart hmore'.1, hmore'.1, hsuffix, rfl, new, hb, by rw [heq]; simp⟩
    exact ⟨c, _, front, lead, tail, hopens, hr, rfl, heq ▸ hb⟩

/-- **The origins of what lines build.** -/
lemma onLines_hasOrigin (all : List Token) : OnLines (Tree.Site.HasOrigin all) all where
  quiet := fun hform hk hs => by
    have hentered : ∀ k ∈ Tree.outerKinds ++ Tree.bodyKinds, k ∈ Tree.enteredKinds := by decide
    exact Tree.hasOrigin_of_plain_row hform
      (fun t ht hnode hmem => hk t ht hnode (hentered _ hmem)) hs
  outer := fun s hk => by
    have hnone : ∀ k ∈ [Kind.document, .section, .response], k ≠ .request ∧ k ∉ Tree.bodyKinds := by
      decide
    exact Tree.Site.hasOrigin_of_kind (hnone _ hk).1 (hnone _ hk).2
  request := fun hc hurl hr hb hk => by
    refine ⟨fun _ => ⟨_, hc, hurl, hr, hb⟩, fun hbody => absurd hbody ?_⟩
    have hkind : Kind.request ∉ Tree.wholeBodyKinds ∧ Kind.request ∉ Tree.bodyKinds := by decide
    rw [Tree.Site.IsBody, hk]
    exact fun h => h.elim (fun h => hkind.1 h) fun h => hkind.2 h.1
  preRequestScript := by
    intro around c hc hs front hr
    obtain ⟨ts, new, ht, hb, hover, hn⟩ := (run_preRequestScript (e := true) hc hs).toRun.grew
    have hmem := hn fun _ => rfl
    refine ⟨new, hb, hr.took ht hover, fun s hs =>
      Tree.hasOrigin_of_plain_row (Form.Whole.every new hmem) (fun t ht hnode => ?_) hs⟩
    simpa using Form.none_of_tally (p := (Tree.outerKinds ++ Tree.bodyKinds).contains)
      (by decide) hmem t ht hnode
  bodyItem := fun hc ha hmore => builds_bodyItem hc ha hmore

end Cursor

/-! ### Whole parses -/

section Document

variable {source : String} {p : Parsed} {k K : Kind} {t : Tree}

/-- A node other than the root has a parent with a slot for it, if it is no error. -/
lemma Parsed.Complete.exists_parent (hcomplete : p.Complete source) (ht : t ∈ p.tree.nodesOf k)
    (hroot : k ≠ .document) (herror : k ≠ .error) :
    ∃ u ∈ p.tree.nodesOf u.kind, u.isNode ∧ t ∈ u.children ∧ u.kind ∈ Kind.nodes ∧
      ∃ s ∈ (Shape.ofKind u.kind).slots, k ∈ s.types := by
  obtain ⟨hnode, hkind⟩ := Tree.isNode_of_mem_nodesOf ht
  rcases Tree.eq_or_exists_parent ht with rfl | ⟨u, hu, hunode, hmem⟩
  · obtain ⟨ts, _, htree⟩ := hcomplete.form true fun _ => rfl
    rw [List.singleton_inj.mp htree] at hkind
    exact absurd hkind.symm hroot
  rcases Tree.kind_of_mem_children (P := fun K => K = .error ∨ u.kind ∈ Kind.nodes ∧
    ∃ s ∈ (Shape.ofKind u.kind).slots, K ∈ s.types) (hcomplete.production hu) (.inl rfl)
    (fun hnodes s hs K hK => .inr ⟨hnodes, s, hs, hK⟩) hmem hnode with herr | hslot
  · exact absurd (hkind.symm.trans herr) herror
  · rw [hkind] at hslot
    exact ⟨u, hu, hunode, hmem, hslot⟩

/-- **Every request and every body has its origin**, whatever the source is. -/
lemma Parsed.hasOrigin (hp : Parsed.ofSource .unlimited source = .ok p) :
    ∀ s ∈ p.tree.sites [] [], s.HasOrigin (Token.scan source) :=
  Parsed.forall_sites (Cursor.onLines_hasOrigin _) hp

/-- **Bodies that are not parts of others** are built where a line has been taken for them. -/
lemma Parsed.exists_opens (hp : Parsed.ofSource .unlimited source = .ok p)
    (ht : t ∈ p.tree.nodesOf k) (hk : k ∈ Tree.wholeBodyKinds) :
    ∃ c line, line.body? = some k ∧ Cursor.Opens (Token.scan source) line t c := by
  obtain ⟨hnode, _⟩ := Tree.isNode_of_mem_nodesOf ht
  obtain ⟨s, hs, rfl, rfl⟩ := Tree.exists_site [] [] ht
  obtain ⟨c, line, _, _, _, hopens, _⟩ := (hasOrigin hp s hs).body (.inl hk)
  exact ⟨c, line, hopens.body hnode (Tree.mem_bodyKinds_of_whole _ hk), hopens⟩

/-- What the production for a line adds is known of every body that such a line begins. -/
lemma Parsed.of_adds {P : Tree → Prop} (hp : Parsed.ofSource .unlimited source = .ok p)
    (hk : k ∈ Tree.wholeBodyKinds) (line : BodyLine) (hline : line.body? = some k)
    (hadds : ∀ c : Cursor, c.Live → c.rest <:+ Token.scan source → line.Begins c.rest →
      Cursor.Adds P c (c.bodyItem line))
    (ht : t ∈ p.tree.nodesOf k) : P t := by
  obtain ⟨c, line', hbody, hc, _, _, hr, htold, new, hb, hmem⟩ := exists_opens hp ht hk
  obtain rfl : line' = line := BodyLine.body?_inj hbody hline
  have hbegins := BodyLine.begins_ofTokens c.rest
  rw [htold] at hbegins
  obtain ⟨new', hb', _, hn⟩ := hadds c hc hr hbegins
  obtain rfl : new = new' := List.append_cancel_left (hb.symm.trans hb')
  exact hn t hmem

end Document

end RequestFile
