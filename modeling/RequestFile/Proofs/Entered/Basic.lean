import RequestFile.Proofs.Conformance
import RequestFile.Proofs.LineStarts
import RequestFile.Proofs.Sites

/-!
Where productions are entered.

A production is entered where a line has been classified, and takes what the classification has seen.
What this means for the node that is built is its claim: where it begins, and what stands in it.

* **Claims.** `Tree.Site.Claim` lists them by the kind of the node. A site is `Proper` if the claim
  holds for the tokens below the node.
* **Details.** Nothing is claimed of most kinds, and a node of which nothing is claimed has only such
  nodes below it (`Tree.kindsBelow_unmarked`), as have all nodes but those in `Tree.containerKinds`.
* **Runs.** `Cursor.Builds P all around c c'` says that a production builds nodes with the property
  `P` from `c` to `c'`, whatever leaves lead to `c` (`Cursor.Reached`), and `Cursor.Lays` that they are
  proper. Such runs compose (`Builds.trans`). A run over details is proper (`Lays.of_unmarked`), and so
  is a run over one node whose claim is known (`LaysAt.atom`).
-/

namespace RequestFile

open scoped Computability

namespace Tree

/-! ### Claims -/

/-- Nodes that begin where a line begins, and of which nothing more is claimed. -/
def plainLineKinds : List Kind :=
  [.requestSeparator, .header, .xmlBody, .jsonBody, .externalBody, .rawBody,
   .multipartBoundaryFirst, .multipartBoundary, .multipartBoundaryLast, .multipartContentLine,
   .multipartExternalBody, .resHandlerScript, .resRedirect]

/-- Nodes that begin where a line begins. -/
def lineKinds : List Kind :=
  plainLineKinds ++ [.graphqlBody, .graphqlData, .formUrlencodedBody, .multipartFormData]

/-- Nodes that begin a line of a section, which may be indented. -/
def preambleKinds : List Kind :=
  [.metadata, .variableDeclaration, .command, .preRequestScript, .request, .response]

/-- Nodes below which something is claimed. -/
def containerKinds : List Kind :=
  [.document, .section, .request, .response, .multipartFormData, .graphqlBody]

/-- The kinds of which something is claimed, or below which something is. -/
def markedKinds : List Kind :=
  lineKinds ++ preambleKinds ++ containerKinds
    ++ [.comment, .method, .targetUrl, .httpVersion, .statusCode]

/-- Whether something is claimed of a kind, or below it. -/
def isMarked (k : Kind) : Bool :=
  markedKinds.contains k

/-- Whether some tokens begin and end with something else than a blank or a terminator. -/
def Trimmed (ts : List Token) : Prop :=
  ts ≠ [] ∧ (∀ t ∈ ts.head?, t.kind ≠ .whitespace ∧ t.kind ≠ .newline) ∧
    ∀ t ∈ ts.getLast?, t.kind ≠ .whitespace ∧ t.kind ≠ .newline

/-- What is claimed of a node by its kind, where `here` are the tokens below it. -/
def Site.Claim (s : Site) (here : List Token) : Kind → Prop
  | .comment => AtLineStart s.front ∨ s.around = [.section, .document] ∧ Indented s.front
  | .graphqlData => AtLineStart s.front ∧ Lookahead.headText here ∈ Lookahead.graphqlWords
  | .formUrlencodedBody => AtLineStart s.front ∧
      ∃ u us, s.tree.children = u :: us ∧ [u] ∈ Form.valuedParam true
  | .method => s.tree.text ∈ Lookahead.methods
  | .targetUrl => Trimmed here
  | .httpVersion => Lookahead.isVersion here ∧ here.length = 3
  | .statusCode => Lookahead.isStatusCode s.tree.text
  | k => (k ∈ lineKinds → AtLineStart s.front) ∧ (k ∈ preambleKinds → Indented s.front)

/-- A site in a source of the tokens `all` with what is claimed of it. -/
def Site.Proper (all : List Token) (s : Site) : Prop :=
  ∃ here, (∀ t ∈ here, t ∈ all) ∧ Over here s.tree.leaves ∧ s.Claim here s.tree.kind

variable {all here : List Token} {around : List Kind} {front : List (Kind × String)} {k : Kind}
  {s : Site} {t : Tree} {ts : List Tree}

/-- Nothing is claimed of the kinds that are not marked. -/
lemma Site.claim_of_unmarked (hk : isMarked k = false) : s.Claim here k := by
  cases k <;> first
    | exact ⟨fun h => absurd h (by decide), fun h => absurd h (by decide)⟩
    | exact absurd hk (by decide)

/-- What is claimed of nodes that begin a line. -/
lemma Site.claim_of_line (h : AtLineStart s.front) (hk : k ∈ plainLineKinds) : s.Claim here k := by
  cases k <;> first
    | exact ⟨fun _ => h, fun hp => absurd hp (by decide)⟩
    | exact absurd hk (by decide)

/-- What is claimed of nodes that begin a line of a section. -/
lemma Site.claim_of_indented (h : Indented s.front) (hk : k ∈ preambleKinds) :
    s.Claim here k := by
  cases k <;> first
    | exact ⟨fun hl => absurd hl (by decide), fun _ => h⟩
    | exact absurd hk (by decide)

/-- What begins a line does so by its claim. -/
lemma Site.Claim.atLineStart (h : s.Claim here k) (hk : k ∈ lineKinds) : AtLineStart s.front := by
  cases k <;> first
    | exact h.1 hk
    | exact h.1
    | exact absurd hk (by decide)

lemma Site.Claim.indented (h : s.Claim here k) (hk : k ∈ preambleKinds) : Indented s.front := by
  cases k <;> first
    | exact h.2 hk
    | exact absurd hk (by decide)

/-! ### Details -/

/-- What holds for errors and for the types in the slots of a node holds for its child nodes. -/
lemma kind_of_mem_children {P : Kind → Prop} {u : Tree}
    (h : [t] ∈ Form.production true true t.kind) (herror : P .error)
    (hslots : t.kind ∈ Kind.nodes → ∀ s ∈ (Shape.ofKind t.kind).slots, ∀ K ∈ s.types, P K)
    (hu : u ∈ t.children) (hnode : u.isNode) : P u.kind := by
  by_cases hk : t.kind = .error
  · rw [hk] at h
    obtain ⟨a, ha, b, hb, hab⟩ := Language.mem_mul.mp h
    obtain rfl : a = [] := (Language.mem_one a).mp ha
    rw [List.nil_append] at hab
    subst hab
    rcases hb with hb | ⟨w, ⟨us, _, _, rfl⟩, hb⟩
    · exact absurd ((Language.mem_one _).mp hb) (List.cons_ne_nil t [])
    · obtain rfl := List.singleton_inj.mp hb
      obtain rfl := List.mem_singleton.mp hu
      cases hnode
  · rcases Form.slot_of_mem_children h hk hu hnode with herr | ⟨s, hs, hmem⟩
    · rwa [herr]
    · exact hslots (Form.mem_nodes_of_production h hk) s hs _ hmem

/-- Kinds of which an error is one, and that slots pass on. -/
structure KindsBelow (P : Kind → Prop) : Prop where
  error : P .error
  slots : ∀ k ∈ Kind.nodes, P k → ∀ s ∈ (Shape.ofKind k).slots, ∀ K ∈ s.types, P K

mutual

/-- **What slots pass on** is true of all nodes below. -/
lemma KindsBelow.every {P : Kind → Prop} (hP : KindsBelow P) :
    ∀ {t : Tree}, Every (fun t => [t] ∈ Form.production true true t.kind) t →
    (t.isNode → P t.kind) → Every (fun t => P t.kind) t
  | leaf _ _, _, _ => trivial
  | node k _, h, hk => by
      have hp : P k := hk rfl
      refine ⟨hp, KindsBelow.everyOf hP h.2 fun u hu hnode => ?_⟩
      exact kind_of_mem_children h.1 hP.error (fun hmem => hP.slots k hmem hp) hu hnode

lemma KindsBelow.everyOf {P : Kind → Prop} (hP : KindsBelow P) :
    ∀ {ts : List Tree}, EveryOf (fun t => [t] ∈ Form.production true true t.kind) ts →
    (∀ t ∈ ts, t.isNode → P t.kind) → EveryOf (fun t => P t.kind) ts
  | [], _, _ => trivial
  | t :: _, h, hk =>
      ⟨KindsBelow.every hP h.1 (hk t List.mem_cons_self),
        KindsBelow.everyOf hP h.2 fun u hu => hk u (List.mem_cons_of_mem t hu)⟩

end

/-- No slot of a node but the containers is for nodes of which something is claimed. -/
lemma isMarked_of_slot : ∀ k ∈ Kind.nodes, k ∉ containerKinds → ∀ s ∈ (Shape.ofKind k).slots,
    ∀ K ∈ s.types, isMarked K = false := by
  decide +kernel

/-- A node that has its form and is no container has unmarked child nodes only. -/
lemma isMarked_of_mem_children {u : Tree} (h : [t] ∈ Form.production true true t.kind)
    (hk : t.kind ∉ containerKinds) (hu : u ∈ t.children) (hnode : u.isNode) :
    isMarked u.kind = false :=
  kind_of_mem_children (P := (isMarked · = false)) h (by decide)
    (fun hmem => isMarked_of_slot _ hmem hk) hu hnode

lemma not_mem_containerKinds_of_unmarked (hk : isMarked k = false) : k ∉ containerKinds := by
  intro hmem
  have hmarked : k ∈ markedKinds :=
    List.mem_append_left _ (List.mem_append_right _ hmem)
  simp [isMarked, hmarked] at hk

/-- Below unmarked nodes there are unmarked nodes only. -/
lemma kindsBelow_unmarked : KindsBelow (isMarked · = false) where
  error := by decide
  slots := fun k hmem hk => isMarked_of_slot k hmem (not_mem_containerKinds_of_unmarked hk)

/-- Rows of unmarked nodes have proper sites. -/
lemma proper_of_unmarked {toks : List Token}
    (hform : EveryOf (fun t => [t] ∈ Form.production true true t.kind) ts)
    (hk : ∀ t ∈ ts, t.isNode → isMarked t.kind = false) (hover : Over toks (leavesOf ts))
    (hall : ∀ t ∈ toks, t ∈ all) (hs : s ∈ sitesOf around front ts) : s.Proper all := by
  obtain ⟨here, hsub, hhere⟩ := hover.of_mem_sitesOf hs
  have hmark := (kindsBelow_unmarked.everyOf hform hk).of_mem_sitesOf hs
  exact ⟨here, fun t ht => hall t (hsub t ht), hhere, Site.claim_of_unmarked hmark⟩

end Tree

namespace Cursor

variable {all : List Token} {around : List Kind} {front : List (Kind × String)} {e : Bool} {k : Nat}
  {K : Kind} {L M : TreeLanguage} {c c' c'' : Cursor}

/-! ### Leaves in front of a cursor -/

/-- The cursor stands behind the tokens below some leaves. -/
def Reached (all : List Token) (front : List (Kind × String)) (c : Cursor) : Prop :=
  ∃ before, all = before ++ c.rest ∧ Tree.Over before front ∧
    c.lineStart = (before.getLast?.map fun t => decide (t.kind = .newline)).getD true

namespace Reached

lemma atLineStart (h : Reached all front c) (hl : c.lineStart = true) : Tree.AtLineStart front := by
  obtain ⟨before, _, hover, hline⟩ := h
  exact hover.atLineStart (hline.symm.trans hl)

/-- A cursor that moves leaves the leaves that it has built behind. -/
lemma took {ts : List Token} {ls : List (Kind × String)} (h : Reached all front c)
    (ht : Took ts c c') (hover : Tree.Over ts ls) : Reached all (front ++ ls) c' := by
  obtain ⟨before, hall, hbefore, hline⟩ := h
  refine ⟨before ++ ts, ?_, hbefore.append hover, ?_⟩
  · rw [List.append_assoc, ← ht.rest, hall]
  · rw [ht.lineStart, hline, List.getLast?_append]
    cases ts.getLast? <;> rfl

/-- The tokens ahead are tokens of the source. -/
lemma mem_all {t : Token} (h : Reached all front c) (ht : t ∈ c.rest) : t ∈ all := by
  obtain ⟨before, rfl, _⟩ := h
  exact List.mem_append_right before ht

end Reached

/-! ### Runs -/

section Runs

variable {P : Tree.Site → Prop}

/-- From `c`, behind the leaves `front`, to `c'` all nodes that are built have a property where they
stand. -/
def BuildsAt (P : Tree.Site → Prop) (all : List Token) (around : List Kind)
    (front : List (Kind × String)) (c c' : Cursor) : Prop :=
  ∃ new, c'.built.toList = c.built.toList ++ new ∧
    Reached all (front ++ Tree.leavesOf new) c' ∧
    ∀ s ∈ Tree.sitesOf around front new, P s

/-- From `c` to `c'` all nodes that are built have a property where they stand, whatever leaves lead
to `c`. -/
def Builds (P : Tree.Site → Prop) (all : List Token) (around : List Kind) (c c' : Cursor) : Prop :=
  ∀ front, Reached all front c → BuildsAt P all around front c c'

/-- Runs compose; the second may depend on what the first has built. -/
lemma BuildsAt.bind (h : BuildsAt P all around front c c')
    (h' : ∀ new, c'.built.toList = c.built.toList ++ new →
      Reached all (front ++ Tree.leavesOf new) c' →
      BuildsAt P all around (front ++ Tree.leavesOf new) c' c'') :
    BuildsAt P all around front c c'' := by
  obtain ⟨new, hb, hr, hs⟩ := h
  obtain ⟨new', hb', hr', hs'⟩ := h' new hb hr
  refine ⟨new ++ new', ?_, ?_, ?_⟩
  · rw [hb', hb, List.append_assoc]
  · rwa [Tree.leavesOf_append, ← List.append_assoc]
  · rw [Tree.sitesOf_append]
    exact List.forall_mem_append.mpr ⟨hs, hs'⟩

/-- A node with the property over nodes with it. -/
lemma BuildsAt.node (h : BuildsAt P all (K :: around) front c.opened c')
    (hP : ∀ here ts, (∀ t ∈ here, t ∈ all) → Tree.Over here (Tree.leavesOf ts) →
      c'.built.toList = ts → P ⟨around, front, .node K ts⟩) :
    BuildsAt P all around front c (c'.closed K c.built) := by
  obtain ⟨new, hb, ⟨before, hall, hover, hline⟩, hs⟩ := h
  have hnew : c'.built.toList = new := by simpa [opened] using hb
  have hleaves : Tree.leavesOf [.node K new] = Tree.leavesOf new := by
    rw [Tree.leavesOf, Tree.leaves, Tree.leavesOf, List.append_nil]
  refine ⟨[.node K new], by rw [closed, Array.toList_push, hnew], ⟨before, hall, ?_, hline⟩, ?_⟩
  · rwa [hleaves]
  · obtain ⟨us, here, rfl, _, hhere⟩ := hover.split
    rw [Tree.sitesOf_singleton, Tree.sites, List.forall_mem_cons]
    refine ⟨hP here new (fun t ht => ?_) hhere hnew, hs⟩
    rw [hall]
    exact List.mem_append_left _ (List.mem_append_right us ht)

/-- A production one level deeper. -/
lemma BuildsAt.nested {body : Cursor → Cursor} (hc : c.Live)
    (h : BuildsAt P all around front c.lowered (body c.lowered)) :
    BuildsAt P all around front c (c.nested body) := by
  rw [hc.nested_eq]
  exact h

namespace Builds

protected lemma refl (c : Cursor) : Builds P all around c c := fun front hr =>
  ⟨[], (List.append_nil _).symm, by simpa [Tree.leavesOf] using hr, by simp [Tree.sitesOf]⟩

lemma trans (h : Builds P all around c c') (h' : Builds P all around c' c'') :
    Builds P all around c c'' :=
  fun front hr => (h front hr).bind fun _ _ hr => h' _ hr

end Builds

end Runs

/-- From `c`, behind the leaves `front`, to `c'` all nodes that are built are proper. -/
def LaysAt (all : List Token) (around : List Kind) (front : List (Kind × String))
    (c c' : Cursor) : Prop :=
  ∃ new, c'.built.toList = c.built.toList ++ new ∧
    Reached all (front ++ Tree.leavesOf new) c' ∧
    ∀ s ∈ Tree.sitesOf around front new, s.Proper all

/-- From `c` to `c'` all nodes that are built are proper, whatever leaves lead to `c`. -/
def Lays (all : List Token) (around : List Kind) (c c' : Cursor) : Prop :=
  ∀ front, Reached all front c → LaysAt all around front c c'

/-- Runs compose; the second may depend on what the first has built. -/
lemma LaysAt.bind (h : LaysAt all around front c c')
    (h' : ∀ new, c'.built.toList = c.built.toList ++ new →
      Reached all (front ++ Tree.leavesOf new) c' →
      LaysAt all around (front ++ Tree.leavesOf new) c' c'') :
    LaysAt all around front c c'' :=
  BuildsAt.bind h h'

namespace Lays

protected lemma refl (c : Cursor) : Lays all around c c :=
  Builds.refl c

lemma trans (h : Lays all around c c') (h' : Lays all around c' c'') : Lays all around c c'' :=
  Builds.trans h h'

/-- A run over rows of unmarked nodes. -/
lemma of_unmarked [hw : Form.Whole true true L] [hL : Form.Tallied Tree.isMarked L]
    (h : Run true k L c c') (hx : hL.tally.all (·.most = some 0)) : Lays all around c c' := by
  intro front hr
  obtain ⟨ts, new, ht, hb, hover, hn⟩ := h.grew
  have hmem := hn fun _ => rfl
  refine ⟨new, hb, hr.took ht hover, fun s hs => ?_⟩
  refine Tree.proper_of_unmarked (hw.every new hmem) (Form.none_of_tally hx hmem) hover
    (fun t hmem => ?_) hs
  exact hr.mem_all (by rw [ht.rest]; exact List.mem_append_left _ hmem)

end Lays

/-- A run over one node of which more is known where it is entered; below it nothing is claimed. -/
lemma LaysAt.atom [hw : Form.Whole true true M] (hr : Reached all front c) (h : Run true k M c c')
    (hM : M = Form.node K L) (hK : K ∉ Tree.containerKinds)
    (hclaim : ∀ here ts, ts ∈ L → Took here c c' → Tree.Over here (Tree.leavesOf ts) →
      Tree.Site.Claim ⟨around, front, .node K ts⟩ here K) :
    LaysAt all around front c c' := by
  obtain ⟨here, new, ht, hb, hover, hn⟩ := h.grew
  subst hM
  obtain ⟨ts, hts, rfl⟩ := hn fun _ => rfl
  have hform := hw.every _ ⟨ts, hts, rfl⟩
  have hhere : ∀ t ∈ here, t ∈ all := fun t hmem =>
    hr.mem_all (by rw [ht.rest]; exact List.mem_append_left _ hmem)
  refine ⟨_, hb, hr.took ht hover, fun s hs => ?_⟩
  rw [Tree.leavesOf, Tree.leaves, Tree.leavesOf, List.append_nil] at hover
  rw [Tree.sitesOf_singleton, Tree.sites] at hs
  rcases List.mem_cons.mp hs with rfl | hs
  · exact ⟨here, hhere, hover, hclaim here ts hts ht hover⟩
  · exact Tree.proper_of_unmarked hform.1.2
      (fun u hu hnode => Tree.isMarked_of_mem_children hform.1.1 hK hu hnode) hover hhere hs

/-- A node below which all nodes are proper. -/
lemma LaysAt.node (h : LaysAt all (K :: around) front c.opened c')
    (hclaim : ∀ here ts, Tree.Site.Claim ⟨around, front, .node K ts⟩ here K) :
    LaysAt all around front c (c'.closed K c.built) :=
  BuildsAt.node h fun here ts hall hover _ => ⟨here, hall, hover, hclaim here ts⟩

/-- A production one level deeper. -/
lemma LaysAt.nested {body : Cursor → Cursor} (hc : c.Live)
    (h : LaysAt all around front c.lowered (body c.lowered)) :
    LaysAt all around front c (c.nested body) :=
  BuildsAt.nested hc h

/-! ### Steps -/

namespace Lays

lemma look (hc : c.Live) : Lays all around c c.look :=
  of_unmarked (run_look hc) (by decide)

lemma eatBlank (hc : c.Live) : Lays all around c c.eatBlank :=
  of_unmarked (run_eatBlank hc).1 (by decide)

lemma eatNewline (hc : c.Live) : Lays all around c c.eatNewline :=
  of_unmarked (run_eatNewline hc).1 (by decide)

/-- The end of a line with what may stand in front of it. -/
lemma endLine (hc : c.Live) (s : String) :
    Lays all around c ((c.eatBlank.finishLine s).eatNewline) :=
  of_unmarked (run_endLine hc s).1 (by decide)

end Lays

/-! ### Loops -/

section Loops

variable {I J : Cursor → Prop} {turn : Cursor → Turn} {more : Cursor → Bool}
  {body : Cursor → Cursor}

/-- A loop is a path of its turns: what each turn relates, the loop relates. -/
lemma related_loop {R : Cursor → Cursor → Prop} (hrefl : ∀ d : Cursor, R d d)
    (htrans : ∀ {d d' d'' : Cursor}, R d d' → R d' d'' → R d d'') (hk : 3 * k ≤ fullPatience)
    (hturn : ∀ d, d.Live → I d → Turning true k L M I J d (turn d))
    (hrel : ∀ d, d.Live → I d → R d (turn d).cursor) (hc : c.Live) (hi : I c) :
    R c (c.loop turn) := by
  have hpath : ∀ d, d.Live → I d ∧ R c d →
      Turning true k L M (fun d => I d ∧ R c d) (fun d => J d ∧ R c d) d (turn d) := by
    rintro d hd ⟨hi, hr⟩
    have ht := hturn d hd hi
    have hnext := htrans hr (hrel d hd hi)
    cases heq : turn d with
    | again d' =>
        rw [heq] at ht hnext
        exact ⟨ht.1, ht.2.1, ht.2.2, hnext⟩
    | done d' =>
        rw [heq] at ht hnext
        exact ⟨ht.1, ht.2, hnext⟩
  obtain ⟨_, _, h⟩ := Run.loop hk hpath hc ⟨hi, hrefl c⟩
  exact h

/-- A loop, each turn of which builds such nodes. -/
lemma Builds.loop {P : Tree.Site → Prop} (hk : 3 * k ≤ fullPatience)
    (hturn : ∀ d, d.Live → I d → Turning true k L M I J d (turn d))
    (hbuilds : ∀ d, d.Live → I d → Builds P all around d (turn d).cursor) (hc : c.Live) (hi : I c) :
    Builds P all around c (c.loop turn) :=
  related_loop Builds.refl Builds.trans hk hturn hbuilds hc hi

lemma Builds.loopWhile {P : Tree.Site → Prop} (hk : 3 * k ≤ fullPatience)
    (hturn : ∀ d, d.Live → I d → more d →
      Run true k L d (body d) ∧ d.read < (body d).read ∧ I (body d))
    (hbuilds : ∀ d, d.Live → I d → more d → Builds P all around d (body d)) (hc : c.Live)
    (hi : I c) : Builds P all around c (c.loopWhile more body) := by
  refine Builds.loop hk (turning_while hturn) (fun d hd hi => ?_) hc hi
  by_cases hm : more d
  · rw [if_pos hm]
    exact hbuilds d hd hi hm
  · rw [if_neg hm]
    exact .refl d

lemma Lays.loop (hk : 3 * k ≤ fullPatience)
    (hturn : ∀ d, d.Live → I d → Turning true k L M I J d (turn d))
    (hlays : ∀ d, d.Live → I d → Lays all around d (turn d).cursor) (hc : c.Live) (hi : I c) :
    Lays all around c (c.loop turn) :=
  Builds.loop hk hturn hlays hc hi

lemma Lays.loopWhile (hk : 3 * k ≤ fullPatience)
    (hturn : ∀ d, d.Live → I d → more d →
      Run true k L d (body d) ∧ d.read < (body d).read ∧ I (body d))
    (hlays : ∀ d, d.Live → I d → more d → Lays all around d (body d)) (hc : c.Live) (hi : I c) :
    Lays all around c (c.loopWhile more body) :=
  Builds.loopWhile hk hturn hlays hc hi

end Loops

/-- A node that begins a line. -/
lemma Lays.line [hw : Form.Whole true true M] (h : Run true k M c c') (hM : M = Form.node K L)
    (hl : c.lineStart = true) (hK : K ∈ Tree.plainLineKinds) : Lays all around c c' := by
  have hcontainer : ∀ K ∈ Tree.plainLineKinds, K ∉ Tree.containerKinds := by decide
  intro front hr
  exact LaysAt.atom hr h hM (hcontainer K hK) fun _ _ _ _ _ =>
    Tree.Site.claim_of_line (hr.atLineStart hl) hK

end Cursor

end RequestFile
