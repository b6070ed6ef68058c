import RequestFile.Content.Section
import RequestFile.Proofs.Entered.Section
import RequestFile.Proofs.Invariant

/-!
What a line is taken for and what is built from it.

A line is classified by looking ahead, and then other code takes its tokens. The two agree: what the
classification has seen is found in the tree, whether or not there are errors in the source
(`Parsed.ofSource_agrees`).

* **Reports.** A request is entered in front of a URL only, so none is ever reported as missing
  (`Cursor.Furnished`).
* **Texts.** What is known about the tokens below a node is read off its text: a URL without blanks at
  its ends (`Tree.Trimmed.text`), a version, a status code.
* **Parts.** The rest is the form of the node, counted with `Form.exists_childrenOf_eq`.
-/

namespace RequestFile

open scoped Computability

/-! ### Reports -/

namespace Cursor

/-- The tokens ahead are scanned ones, and no URL has been missing. -/
structure Furnished (n : Nat) (c : Cursor) : Prop where
  finish : c.finish = n
  lexed : Token.Lexed c.rest
  reports : ∀ x ∈ c.reports.toList, x.problem ≠ .expectedUrl

namespace Furnished

variable {n : Nat} {c c' : Cursor}

lemma take (h : Furnished n c) (k : Kind) (m : Nat) : Furnished n (c.take k m) where
  finish := by
    have hfinish := h.finish
    rw [Cursor.finish] at hfinish
    simp only [Cursor.finish, Cursor.take, List.length_take, List.length_drop]
    omega
  lexed := h.lexed.drop m
  reports := h.reports

lemma fileAt (h : Furnished n c) {x : Diagnostic} (o : Nat) (hx : x.problem ≠ .expectedUrl) :
    Furnished n (c.fileAt o x) := by
  rw [Cursor.fileAt]
  split_ifs
  · exact h
  · refine ⟨h.finish, h.lexed, ?_⟩
    rw [Array.toList_push, List.forall_mem_append]
    exact ⟨h.reports, List.forall_mem_singleton.mpr hx⟩

end Furnished

/-- **Requests have URLs**, as an invariant of parses. -/
def furnishing (n : Nat) : Invariant where
  finish := n
  Holds := Furnished n
  Range _ := True
  Reportable p := p ≠ .expectedUrl
  reportable h := h
  url h := .inr h.lexed
  finish_eq h := h.finish
  broken _ h := { h with }
  patience _ h := { h with }
  take k m h := h.take k m
  opened h := { h with }
  closed _ _ h' _ := { h' with }
  lowered h _ := { h with }
  raised h := { h with }
  tooDeep h _ := { h with }
  span _ := trivial
  spanTo _ _ := trivial
  extendTo _ _ := trivial
  fileAt o h _ _ hx := h.fileAt o hx

end Cursor

/-- No parse reports a missing URL. -/
lemma Parsed.problem_ne_expectedUrl {source : String} {p : Parsed}
    (hp : Parsed.ofSource .unlimited source = .ok p) :
    ∀ x ∈ p.reports, x.problem ≠ .expectedUrl := by
  have hstart : Cursor.Furnished (Token.scan source).length
      (.start .unlimited (Token.scan source)) :=
    ⟨Nat.zero_add _, Token.lexed_scan source, fun _ hx => absurd hx List.not_mem_nil⟩
  have hend := Cursor.Invariant.Holds.sections (V := Cursor.furnishing _) hstart
  obtain ⟨rfl, _⟩ := Parsed.ofSource_eq_ok.mp hp
  exact hend.reports

/-! ### Texts -/

/-- Whether a character is neither a blank nor part of a terminator. -/
def IsInk (c : Char) : Prop :=
  isBlank c = false ∧ c ≠ '\n' ∧ c ≠ '\r'

/-- A text that is not empty and has neither a blank nor a terminator at its ends. -/
structure TrimmedText (s : String) : Prop where
  nonempty : s ≠ ""
  first : ∀ c ∈ s.toList.head?, IsInk c
  last : ∀ c ∈ s.toList.getLast?, IsInk c

/-- A token that is neither a blank nor a terminator has no character of either. -/
lemma isInk_of_mem_scan {source : String} {t : Token} (ht : t ∈ Token.scan source)
    (hk : t.kind ≠ .whitespace ∧ t.kind ≠ .newline) : ∀ c ∈ t.text.toList, IsInk c := by
  have hbreak := Token.kind_of_mem_break true source.toList t ht
  intro c hc
  refine ⟨?_, fun hn => hk.2 (hbreak c (.inl hn) hc), fun hr => hk.2 (hbreak c (.inr hr) hc)⟩
  by_contra hblank
  have hlex := Token.lexeme_of_mem_scan source t ht
  exact hk.1 (hlex.kind_of_mem .whitespace hc (Bool.not_eq_false _ ▸ hblank))

/-- Tokens without blanks and terminators at their ends have a text without. -/
lemma Tree.Trimmed.text {source : String} {ts : List Token} (h : Tree.Trimmed ts)
    (hall : ∀ t ∈ ts, t ∈ Token.scan source) : TrimmedText (Token.textOf ts) := by
  obtain ⟨hne, hfirst, hlast⟩ := h
  have hfull : ∀ t ∈ ts, t.text.toList ≠ [] := fun t ht hnil =>
    (Token.lexeme_of_mem_scan source t (hall t ht)).text_ne_empty (String.toList_eq_nil_iff.mp hnil)
  obtain ⟨t, us, rfl⟩ := List.exists_cons_of_ne_nil hne
  obtain ⟨vs, v, hvs⟩ := (List.eq_nil_or_concat' (t :: us)).resolve_left hne
  have ht := List.mem_cons_self (a := t) (l := us)
  have hv : v ∈ t :: us := by
    rw [hvs]
    exact List.mem_append_right vs (List.mem_singleton_self v)
  refine ⟨?_, fun c hc => ?_, fun c hc => ?_⟩
  · rw [Token.textOf_cons, Ne, String.append_eq_empty_iff, not_and_or]
    exact .inl fun hempty => hfull t ht (String.toList_eq_nil_iff.mpr hempty)
  · rw [Token.textOf_cons, String.toList_append, List.head?_append_of_ne_nil _ (hfull t ht)] at hc
    exact isInk_of_mem_scan (hall t ht) (hfirst t rfl) c (List.mem_of_head? hc)
  · have hends : c ∈ v.text.toList := by
      rw [hvs, Token.textOf_append, Token.textOf_cons, Token.textOf_nil, String.append_empty,
        String.toList_append, List.getLast?_append_of_ne_nil _ (hfull v hv)] at hc
      exact List.mem_of_getLast? hc
    refine isInk_of_mem_scan (hall v hv) (hlast v ?_) c hends
    rw [hvs, List.getLast?_concat]
    rfl

/-- A version is `HTTP/` and a number. -/
lemma exists_of_isVersion {ts : List Token} (h : Lookahead.isVersion ts) (hlen : ts.length = 3)
    (hall : ∀ t ∈ ts, Token.Lexeme t) : ∃ d ds, Token.textOf ts = "HTTP/" ++ String.ofList (d :: ds) ∧
      d.isDigit ∧ ∀ c ∈ ds, c.isDigit ∨ c = '.' := by
  obtain ⟨a, b, c, us, rfl, _, ha, hb, _, hnumber⟩ := Lookahead.isVersion_iff.mp h
  obtain rfl : us = [] := List.length_eq_zero_iff.mp (by simpa using hlen)
  have hslash : b.text = "/" :=
    (hall b (by simp)).text_eq hb (by decide) (by decide)
  rw [Lookahead.isVersionNumber, Bool.and_eq_true, List.all_eq_true] at hnumber
  obtain ⟨hfirst, hrest⟩ := hnumber
  obtain ⟨d, hd, hdigit⟩ := Option.any_eq_true .. |>.mp hfirst
  obtain ⟨ds, hds⟩ := List.head?_eq_some_iff.mp hd
  refine ⟨d, ds, ?_, hdigit, fun x hx => ?_⟩
  · have hc : c.text = String.ofList (d :: ds) := by rw [← hds, String.ofList_toList]
    rw [Token.textOf_cons, Token.textOf_cons, Token.textOf_cons, Token.textOf_nil,
      String.append_empty, ha, hslash, hc, ← String.append_assoc]
    rfl
  · have hx := hrest x (hds ▸ List.mem_cons_of_mem d hx)
    rwa [Bool.or_eq_true, beq_iff_eq] at hx

/-- A status code is a number from 100 to 599. -/
lemma decimal?_of_isStatusCode {s : String} (h : Lookahead.isStatusCode s) :
    ∃ a b c, s.toList = [a, b, c] ∧ '1' ≤ a ∧ a ≤ '5' ∧ b.isDigit ∧ c.isDigit ∧
      ∃ n, decimal? s = some n ∧ 100 ≤ n ∧ n ≤ 599 := by
  rw [Lookahead.isStatusCode] at h
  split at h
  case h_2 => cases h
  case h_1 a b c hs =>
    simp only [Bool.and_eq_true, decide_eq_true_eq] at h
    obtain ⟨⟨⟨ha, ha'⟩, hb⟩, hc⟩ := h
    have hdigit : a.isDigit := Char.isDigit_iff_toNat.mpr
      ⟨(show '0' ≤ '1' by decide).trans ha, ha'.trans (show '5' ≤ '9' by decide)⟩
    have hne : s.isEmpty = false := by
      rw [String.isEmpty_eq_false_iff]
      rintro rfl
      cases hs
    have hdecimal : decimal? s
        = some ([a, b, c].foldl (fun n c => 10 * n + (c.toNat - '0'.toNat)) 0) := by
      rw [decimal?, hs, hne, if_pos (by simp [hdigit, hb, hc])]
    refine ⟨a, b, c, hs, ha, ha', hb, hc, _, hdecimal, ?_⟩
    -- the bounds on the characters are bounds on their numbers
    have hlo : '1'.toNat ≤ a.toNat := ha
    have hhi : a.toNat ≤ '5'.toNat := ha'
    have hb := Char.isDigit_iff_toNat.mp hb
    have hc := Char.isDigit_iff_toNat.mp hc
    have hzero : '0'.toNat = 48 := rfl
    have hone : '1'.toNat = 49 := rfl
    have hfive : '5'.toNat = 53 := rfl
    have hnine : '9'.toNat = 57 := rfl
    simp only [List.foldl_cons, List.foldl_nil]
    omega

/-! ### Parts -/

namespace Form

/-- A form with exactly one child node of a kind. -/
lemma exists_childrenOf_eq {k K : Kind} {L : TreeLanguage} {t : Tree}
    [hL : Tallied (· == k) L] (h : [t] ∈ node K L) (hx : hL.tally = some (.exactly 1)) :
    ∃ u, t.childrenOf k = [u] ∧ u ∈ t.children ∧ u.isNode ∧ u.kind = k := by
  obtain ⟨a, ha, hcount⟩ := covers_of_node (p := (· == k)) h
  rw [hx] at ha
  obtain rfl := Option.some.inj ha
  have hlen : (t.childrenOf k).length = 1 := by
    rw [Tree.childrenOf, ← List.countP_eq_length_filter]
    exact le_antisymm (hcount.2 1 rfl) hcount.1
  obtain ⟨u, hu⟩ := List.length_eq_one_iff.mp hlen
  have hmem : u ∈ t.childrenOf k := by
    rw [hu]
    exact List.mem_singleton_self u
  obtain ⟨hchild, hkind⟩ := List.mem_filter.mp hmem
  rw [Bool.and_eq_true, beq_iff_eq] at hkind
  exact ⟨u, hu, hchild, hkind⟩

/-- The first child of a node whose form begins with a node. -/
lemma exists_first {k K : Kind} {L M : TreeLanguage} {t : Tree} (h : [t] ∈ node k (node K L * M)) :
    ∃ u us, t.children = u :: us ∧ u.isNode ∧ u.kind = K ∧ [u] ∈ node K L := by
  obtain ⟨_, ⟨_, ⟨ts, hts, rfl⟩, us, _, rfl⟩, heq⟩ := h
  obtain rfl := List.singleton_inj.mp heq
  exact ⟨_, us, rfl, rfl, rfl, ts, hts, rfl⟩

end Form

/-- What a line has been taken for is found in the nodes built from it, kind by kind. -/
structure Tree.Agrees (t : Tree) : Prop where
  request : ∀ r ∈ t.nodesOf .request, ∃ u, r.childrenOf .targetUrl = [u] ∧ TrimmedText u.text
  method : ∀ m ∈ t.nodesOf .method, m.text ∈ Lookahead.methods
  version : ∀ v ∈ t.nodesOf .httpVersion, ∃ d ds, v.text = "HTTP/" ++ String.ofList (d :: ds) ∧
    d.isDigit ∧ ∀ c ∈ ds, c.isDigit ∨ c = '.'
  statusCode : ∀ s ∈ t.nodesOf .statusCode, ∃ a b c, s.text.toList = [a, b, c] ∧ '1' ≤ a ∧ a ≤ '5' ∧
    b.isDigit ∧ c.isDigit ∧ ∃ n, decimal? s.text = some n ∧ 100 ≤ n ∧ n ≤ 599
  metadata : ∀ m ∈ t.nodesOf .metadata, ∃ i, m.childrenOf .identifier = [i]
  header : ∀ h ∈ t.nodesOf .header, ∃ n, h.childrenOf .headerEntity = [n] ∧ n.text ≠ ""
  formBody : ∀ b ∈ t.nodesOf .formUrlencodedBody, ∃ u ∈ b.children.find? Tree.isNode,
    u.kind = .formParam ∧ (∃ n, u.childrenOf .formParamName = [n]) ∧
      ∃ o ∈ u.childrenOf .operator, o.text = "="
  multipart : ∀ b ∈ t.nodesOf .multipartFormData, ∃ u ∈ b.children.find? Tree.isNode,
    u.kind = .multipartBoundaryFirst ∧ ∃ v, u.childrenOf .boundaryValue = [v]
  graphql : ∀ b ∈ t.nodesOf .graphqlBody, ∃ u ∈ b.children.head?, u.isNode ∧
    u.kind = .graphqlData ∧ ∃ w ∈ ["query", "mutation"], ∃ s, u.text = w ++ s

/-! ### Whole documents -/

section Document

variable {source : String} {p : Parsed} {t : Tree} {k : Kind} (hcomplete : p.Complete source)
  (hproper : ∀ s ∈ p.tree.sites [] [], s.Proper (Token.scan source))

include hcomplete in
/-- Every node has the form of its kind. -/
lemma Parsed.Complete.production (ht : t ∈ p.tree.nodesOf k) :
    [t] ∈ Form.production true true k :=
  Form.production_of_mem_nodesOf (hcomplete.form true fun _ => rfl) ht

include hproper in
/-- What is claimed of a node, with the tokens below it. -/
lemma Parsed.exists_claim (ht : t ∈ p.tree.nodesOf k) :
    ∃ (s : Tree.Site) (here : List Token), s.tree = t ∧ (∀ x ∈ here, x ∈ Token.scan source) ∧
      Tree.Over here t.leaves ∧ s.Claim here k := by
  obtain ⟨s, hs, rfl, hk⟩ := Tree.exists_site [] [] ht
  obtain ⟨here, hsub, hover, hclaim⟩ := hproper s hs
  rw [hk] at hclaim
  exact ⟨s, here, rfl, hsub, hover, hclaim⟩

include hcomplete hproper in
/-- **Requests** have one URL. -/
lemma Parsed.exists_targetUrl (ht : t ∈ p.tree.nodesOf .request) :
    ∃ u, t.childrenOf .targetUrl = [u] ∧ TrimmedText u.text := by
  obtain ⟨u, hu, hchild, hnode, hkind⟩ :=
    Form.exists_childrenOf_eq (k := .targetUrl) (hcomplete.production ht) rfl
  have hmem := Tree.mem_nodesOf_of_mem_children ht hchild hnode
  rw [hkind] at hmem
  obtain ⟨_, here, _, hsub, hover, hclaim⟩ := exists_claim hproper hmem
  refine ⟨u, hu, ?_⟩
  rw [hover.text_eq]
  exact Tree.Trimmed.text hclaim hsub

include hcomplete hproper in
/-- **Headers** have one name, which is not empty. -/
lemma Parsed.exists_headerEntity (ht : t ∈ p.tree.nodesOf .header) :
    ∃ n, t.childrenOf .headerEntity = [n] ∧ n.text ≠ "" := by
  obtain ⟨n, hn, hchild, hnode, hkind⟩ :=
    Form.exists_childrenOf_eq (k := .headerEntity) (hcomplete.production ht) rfl
  have hmem := Tree.mem_nodesOf_of_mem_children ht hchild hnode
  rw [hkind] at hmem
  obtain ⟨_, here, _, hsub, hover, _⟩ := exists_claim hproper hmem
  refine ⟨n, hn, ?_⟩
  rw [hover.text_eq]
  obtain ⟨_, ⟨us, _, _, rfl⟩, heq⟩ := hcomplete.production hmem
  obtain rfl := List.singleton_inj.mp heq
  cases here with
  | nil => cases hover.eq_nil
  | cons x xs =>
      rw [Token.textOf_cons, Ne, String.append_eq_empty_iff, not_and_or]
      exact .inl (Token.lexeme_of_mem_scan source x (hsub x List.mem_cons_self)).text_ne_empty

include hproper in
/-- An operator is the character it is for. -/
lemma Parsed.text_operator (ht : t ∈ p.tree.nodesOf .operator) (h : [t] ∈ Form.operator .equals) :
    t.text = "=" := by
  obtain ⟨_, here, _, hsub, hover, _⟩ := exists_claim hproper ht
  obtain ⟨_, ⟨u, _, rfl⟩, heq⟩ := h
  obtain rfl := List.singleton_inj.mp heq
  have hleaf : Tree.Over here [(.equals, u.text)] := hover
  obtain ⟨x, rfl, hx⟩ := hleaf.leafOver.single Kind.noConfusion
  rw [hover.text_eq, Token.textOf_cons, Token.textOf_nil, String.append_empty]
  have hlex := Token.lexeme_of_mem_scan source x (hsub x List.mem_cons_self)
  exact hlex.text_eq (k := .equals) hx (by decide) (by decide)

include hproper in
/-- **Forms** begin with a parameter that has a name and a value. -/
lemma Parsed.exists_formParam (ht : t ∈ p.tree.nodesOf .formUrlencodedBody) :
    ∃ u ∈ t.children.find? Tree.isNode, u.kind = .formParam ∧
      (∃ n, u.childrenOf .formParamName = [n]) ∧ ∃ o ∈ u.childrenOf .operator, o.text = "=" := by
  obtain ⟨s, _, rfl, _, _, _, u, us, hchildren, hparam⟩ := exists_claim hproper ht
  obtain ⟨n, hn, _⟩ := Form.exists_childrenOf_eq (k := .formParamName) hparam rfl
  have hequals : Form.Asks (fun t => [t] ∈ Form.operator .equals)
      (Form.part true .formParamName * Form.blank * Form.formValue true) := by
    have hop : Form.Asks (fun t => [t] ∈ Form.operator .equals) (Form.operator .equals) := by
      rintro _ ⟨ts, hts, rfl⟩
      exact ⟨_, List.mem_singleton_self _, ts, hts, rfl⟩
    exact ((hop.mul_right _).mul_right _).mul_left _
  obtain ⟨ts, hts, heq⟩ := hparam
  obtain rfl := List.singleton_inj.mp heq
  obtain ⟨o, ho, hop⟩ := hequals ts hts
  have hu : Tree.node .formParam ts ∈ p.tree.nodesOf .formParam := by
    refine Tree.mem_nodesOf_of_mem_children ht ?_ rfl
    rw [hchildren]
    exact List.mem_cons_self
  have hnode : o.isNode ∧ o.kind = .operator := by
    obtain ⟨_, _, heq⟩ := hop
    obtain rfl := List.singleton_inj.mp heq
    exact ⟨rfl, rfl⟩
  have hmem := Tree.mem_nodesOf_of_mem_children hu ho hnode.1
  rw [hnode.2] at hmem
  refine ⟨_, by rw [hchildren]; rfl, rfl, ⟨n, hn⟩, o, ?_, text_operator hproper hmem hop⟩
  exact List.mem_filter.mpr ⟨ho, by rw [hnode.1, hnode.2]; rfl⟩

include hcomplete in
/-- **Multipart bodies** begin with a boundary that has a text. -/
lemma Parsed.exists_firstBoundary (ht : t ∈ p.tree.nodesOf .multipartFormData) :
    ∃ u ∈ t.children.find? Tree.isNode, u.kind = .multipartBoundaryFirst ∧
      ∃ v, u.childrenOf .boundaryValue = [v] := by
  have hform : [t] ∈ Form.node .multipartFormData (Form.firstBoundary true *
      ((Form.multipartLine true)∗ * (Form.lastBoundary true + Form.lapse true))) := by
    rw [← mul_assoc]
    exact hcomplete.production ht
  obtain ⟨u, us, hchildren, hnode, hkind, hu⟩ := Form.exists_first hform
  obtain ⟨v, hv, _⟩ := Form.exists_childrenOf_eq (k := .boundaryValue) hu rfl
  exact ⟨u, by rw [hchildren, List.find?_cons_of_pos hnode]; rfl, hkind, v, hv⟩

include hcomplete hproper in
/-- **GraphQL bodies** begin with a query. -/
lemma Parsed.exists_graphqlData (ht : t ∈ p.tree.nodesOf .graphqlBody) :
    ∃ u ∈ t.children.head?, u.isNode ∧ u.kind = .graphqlData ∧
      ∃ w ∈ ["query", "mutation"], ∃ s, u.text = w ++ s := by
  have hform : [t] ∈ Form.node .graphqlBody (Form.textBody .graphqlData *
      (Form.opt (Form.blankLine∗ * Form.textBody .jsonBody) *
        Form.opt (Form.blankLine∗ * Form.externalBody true))) := by
    rw [← mul_assoc]
    exact hcomplete.production ht
  obtain ⟨u, us, hchildren, hnode, hkind, _⟩ := Form.exists_first hform
  have hmem := Tree.mem_nodesOf_of_mem_children ht (hchildren ▸ List.mem_cons_self) hnode
  rw [hkind] at hmem
  obtain ⟨_, here, _, _, hover, _, hword⟩ := exists_claim hproper hmem
  refine ⟨u, by rw [hchildren]; rfl, hnode, hkind, _, hword, ?_⟩
  rw [hover.text_eq]
  cases here with
  | nil => exact absurd hword (by decide)
  | cons x xs => exact ⟨Token.textOf xs, Token.textOf_cons x xs⟩

end Document

/-- **Lookahead and consumption agree**, whatever the source is: no URL is ever missing, and what a
line has been taken for is found in the nodes built from it. -/
theorem Parsed.ofSource_agrees (source : String) :
    ∃ p, Parsed.ofSource .unlimited source = .ok p ∧
      (∀ x ∈ p.reports, x.problem ≠ .expectedUrl) ∧ p.tree.Agrees := by
  obtain ⟨p, hp, hcomplete, hproper⟩ := Parsed.ofSource_proper source
  refine ⟨p, hp, Parsed.problem_ne_expectedUrl hp, ?_⟩
  -- some facts are claims of the cursor where a node begins, and some are told by its form
  constructor
  case request => exact fun _ ht => Parsed.exists_targetUrl hcomplete hproper ht
  case method =>
    intro m hm
    obtain ⟨_, _, rfl, _, _, hclaim⟩ := Parsed.exists_claim hproper hm
    exact hclaim
  case version =>
    intro v hv
    obtain ⟨_, _, _, hsub, hover, hversion, hlen⟩ := Parsed.exists_claim hproper hv
    rw [hover.text_eq]
    exact exists_of_isVersion hversion hlen fun x hx =>
      Token.lexeme_of_mem_scan source x (hsub x hx)
  case statusCode =>
    intro s hs
    obtain ⟨_, _, rfl, _, _, hclaim⟩ := Parsed.exists_claim hproper hs
    exact decimal?_of_isStatusCode hclaim
  case metadata =>
    intro m hm
    obtain ⟨i, hi, _⟩ := Form.exists_childrenOf_eq (k := .identifier) (hcomplete.production hm) rfl
    exact ⟨i, hi⟩
  case header => exact fun _ ht => Parsed.exists_headerEntity hcomplete hproper ht
  case formBody => exact fun _ ht => Parsed.exists_formParam hproper ht
  case multipart => exact fun _ ht => Parsed.exists_firstBoundary hcomplete ht
  case graphql => exact fun _ ht => Parsed.exists_graphqlData hcomplete hproper ht

end RequestFile
