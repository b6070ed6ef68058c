import RequestFile.Proofs.Hyphens
import RequestFile.Proofs.Trimming

/-!
What closes a multipart body.

A boundary line is told by its hyphens, not by its name: the first line behind the opening one whose
text ends with two hyphens more closes the body, whatever the name in front of them is, and no name is
compared with that of the first line (`Parsed.not_closed_by_boundary`).

* **Inner boundaries** have no text that would close the body (`EndsClosed`), so the closing line is
  the first that could be one.
* **The closing line** is the last child of its body and the only one of its kind. It begins with its
  name between two pairs of hyphens.

`Parsed.ofSource_closed` is about all sources, closed or not.
-/

namespace RequestFile

open scoped Computability

/-- A text behind the hyphens of a boundary line that closes a body: a name and two hyphens. -/
def EndsClosed (s : String) : Prop :=
  ∃ v, v ≠ "" ∧ s = v ++ "--"

namespace Tree

/-- The kinds of boundary lines. -/
def boundaryKinds : List Kind :=
  [.multipartBoundaryFirst, .multipartBoundary, .multipartBoundaryLast]

/-- A boundary line with a name that is not empty, which does not close a body if the line stands
between two parts. -/
def BoundaryName (t : Tree) : Prop :=
  t.isNode → t.kind ∈ boundaryKinds → ∀ v ∈ t.children, v.isNode → v.kind = .boundaryValue →
    v.text ≠ "" ∧ (t.kind = .multipartBoundary → ¬EndsClosed v.text)

lemma boundaryName_of_not (t : Tree) (h : t.isNode → boundaryKinds.contains t.kind = false) :
    t.BoundaryName :=
  fun hnode hk => absurd hk (not_mem_of_contains h hnode)

/-- A multipart body with such boundary lines. -/
def BoundaryNames (t : Tree) : Prop :=
  ∀ u ∈ t.children, u.BoundaryName

variable {t u : Tree} {k : Kind}

lemma child?_eq_head? (t : Tree) (k : Kind) : t.child? k = (t.childrenOf k).head? :=
  List.head?_filter.symm

/-- The first child node, found by its kind. -/
lemma child?_of_first (h : u ∈ t.children.find? Tree.isNode) (hk : u.kind = k) :
    t.child? k = some u := by
  obtain ⟨hnode, front, back, hchildren, hfront⟩ := List.find?_eq_some_iff_append.mp h
  rw [child?, List.find?_eq_some_iff_append]
  refine ⟨by simp [hnode, hk], front, back, hchildren, fun a ha => ?_⟩
  have hleaf : a.isNode = false := by simpa using hfront a ha
  simp [hleaf]

end Tree

/-! ### What follows a stretch of a line -/

namespace Lookahead

/-- Where the search for some kinds ends, one of them stands, or the segment ends. -/
lemma head_drop_lengthOutsideVariablesFrom (set : KindSet) (skip : Nat) (segment : List Token) :
    ∀ t ∈ (segment.drop (lengthOutsideVariablesFrom set skip segment)).head?,
      set.contains t.kind := by
  induction segment generalizing skip with
  | nil => simp [lengthOutsideVariablesFrom]
  | cons u us ih =>
      cases skip with
      | succ n => exact ih n
      | zero =>
          rw [lengthOutsideVariablesFrom]
          split_ifs with hopen hset
          · exact ih _
          · intro t ht
            obtain rfl := Option.some.inj ht
            exact hset
          · exact ih 0

end Lookahead

/-- Tokens whose text closes a body are a name and a pair of hyphens. -/
lemma Token.exists_of_endsClosed {source : String} {front ts back : List Token}
    (h : scan source = front ++ ts ++ back) (hfront : ∃ t ∈ front.getLast?, t.kind ≠ .newline)
    (hline : ∀ t ∈ ts, t.kind ≠ .newline)
    (hback : ∀ t ∈ back.head?, t.kind = .whitespace ∨ t.kind = .newline)
    (hclosed : EndsClosed (textOf ts)) : ∃ ws, ws ≠ [] ∧ ts = ws ++ [hyphenPair] := by
  obtain ⟨v, hv, htext⟩ := hclosed
  have hchars := congrArg String.toList htext
  rw [String.toList_append] at hchars
  have hlast := getLast_of_closing h hfront hline hback ⟨v.toList, hchars.symm⟩
  obtain ⟨ws, rfl⟩ := List.getLast?_eq_some_iff.mp hlast
  refine ⟨ws, ?_, rfl⟩
  rintro rfl
  have hpair : (textOf ([] ++ [hyphenPair])).toList = [] ++ "--".toList := rfl
  rw [hpair] at hchars
  exact hv (String.toList_eq_nil_iff.mp (List.append_cancel_right hchars).symm)

namespace Cursor

variable {source : String} {stop : Nat} {b : Boundary} {c c' : Cursor}

/-- Behind the text of a boundary line stands a blank or a terminator, or nothing. -/
lemma head_drop_boundaryTextEnd (hs : c.sees .doubleDash) :
    ∀ t ∈ (c.rest.drop (c.boundaryTextEnd - c.read)).head?,
      t.kind = .whitespace ∨ t.kind = .newline := by
  obtain ⟨hlt, hle⟩ := boundaryTextEnd_bounds hs
  intro t ht
  rcases hle.lt_or_eq with hlt' | heq
  · have hset := Lookahead.head_drop_lengthOutsideVariablesFrom boundaryEndKinds 0
      ((c.segment c.lineEnd).drop 1)
    have hend : 1 + Lookahead.lengthOutsideVariablesFrom boundaryEndKinds 0
        ((c.segment c.lineEnd).drop 1) = c.boundaryTextEnd - c.read := by
      rw [boundaryTextEnd, Lookahead.lengthOutsideVariables, Nat.add_assoc, Nat.add_sub_cancel_left]
    rw [List.drop_drop, hend, segment, List.drop_take] at hset
    obtain ⟨n, hn⟩ : ∃ n, c.lineEnd - c.read - (c.boundaryTextEnd - c.read) = n + 1 :=
      ⟨c.lineEnd - c.boundaryTextEnd - 1, by omega⟩
    rw [hn] at hset
    obtain ⟨us, hus⟩ := List.head?_eq_some_iff.mp ht
    have hkind := hset t (by rw [hus, List.take_succ_cons]; rfl)
    simpa [boundaryEndKinds, KindSet.contains] using hkind
  · rw [heq, lineEnd, Nat.add_sub_cancel_left] at ht
    rcases Lookahead.head_drop_lineLength c.rest with hnil | hnl
    · rw [hnil] at ht
      cases ht
    · obtain ⟨u, us, hus, hk⟩ := Lookahead.exists_of_startsWith hnl
      rw [hus] at ht
      obtain rfl := Option.some.inj ht
      exact .inr hk

/-- The tokens of the text of a boundary line. -/
lemma segment_bump (hs : c.sees .doubleDash) (stop : Nat) :
    c.opened.bump.segment stop = (c.rest.drop 1).take (stop - c.read - 1) := by
  obtain ⟨t, us, hr, _⟩ := exists_of_sees hs
  simp [segment, bump, opened, take, hr, Nat.sub_sub]

/-- Behind the opening hyphens, a name and a pair of hyphens are a closing boundary. -/
lemma boundaryHere_eq_last {t : Token} {ws us : List Token}
    (hr : c.rest = (t :: ws) ++ Token.hyphenPair :: us) (hne : ws ≠ [])
    (hstop : stop = c.read + ws.length + 2) : c.boundaryHere stop = .last := by
  have hpos := List.length_pos_of_ne_nil hne
  have hdrop : c.rest.drop (stop - 1 - c.read) = Token.hyphenPair :: us := by
    rw [hr]
    exact List.drop_left' (by rw [List.length_cons]; omega)
  rw [boundaryHere, hdrop, if_pos]
  simp [Token.hyphenPair]
  omega

/-- **Inner boundaries**: a boundary line that is not the last has no text that closes a body. -/
lemma not_endsClosed (hr : c.rest <:+ Token.scan source) (hs : c.sees .doubleDash)
    (hb : c.boundaryHere c.boundaryTextEnd = .inner) :
    ¬EndsClosed (Token.textOf (c.opened.bump.segment c.boundaryTextEnd)) := by
  intro hclosed
  obtain ⟨hlt, hle⟩ := boundaryTextEnd_bounds hs
  have hback := head_drop_boundaryTextEnd hs
  obtain ⟨t, us, hrest, hk⟩ := exists_of_sees hs
  obtain ⟨pre, hpre⟩ := hr
  obtain ⟨n, hn⟩ : ∃ n, c.boundaryTextEnd = c.read + (n + 1) :=
    ⟨c.boundaryTextEnd - c.read - 1, by omega⟩
  rw [segment_bump hs, hrest, List.drop_succ_cons, List.drop_zero, hn, Nat.add_sub_cancel_left,
    Nat.add_sub_cancel] at hclosed
  rw [hn, Nat.add_sub_cancel_left, hrest, List.drop_succ_cons] at hback
  rw [hn, lineEnd] at hle
  have hle' : n + 1 ≤ Lookahead.lineLength c.rest := by omega
  have hline : ∀ u ∈ us.take n, u.kind ≠ .newline := fun u hu =>
    Lookahead.kind_of_mem_take hle' (by
      rw [hrest, List.take_succ_cons]
      exact List.mem_cons_of_mem t hu)
  have hscan : Token.scan source = (pre ++ [t]) ++ us.take n ++ us.drop n := by
    simp [← hpre, hrest]
  -- a text that ends in two hyphens has them as a token of their own, so the line would be the last
  obtain ⟨ws, hne, hws⟩ :=
    Token.exists_of_endsClosed hscan ⟨t, by simp, by simp [hk]⟩ hline hback hclosed
  have hlen := congrArg List.length hws
  have hus := Lookahead.lineLength_le c.rest
  have hsize : c.rest.length = us.length + 1 := by rw [hrest, List.length_cons]
  rw [List.length_take, List.length_append, List.length_singleton] at hlen
  have hsplit : c.rest = (t :: ws) ++ Token.hyphenPair :: us.drop n := by
    calc c.rest = t :: (us.take n ++ us.drop n) := by rw [List.take_append_drop, hrest]
      _ = (t :: ws) ++ Token.hyphenPair :: us.drop n := by rw [hws]; simp
  rw [boundaryHere_eq_last hsplit hne (by omega)] at hb
  cases hb

/-! ### Boundary lines -/

/-- The names below a boundary line, apart from what else is there. -/
def NameText (inner : Prop) (v : Tree) : Prop :=
  v.isNode → v.kind = .boundaryValue → v.text ≠ "" ∧ (inner → ¬EndsClosed v.text)

lemma nameText_of_not {inner : Prop} (t : Tree)
    (h : t.isNode → [Kind.boundaryValue].contains t.kind = false) : NameText inner t :=
  fun hnode hk => absurd (List.mem_singleton.mpr hk) (Tree.not_mem_of_contains h hnode)

/-- A text up to a position behind the cursor is not empty. -/
lemma textOf_segment_ne_empty (hr : c.rest <:+ Token.scan source) (h : c.read < stop)
    (hf : stop ≤ c.finish) : Token.textOf (c.segment stop) ≠ "" := by
  obtain ⟨t, us, hrest⟩ := exists_of_lt_finish (h.trans_le hf)
  have ht : t ∈ Token.scan source := hr.subset (by rw [hrest]; exact List.mem_cons_self)
  rw [segment_cons hrest h, Token.textOf_cons, Ne, String.append_eq_empty_iff, not_and_or]
  exact .inl (Token.lexeme_of_mem_scan source t ht).text_ne_empty

/-- **Boundary lines.** -/
lemma adds_boundaryLine (hc : c.Live) (hr : c.rest <:+ Token.scan source) (hs : c.sees .doubleDash)
    (hl : stop ≤ c.lineEnd) (hlast : b = .last → c.boundaryHere stop = .last)
    (hinner : b = .inner → ¬EndsClosed (Token.textOf (c.opened.bump.segment stop))) :
    Adds Tree.BoundaryName c (c.boundaryLine b stop) := by
  obtain ⟨hopen, hread, hline⟩ := run_boundaryHyphens (e := true) hc hs
  have hfirst : Adds (NameText (b = .inner)) c.opened c.opened.bump :=
    .of_none (by decide) hopen nameText_of_not
  have hr' := hfirst.suffix hr
  have hle : (if b = .last then stop - 1 else stop) ≤ c.opened.bump.lineEnd := by
    rw [hline]
    split_ifs <;> omega
  have hpart : Adds (NameText (b = .inner)) c.opened.bump
      (c.opened.bump.part .boundaryValue (if b = .last then stop - 1 else stop)) :=
    adds_part hopen.live hle fun h us htext _ _ => by
      rw [htext]
      refine ⟨textOf_segment_ne_empty hr' h (hle.trans (lineEnd_le_finish _)), fun hb => ?_⟩
      rw [if_neg (by rw [hb]; decide)]
      exact hinner hb
  obtain ⟨hrun, _⟩ := run_part (e := true) (K := .boundaryValue) hopen.live hle
  have hfront := hfirst.trans hpart
  generalize hd : c.opened.bump.part .boundaryValue (if b = .last then stop - 1 else stop) = d at *
  -- the hyphens of a closing line stand where its boundary ends
  obtain ⟨n, hclose⟩ : ∃ n, Run true n (Form.opt (Form.leaf .doubleDash)) d
      (if b = .last then d.bump else d) := by
    split_ifs with hb
    · rw [if_pos hb] at hd
      have hsees := (sees_closingHyphens hc hs hl (hlast hb)).2
      rw [hd] at hsees
      exact ⟨_, (run_bump hrun.live hsees).1.present⟩
    · exact ⟨_, (Run.refl hrun.live).absent⟩
  obtain ⟨hend, _⟩ := run_endLine (e := true) hclose.live "unexpected text after the boundary"
  have hall := hfront.trans (.of_none (by decide) (hclose.trans hend) nameText_of_not)
  subst hd
  refine hall.node fun new _ hn => ?_
  intro _ _ v hv hnode hk
  refine ⟨(hn v hv hnode hk).1, fun hkind => (hn v hv hnode hk).2 ?_⟩
  cases b <;> first | rfl | cases hkind

/-- **Lines of a multipart body.** -/
lemma adds_multipartTurn (opener : Span) (hc : c.Live) (hr : c.rest <:+ Token.scan source) :
    Adds Tree.BoundaryName c (multipartTurn opener c).cursor := by
  have hlook := run_look (e := true) hc
  have hlooked : Adds Tree.BoundaryName c c.look := .of_none (by decide) hlook Tree.boundaryName_of_not
  have hr' := hlooked.suffix hr
  have hstep := multipartTurn_step opener hc
  generalize multipartTurn opener c = turn at hstep ⊢
  cases hstep with
  | unclosed =>
      exact .of_none (by decide) (run_reportUnclosed (e := true) (p := .unclosedMultipart) hc rfl
        "expected a closing boundary" "multipart body starts here" opener) Tree.boundaryName_of_not
  | blank hne hblank =>
      exact .of_none (by decide) (run_blankLine hc hblank hne).toRun Tree.boundaryName_of_not
  | last _ hs hb =>
      exact hlooked.trans (adds_boundaryLine hlook.live hr' hs (boundaryTextEnd_bounds hs).2
        (fun _ => hb) fun h => by cases h)
  | inner _ hs hb =>
      -- a line that ends closed is the last one
      exact hlooked.trans (adds_boundaryLine (b := .inner) hlook.live hr' hs
        (boundaryTextEnd_bounds hs).2 (fun h => by cases h) fun _ => not_endsClosed hr' hs hb)
  | external _ hs =>
      exact hlooked.trans (.of_none (by decide) (run_multipartExternal hlook.live hs).toRun
        Tree.boundaryName_of_not)
  | header _ hs =>
      exact hlooked.trans (.of_none (by decide) (run_header hlook.live hs).toRun
        Tree.boundaryName_of_not)
  | content hne =>
      have hne' : c.look.rest ≠ [] := by rwa [look_rest]
      exact hlooked.trans (.of_none (by decide) (run_multipartContent hlook.live hne').toRun
        Tree.boundaryName_of_not)

/-- **Multipart bodies**, closed or not. -/
lemma adds_multipart (hc : c.Live) (hr : c.rest <:+ Token.scan source)
    (hb : Lookahead.OpensMultipart c.rest) : Adds Tree.BoundaryNames c c.multipart := by
  have hfirst := run_firstBoundary (e := true) hc.opened hb.1 (lt_boundaryTextEnd (c := c.opened) hb)
  have hline : Adds Tree.BoundaryName c.opened
      (c.opened.boundaryLine .first c.opened.boundaryTextEnd) :=
    adds_boundaryLine hc.opened hr hb.1 (boundaryTextEnd_bounds (c := c.opened) hb.1).2
      (fun h => by cases h) fun h => by cases h
  have hloop := hline.trans (Adds.loop (by decide)
    (fun d hd ha => run_multipartTurn (e := true) c.span hd ha)
    (fun d hd _ hr => adds_multipartTurn c.span hd hr) hfirst.live hfirst.aligned
    (hline.suffix hr))
  exact hloop.node fun new _ hn => hn

end Cursor

/-! ### Whole documents -/

namespace Form

variable {l b : Tree}

/-- The last boundary line begins with its name between two pairs of hyphens. -/
lemma children_lastBoundary (h : [l] ∈ lastBoundary true) :
    l.kind = .multipartBoundaryLast ∧ ∃ s v s' ts,
      l.children = .leaf .doubleDash s :: v :: .leaf .doubleDash s' :: ts ∧ v.isNode ∧
        v.kind = .boundaryValue := by
  obtain ⟨_, ⟨_, ⟨_, ⟨_, ⟨t, _, rfl⟩, _, ⟨vs, _, rfl⟩, rfl⟩, _, ⟨u, _, rfl⟩, rfl⟩, ts, _, rfl⟩, heq⟩ :=
    h
  obtain rfl := List.singleton_inj.mp heq
  exact ⟨rfl, t.text, _, u.text, ts, rfl, rfl, rfl⟩

/-- The last boundary line of a multipart body is its last child. -/
lemma last_multipart (h : [b] ∈ multipart true) (hl : l ∈ b.childrenOf .multipartBoundaryLast) :
    [l] ∈ lastBoundary true ∧ b.children.getLast? = some l ∧
      b.childrenOf .multipartBoundaryLast = [l] := by
  obtain ⟨_, ⟨front, hfront, back, hback, rfl⟩, heq⟩ := h
  obtain rfl := List.singleton_inj.mp heq
  have hnone : (front.filter fun t => t.isNode && t.kind == .multipartBoundaryLast) = [] := by
    rw [List.filter_eq_nil_iff]
    intro t ht hk
    rw [Bool.and_eq_true] at hk
    have hother := none_of_tally (p := (· == .multipartBoundaryLast)) rfl hfront t ht hk.1
    rw [hk.2] at hother
    cases hother
  rw [Tree.childrenOf, Tree.children, List.filter_append, hnone, List.nil_append] at hl ⊢
  rcases hback with hback | hback
  · obtain ⟨ts, _, rfl⟩ := id hback
    rw [List.filter_singleton] at hl ⊢
    obtain rfl := List.mem_singleton.mp hl
    exact ⟨hback, List.getLast?_concat, rfl⟩
  · obtain rfl := (Language.mem_one back).mp hback
    cases hl

end Form

section Document

variable {source : String} {p : Parsed} {b l u v : Tree} (hcomplete : p.Complete source)
  (hproper : ∀ s ∈ p.tree.sites [] [], s.Proper (Token.scan source))
  (hp : Parsed.ofSource .unlimited source = .ok p)

include hp in
/-- Every multipart body has such boundary lines. -/
lemma Parsed.boundaryNames (hb : b ∈ p.tree.nodesOf .multipartFormData) : b.BoundaryNames :=
  of_adds hp (by decide) .multipart rfl
    (fun _ hc hr hopens => Cursor.adds_multipart hc hr hopens) hb

include hp in
/-- The name of a boundary line. -/
lemma Parsed.boundaryName {k : Kind} (hb : b ∈ p.tree.nodesOf .multipartFormData)
    (hk : k ∈ Tree.boundaryKinds) (hu : u ∈ b.childrenOf k) (hv : v ∈ u.childrenOf .boundaryValue) :
    v.text ≠ "" ∧ (k = .multipartBoundary → ¬EndsClosed v.text) := by
  obtain ⟨hu, hkind⟩ := List.mem_filter.mp hu
  obtain ⟨hv, hvalue⟩ := List.mem_filter.mp hv
  rw [Bool.and_eq_true, beq_iff_eq] at hkind hvalue
  rw [← hkind.2] at hk ⊢
  exact boundaryNames hp hb u hu hkind.1 hk v hv hvalue.1 hvalue.2

include hproper in
/-- A pair of hyphens is written so. -/
lemma Parsed.text_doubleDash {k : Kind} {s : String} (ht : u ∈ p.tree.nodesOf k)
    (hl : (.doubleDash, s) ∈ u.leaves) : s = "--" := by
  obtain ⟨_, _, _, hsub, hover, _⟩ := exists_claim hproper ht
  obtain ⟨block, hblock, hmem⟩ := hover.exists_block_of_mem hl
  obtain ⟨x, rfl, hx⟩ := hblock.single Kind.noConfusion
  have hlex := Token.lexeme_of_mem_scan source x (hsub x (hmem x List.mem_cons_self))
  have htext := hblock.text_eq
  rw [Token.textOf_cons, Token.textOf_nil, String.append_empty] at htext
  exact htext.symm.trans (hlex.text_eq (k := .doubleDash) hx (by decide) (by decide))

include hproper in
/-- The last boundary line, by its name. -/
lemma Parsed.text_lastBoundary (hl : l ∈ p.tree.nodesOf .multipartBoundaryLast)
    (hform : [l] ∈ Form.lastBoundary true) :
    ∃ v, l.childrenOf .boundaryValue = [v] ∧ ∃ s, l.text = "--" ++ v.text ++ "--" ++ s := by
  obtain ⟨v, hv, _⟩ := Form.exists_childrenOf_eq (k := .boundaryValue) hform rfl
  obtain ⟨_, s, w, s', ts, hchildren, hnode, hkind⟩ := Form.children_lastBoundary hform
  have hw : w ∈ l.childrenOf .boundaryValue := by
    rw [Tree.childrenOf, hchildren]
    exact List.mem_filter.mpr ⟨by simp, by simp [hnode, hkind]⟩
  rw [hv] at hw
  obtain rfl := List.mem_singleton.mp hw
  cases l with
  | leaf k s => cases hchildren
  | node k us =>
    obtain rfl : us = _ := hchildren
    have hdash : ∀ x ∈ [s, s'], x = "--" := fun x hx =>
      text_doubleDash hproper hl (by
        rcases List.mem_pair.mp hx with rfl | rfl <;> simp [Tree.leaves, Tree.leavesOf])
    refine ⟨w, hv, Tree.textOf ts, ?_⟩
    rw [Tree.text_node, Tree.textOf_cons, Tree.textOf_cons, Tree.textOf_cons,
      ← Tree.textOf_singleton (.leaf _ _), ← Tree.textOf_singleton (.leaf _ s'), Tree.textOf_leaf,
      Tree.textOf_leaf, hdash s (by simp), hdash s' (by simp)]
    simp only [String.append_assoc]

end Document

/-- **What closes a multipart body**, whatever the source is: its first line declares a name that is
not empty, and no boundary line between two parts has a name with two more hyphens behind it. A line
that closes the body is its last child and the only one of its kind; it begins with two hyphens, the
only name it has, which is not empty, and two hyphens. -/
theorem Parsed.ofSource_closed (source : String) :
    ∃ p, Parsed.ofSource .unlimited source = .ok p ∧
      ∀ b ∈ p.tree.nodesOf .multipartFormData,
        (∃ w ∈ BodyContent.boundaryOf b, w ≠ "") ∧
        (∀ u ∈ b.childrenOf .multipartBoundary, ∀ v ∈ u.childrenOf .boundaryValue,
          ¬EndsClosed v.text) ∧
        ∀ l ∈ b.childrenOf .multipartBoundaryLast,
          b.children.getLast? = some l ∧ b.childrenOf .multipartBoundaryLast = [l] ∧
            ∃ v, l.childrenOf .boundaryValue = [v] ∧ v.text ≠ "" ∧
              ∃ s, l.text = "--" ++ v.text ++ "--" ++ s := by
  obtain ⟨p, hp, hcomplete, hproper⟩ := Parsed.ofSource_proper source
  refine ⟨p, hp, fun b hb => ⟨?_, fun u hu v hv => ?_, fun l hl => ?_⟩⟩
  · obtain ⟨u, hfirst, hkind, v, hv⟩ := Parsed.exists_firstBoundary hcomplete hb
    have hnode := List.find?_some hfirst
    have hu : u ∈ b.childrenOf .multipartBoundaryFirst :=
      List.mem_filter.mpr ⟨List.mem_of_find?_eq_some hfirst, by simp [hnode, hkind]⟩
    have hname := Parsed.boundaryName hp hb (by decide) hu (hv ▸ List.mem_singleton_self v)
    refine ⟨v.text, ?_, hname.1⟩
    rw [BodyContent.boundaryOf, Tree.child?_of_first hfirst hkind, Option.bind_some,
      Tree.child?_eq_head?, hv]
    rfl
  · exact (Parsed.boundaryName hp hb (by decide) hu hv).2 rfl
  -- where such a line stands is told by the form of the body, and its name by how it is read
  · obtain ⟨hform, hlast, hone⟩ := Form.last_multipart (hcomplete.production hb) hl
    obtain ⟨hchild, hkind⟩ := List.mem_filter.mp hl
    rw [Bool.and_eq_true, beq_iff_eq] at hkind
    have hmem := Tree.mem_nodesOf_of_mem_children hb hchild hkind.1
    rw [hkind.2] at hmem
    obtain ⟨v, hv, htext⟩ := Parsed.text_lastBoundary hproper hmem hform
    have hname := Parsed.boundaryName hp hb (by decide) hl
      (hv ▸ List.mem_singleton_self v)
    exact ⟨hlast, hone, v, hv, hname.1, htext⟩

/-- Another name than that of the first line closes a body as well. -/
theorem Parsed.not_closed_by_boundary :
    ∃ p b l v, Parsed.ofSource .unlimited "POST /u\n\n--a\nx\n--b--\n" = .ok p ∧ p.reports = [] ∧
      b ∈ p.tree.nodesOf .multipartFormData ∧ BodyContent.boundaryOf b = some "a" ∧
      l ∈ b.childrenOf .multipartBoundaryLast ∧ v ∈ l.childrenOf .boundaryValue ∧ v.text = "b" := by
  have hany : (Parsed.ofSource .unlimited "POST /u\n\n--a\nx\n--b--\n").toOption.any fun p =>
      p.reports.isEmpty && (p.tree.nodesOf .multipartFormData).any fun b =>
        BodyContent.boundaryOf b == some "a" && (b.childrenOf .multipartBoundaryLast).any fun l =>
          (l.childrenOf .boundaryValue).any (·.text == "b") := by
    decide +kernel
  obtain ⟨p, hp, hany⟩ := Document.exists_ok_of_any hany
  simp only [Bool.and_eq_true, List.any_eq_true, List.isEmpty_iff, beq_iff_eq] at hany
  obtain ⟨hreports, b, hb, hdeclared, l, hl, v, hv, htext⟩ := hany
  exact ⟨p, b, l, v, hp, hreports, hb, hdeclared, hl, hv, htext⟩

end RequestFile
