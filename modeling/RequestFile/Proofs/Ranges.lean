import RequestFile.Diagnostic.Render
import RequestFile.Proofs.Invariant
import RequestFile.Proofs.Leaves
import RequestFile.Proofs.Terminator.Summary

/-!
Ranges of diagnostics.

Every range that a document reports can be marked in its source.

* **Boundaries.** A range is `Span.OnTokens` if it goes from one boundary between tokens to another
  and is empty at the end of the source only. Boundaries between tokens lie between characters
  (`Token.Boundary.isValid`), so the bytes to mark for such a range are whole characters
  (`Span.OnTokens.marked`).
* **Reports.** A cursor stands at a boundary, and so do the ranges it reports; this is an invariant
  of parses (`Cursor.siting`).
* **Names.** The warnings about names take their ranges from nodes, below which stand whole tokens
  (`Placed.OnTokens`). A name is not empty, since a value that is built has something below it.
-/

namespace RequestFile

open scoped Computability

/-! ### Boundaries -/

/-- Where a token ends or the first one begins: behind some of the first tokens. -/
def Token.Boundary (ts : List Token) (o : Nat) : Prop :=
  ∃ front back, ts = front ++ back ∧ o = Token.sizeOf front

/-- A range between boundaries, which is empty at the end only. -/
structure Span.OnTokens (ts : List Token) (s : Span) : Prop where
  start : Token.Boundary ts s.start
  stop : Token.Boundary ts s.stop
  empty : s.size = 0 → s.start = Token.sizeOf ts

/-- Two offsets in order, both between characters of a text. -/
structure OnCharacters (text : String) (a b : Nat) : Prop where
  le : a ≤ b
  within : b ≤ text.utf8ByteSize
  start : (String.Pos.Raw.mk a).IsValid text
  stop : (String.Pos.Raw.mk b).IsValid text

variable {ts us : List Token} {o : Nat} {s : Span} {source : String}

namespace Token.Boundary

lemma le (h : Boundary ts o) : o ≤ sizeOf ts := by
  obtain ⟨front, back, rfl, rfl⟩ := h
  rw [sizeOf_append]
  exact Nat.le_add_right _ _

lemma max {o' : Nat} (h : Boundary ts o) (h' : Boundary ts o') : Boundary ts (max o o') := by
  rcases le_total o o' with hle | hle
  · rwa [max_eq_right hle]
  · rwa [max_eq_left hle]

/-- **Between tokens** is between characters. -/
lemma isValid (h : Boundary (scan source) o) : (String.Pos.Raw.mk o).IsValid source := by
  obtain ⟨front, back, hts, rfl⟩ := h
  refine String.Pos.Raw.isValid_iff_exists_append.mpr ⟨textOf front, textOf back, ?_, ?_⟩
  · rw [← textOf_append, ← hts, textOf_scan]
  · rw [sizeOf_eq]
    rfl

end Token.Boundary

namespace Span.OnTokens

lemma le (h : s.OnTokens ts) : s.stop ≤ Token.sizeOf ts :=
  h.stop.le

/-- Some tokens in a row, of which there are none at the end only. -/
lemma of_append {front mid back : List Token} (hlex : Token.Lexed (front ++ mid ++ back))
    (hend : mid = [] → back = []) :
    (Span.mk (Token.sizeOf front) (Token.sizeOf mid)).OnTokens (front ++ mid ++ back) where
  start := ⟨front, mid ++ back, List.append_assoc _ _ _, rfl⟩
  stop := ⟨front ++ mid, back, rfl, (Token.sizeOf_append _ _).symm⟩
  empty := fun h0 => by
    have hmid : mid = [] := by
      by_contra hne
      exact (Cursor.sizeOf_pos hlex.left.right hne).ne' h0
    rw [hmid, hend hmid, List.append_nil, List.append_nil]

lemma extendTo (h : s.OnTokens ts) (ho : Token.Boundary ts o) : (s.extendTo o).OnTokens ts := by
  have hle : s.start ≤ max o s.stop := (Nat.le_add_right _ _).trans (le_max_right _ _)
  have hstop : (s.extendTo o).stop = max o s.stop := Nat.add_sub_cancel' hle
  refine ⟨h.start, hstop ▸ ho.max h.stop, fun h0 => h.empty ?_⟩
  have h0 : max o s.stop - s.start = 0 := h0
  have hsize : s.stop = s.start + s.size := rfl
  omega

/-- **The bytes to mark** for a range are whole characters. -/
lemma marked (h : s.OnTokens (Token.scan source)) :
    OnCharacters source (Report.markedBytes source.utf8ByteSize s).1
      (Report.markedBytes source.utf8ByteSize s).2 := by
  have hle := h.le
  rw [Token.sizeOf_scan] at hle
  rw [Report.markedBytes]
  split_ifs with hlt
  · exact ⟨hlt.le, hle, h.start.isValid, h.stop.isValid⟩
  · have hstart : s.start = source.utf8ByteSize := by
      rw [← Token.sizeOf_scan]
      exact h.empty (by rw [Span.stop] at hlt; omega)
    have hmin : min (s.start + 1) source.utf8ByteSize = s.start := by omega
    rw [hmin]
    exact ⟨le_rfl, hstart.le, h.start.isValid, h.start.isValid⟩

end Span.OnTokens

/-- The ranges of a diagnostic: its own, and those related to it. -/
def Diagnostic.ranges (d : Diagnostic) : List Span :=
  d.span :: d.related.map Related.span

/-! ### Reports -/

namespace Cursor

variable {c c' : Cursor} {k : Kind} {stop : Nat}

/-- Whether a node of a value has something below it. -/
def Filled (t : Tree) : Prop :=
  t.kind = .value → t.children ≠ []

/-- A cursor in a parse without limits stands behind some of the tokens, and all it has reported is
between boundaries. -/
structure Sited (ts : List Token) (c : Cursor) : Prop where
  exceeded : c.exceeded = none
  limits : c.budget.limits = .unlimited
  place : ∃ front, ts = front ++ c.rest ∧ c.read = front.length ∧ c.offset = Token.sizeOf front
  built : Tree.EveryOf Filled c.built.toList
  reports : ∀ x ∈ c.reports.toList, ∀ s ∈ x.ranges, s.OnTokens ts

namespace Sited

lemma take (h : Sited ts c) (k : Kind) (n : Nat) : Sited ts (c.take k n) where
  exceeded := by
    simp only [Cursor.take, Budget.overcharged, h.exceeded, h.limits]
    rfl
  limits := h.limits
  place := by
    obtain ⟨front, hts, hread, hoffset⟩ := h.place
    refine ⟨front ++ c.rest.take n, ?_, ?_, ?_⟩
    · rw [hts, List.append_assoc, Cursor.take, List.take_append_drop]
    · rw [List.length_append, ← hread, Cursor.take]
    · rw [Token.sizeOf_append, ← hoffset, Cursor.take]
  built := by
    rw [Cursor.take, Array.toList_push]
    exact Tree.everyOf_append h.built ⟨trivial, trivial⟩
  reports := h.reports

lemma closed (h : Sited ts c) (h' : Sited ts c')
    (hv : k = .value → c.exceeded = none → c'.built ≠ #[]) : Sited ts (c'.closed k c.built) where
  exceeded := h'.exceeded
  limits := h'.limits
  place := h'.place
  built := by
    rw [Cursor.closed, Array.toList_push]
    refine Tree.everyOf_append h.built ⟨⟨fun hk hnil => hv hk h.exceeded ?_, h'.built⟩, trivial⟩
    exact Array.toList_eq_nil_iff.mp hnil
  reports := h'.reports

/-- The tokens up to a position from where the cursor stands. -/
lemma spanTo (h : Sited ts c) (hlex : Token.Lexed ts) (hne : c.segment stop = [] → c.rest = []) :
    (c.spanTo stop).OnTokens ts := by
  obtain ⟨front, hts, _, hoffset⟩ := h.place
  have hsplit : ts = front ++ c.segment stop ++ c.rest.drop (stop - c.read) := by
    rw [List.append_assoc, segment, List.take_append_drop, hts]
  rw [Cursor.spanTo, hoffset, hsplit]
  refine Span.OnTokens.of_append (hsplit ▸ hlex) fun hnil => ?_
  rw [hne hnil, List.drop_nil]

/-- The next token, or the end. -/
lemma span (h : Sited ts c) (hlex : Token.Lexed ts) : c.span.OnTokens ts := by
  have hnext : c.span = c.spanTo (c.read + 1) := by
    rw [Cursor.span, Cursor.spanTo, segment, Nat.add_sub_cancel_left]
    cases c.rest <;> simp
  rw [hnext]
  refine h.spanTo hlex fun hnil => ?_
  rwa [segment, Nat.add_sub_cancel_left, List.take_eq_nil_iff, or_iff_right one_ne_zero] at hnil

lemma fileAt (h : Sited ts c) {x : Diagnostic} (o : Nat) (hx : x.span.OnTokens ts)
    (hr : ∀ r ∈ x.related, r.span.OnTokens ts) : Sited ts (c.fileAt o x) := by
  rw [Cursor.fileAt]
  split_ifs
  · exact h
  · refine { h with reports := ?_ }
    rw [Array.toList_push, List.forall_mem_append]
    refine ⟨h.reports, List.forall_mem_singleton.mpr ?_⟩
    exact List.forall_mem_cons.mpr ⟨hx, List.forall_mem_map.mpr hr⟩

end Sited

/-- **Where a cursor stands**, as an invariant of parses. -/
def siting (ts : List Token) (hlex : Token.Lexed ts) : Invariant where
  finish := ts.length
  Holds := Sited ts
  Range := Span.OnTokens ts
  Reportable _ := True
  reportable _ := trivial
  url _ := .inl trivial
  finish_eq h := by
    obtain ⟨front, hts, hread, _⟩ := h.place
    rw [finish, hts, hread, List.length_append]
  broken _ h := { h with }
  patience _ h := { h with }
  take k n h := h.take k n
  opened h := { h with built := trivial }
  closed k h h' hv := h.closed h' hv
  lowered h _ := { h with limits := h.limits }
  raised h := { h with limits := h.limits }
  tooDeep h hdeep := by
    rw [Budget.atDepthLimit, h.limits] at hdeep
    cases hdeep
  span h := h.span hlex
  spanTo h hne := h.spanTo hlex fun hnil => absurd hnil hne
  extendTo h hs := by
    obtain ⟨front, hts, _, hoffset⟩ := h.place
    exact hs.extendTo ⟨front, _, hts, hoffset⟩
  fileAt o h hx hr _ := h.fileAt o hx hr

lemma sited_start (source : String) :
    Sited (Token.scan source) (start .unlimited (Token.scan source)) where
  exceeded := rfl
  limits := rfl
  place := ⟨[], rfl, rfl, rfl⟩
  built := trivial
  reports := fun _ hx => absurd hx List.not_mem_nil

/-- A whole parse reports ranges between boundaries. -/
lemma sited_sections (source : String) :
    Sited (Token.scan source) (start .unlimited (Token.scan source)).sections :=
  Invariant.Holds.sections (V := siting _ (Token.lexed_scan source)) (sited_start source)

end Cursor

/-! ### Trees -/

namespace Tree

/-- A tree covers the bytes of the tokens below it. -/
lemma Over.size_eq {t : Tree} (h : Over ts t.leaves) : t.size = Token.sizeOf ts := by
  rw [Tree.size_eq, h.text_eq, Token.sizeOf_eq]

end Tree

/-- Text with references has leaves wherever there is something. -/
lemma Form.bars_empty_content {e : Bool} : Bars (fun t => t.leaves = []) (content e) := by
  have htext : Bars (fun t => t.leaves = []) text := by
    rintro _ ⟨us, _, _, rfl⟩ t ht
    rw [List.mem_singleton.mp ht]
    exact List.cons_ne_nil _ _
  have hreference : Bars (fun t => t.leaves = []) (reference e) := by
    rintro _ ⟨_, ⟨_, ⟨_, ⟨_, ⟨_, ⟨u, _, rfl⟩, _, _, rfl⟩, _, _, rfl⟩, _, _, rfl⟩, _, _, rfl⟩, rfl⟩ t ht
    rw [List.mem_singleton.mp ht]
    simp [Tree.leaves, Tree.leavesOf]
  exact (htext.add hreference).kstar

namespace Placed

variable {x y : Placed} {k : Kind}

/-- A tree of a parse at its place: below it stand some tokens in a row. -/
structure OnTokens (ts : List Token) (x : Placed) : Prop where
  place : ∃ front mid back, ts = front ++ mid ++ back ∧ Tree.Over mid x.tree.leaves ∧
    x.start = Token.sizeOf front
  filled : x.tree.Every Cursor.Filled
  whole : x.tree.Every fun t => [t] ∈ Form.production true true t.kind

namespace OnTokens

lemma start (h : x.OnTokens ts) : Token.Boundary ts x.start := by
  obtain ⟨front, mid, back, hts, _, hstart⟩ := h.place
  exact ⟨front, mid ++ back, by rw [hts, List.append_assoc], hstart⟩

lemma stop (h : x.OnTokens ts) : Token.Boundary ts x.span.stop := by
  obtain ⟨front, mid, back, hts, hover, hstart⟩ := h.place
  refine ⟨front ++ mid, back, hts, ?_⟩
  rw [Token.sizeOf_append, ← hstart, ← hover.size_eq]
  rfl

lemma of_mem_children (h : x.OnTokens ts) (hy : y ∈ x.children) :
    y.OnTokens ts ∧ x.start ≤ y.start := by
  obtain ⟨o, _ | ⟨k, us⟩⟩ := x
  · cases hy
  obtain ⟨ls, t, rs, hus, rfl⟩ := mem_sequence.mp hy
  obtain rfl : us = ls ++ t :: rs := hus
  have ht : t ∈ ls ++ t :: rs := List.mem_append_right ls List.mem_cons_self
  obtain ⟨front, mid, back, rfl, hover, hstart⟩ := h.place
  rw [Tree.leaves, Tree.leavesOf_append, Tree.leavesOf] at hover
  obtain ⟨before, others, rfl, hbefore, hothers⟩ := hover.split
  obtain ⟨here, after, rfl, hhere, _⟩ := hothers.split
  refine ⟨⟨⟨front ++ before, here, after ++ back, ?_, hhere, ?_⟩, h.filled.children.of_mem ht,
    h.whole.children.of_mem ht⟩, Nat.le_add_right _ _⟩
  · simp only [List.append_assoc]
  · have hsize : Tree.sizeOf ls = Token.sizeOf before := by
      rw [Tree.sizeOf_eq, hbefore.textOf_eq, Token.sizeOf_eq]
    rw [Token.sizeOf_append, ← hstart, ← hsize]

lemma of_child? (h : x.OnTokens ts) (hy : x.child? k = some y) :
    y.OnTokens ts ∧ x.start ≤ y.start ∧ y.tree.isNode ∧ y.tree.kind = k := by
  obtain ⟨hon, hle⟩ := h.of_mem_children (List.mem_of_find?_eq_some hy)
  have hfound := List.find?_some hy
  obtain ⟨hnode, hkind⟩ := Bool.and_eq_true_iff.mp hfound
  exact ⟨hon, hle, hnode, eq_of_beq hkind⟩

/-- **A value** covers something. -/
lemma span_value (h : x.OnTokens ts) (hlex : Token.Lexed ts) (hn : x.tree.isNode)
    (hk : x.tree.kind = .value) : x.span.OnTokens ts := by
  refine ⟨h.start, h.stop, fun h0 => ?_⟩
  have hform := h.whole.of_isNode hn
  have hchildren := h.filled.of_isNode hn hk
  obtain ⟨front, mid, back, rfl, hover, _⟩ := h.place
  have hsize : Token.sizeOf mid = 0 := hover.size_eq.symm.trans h0
  have hmid : mid = [] := by
    by_contra hne
    exact (Cursor.sizeOf_pos hlex.left.right hne).ne' hsize
  rw [hmid] at hover
  rw [hk] at hform
  obtain ⟨w, hw, htree⟩ := hform
  obtain ⟨t, us, rfl⟩ : ∃ t us, w = t :: us := by
    refine List.exists_cons_of_ne_nil fun hnil => hchildren ?_
    rw [List.singleton_inj.mp htree, hnil]
    rfl
  have hempty := hover.eq_nil
  rw [List.singleton_inj.mp htree, Tree.leaves, Tree.leavesOf, List.append_eq_nil_iff] at hempty
  exact absurd hempty.1 (Form.bars_empty_content _ hw t List.mem_cons_self)

end OnTokens

end Placed

/-! ### Names -/

namespace Document

/-- What is known of the ranges of an entry that names a section. -/
structure NameOnTokens (ts : List Token) (e : Entry) : Prop where
  missing : (emptyName e).span.OnTokens ts
  value : ∀ v, e.value = some v → v.span.OnTokens ts

/-- The entry that names a section takes its ranges from nodes. -/
lemma nameOnTokens {x : Placed} {e : Entry} (h : x.OnTokens ts) (hlex : Token.Lexed ts)
    (he : (Section.ofTree x).nameEntry = some e) : NameOnTokens ts e := by
  obtain ⟨hname, front, back, hsplit, -⟩ := Section.nameEntry_eq_some_iff.mp he
  have hmem : e ∈ (Section.ofTree x).metadata := by
    rw [hsplit]
    exact List.mem_append_right front List.mem_cons_self
  obtain ⟨y, hy, rfl⟩ := List.mem_map.mp hmem
  obtain ⟨hon, _⟩ := h.of_mem_children (List.mem_of_mem_filter hy)
  constructor
  · rw [Entry.ofTree, Option.map_map] at hname
    obtain ⟨z, hz, hname⟩ := Option.map_eq_some_iff.mp hname
    obtain ⟨honz, hle, _⟩ := hon.of_child? hz
    have hspan : (emptyName (Entry.ofTree .identifier y)).span
        = ⟨y.start, z.span.stop - y.start⟩ := by
      simp only [emptyName, Entry.ofTree, hz]
      rfl
    have hsize : 0 < z.tree.size := by
      have htext : z.tree.text = "name" := hname
      rw [Tree.size_eq, htext]
      decide
    have hstop : z.span.stop = z.start + z.tree.size := rfl
    rw [hspan]
    refine ⟨hon.start, ?_, fun h0 => ?_⟩
    · have hall : y.start + (z.span.stop - y.start) = z.span.stop := by omega
      rw [Span.stop, hall]
      exact honz.stop
    · have h0 : z.span.stop - y.start = 0 := h0
      omega
  · intro v hv
    obtain ⟨z, hz, rfl⟩ := Option.map_eq_some_iff.mp hv
    obtain ⟨honz, _, hnode, hkind⟩ := hon.of_child? hz
    exact honz.span_value hlex hnode hkind

/-- **Warnings about names** lie between boundaries if the names do. -/
lemma nameWarnings_onTokens {ss : List Section} {seen : List (String × Span)}
    (hseen : ∀ p ∈ seen, p.2.OnTokens ts)
    (hss : ∀ s ∈ ss, ∀ e, s.nameEntry = some e → NameOnTokens ts e) :
    ∀ x ∈ nameWarnings seen ss, ∀ s ∈ x.ranges, s.OnTokens ts := by
  induction ss generalizing seen with
  | nil => exact fun x hx => absurd hx List.not_mem_nil
  | cons s ss ih =>
      obtain ⟨hs, hss⟩ := List.forall_mem_cons.mp hss
      rw [nameWarnings]
      cases hentry : s.nameEntry with
      | none => exact ih hseen hss
      | some e =>
          have he := hs e hentry
          cases hvalue : e.value with
          | none =>
              simp only [hvalue, List.forall_mem_cons]
              exact ⟨List.forall_mem_singleton.mpr he.missing, ih hseen hss⟩
          | some v =>
              have hv := he.value v hvalue
              simp only [hvalue]
              cases hfirst : seen.lookup v.text with
              | none => exact ih (List.forall_mem_cons.mpr ⟨hv, hseen⟩) hss
              | some first =>
                  have hrelated : first.OnTokens ts := hseen _ (Token.mem_of_lookup hfirst)
                  rw [List.forall_mem_cons]
                  exact ⟨List.forall_mem_cons.mpr ⟨hv, List.forall_mem_singleton.mpr hrelated⟩,
                    ih hseen hss⟩

/-! ### Documents -/

/-- Below the root of a document stand all tokens. -/
lemma onTokens_root {p : Parsed} (hp : Parsed.ofSource defaultLimits source = .ok p) :
    (Placed.mk 0 p.tree).OnTokens (Token.scan source) := by
  obtain ⟨q, hq, hcomplete⟩ := ofSource_default source
  obtain rfl : q = p := Except.ok.inj (hq.symm.trans hp)
  obtain ⟨hread, _⟩ := Parsed.ofSource_eq_ok.mp (Parsed.ofSource_unlimited_of_ok hp)
  refine ⟨⟨[], Token.scan source, [], by simp, hcomplete.leaves, rfl⟩, ?_,
    (Form.Whole.every (e := true) (m := true) _ (hcomplete.form true fun _ => rfl)).1⟩
  rw [hread]
  exact ⟨fun hk => (by cases hk), (Cursor.sited_sections source).built⟩

/-- **Renderable diagnostics.** Whatever the source is, every range of every diagnostic goes from
one boundary between tokens to another and is empty at the end of the source only. So the bytes that
are marked for it are whole characters of the source. -/
theorem diagnostics_renderable (source : String) :
    ∃ d, parse defaultLimits source = .ok d ∧ ∀ x ∈ d.diagnostics, ∀ s ∈ x.ranges,
      (s.start ≤ s.stop ∧ s.stop ≤ source.utf8ByteSize) ∧
      (Token.Boundary (Token.scan source) s.start ∧ Token.Boundary (Token.scan source) s.stop) ∧
      (s.start = s.stop → s.start = source.utf8ByteSize) ∧
      OnCharacters source (Report.markedBytes source.utf8ByteSize s).1
        (Report.markedBytes source.utf8ByteSize s).2 := by
  obtain ⟨p, hp, _⟩ := ofSource_default source
  obtain ⟨hread, _⟩ := Parsed.ofSource_eq_ok.mp (Parsed.ofSource_unlimited_of_ok hp)
  have hroot := onTokens_root hp
  have hnames : ∀ s ∈ sectionsOf p.tree, ∀ e, s.nameEntry = some e →
      NameOnTokens (Token.scan source) e := by
    intro s hs e he
    obtain ⟨x, hx, rfl⟩ := List.mem_map.mp hs
    obtain ⟨hon, _⟩ := hroot.of_mem_children (List.mem_of_mem_filter hx)
    exact nameOnTokens hon (Token.lexed_scan source) he
  -- reports are made on tokens, and so are the names that warnings are about
  have hranges : ∀ x ∈ p.reports ++ nameWarnings [] (sectionsOf p.tree), ∀ s ∈ x.ranges,
      s.OnTokens (Token.scan source) := by
    rw [List.forall_mem_append]
    refine ⟨?_, nameWarnings_onTokens (fun _ h => absurd h List.not_mem_nil) hnames⟩
    rw [hread]
    exact (Cursor.sited_sections source).reports
  refine ⟨_, by rw [parse, hp], fun x hx s hs => ?_⟩
  have hon := hranges x hx s hs
  have hsize : s.stop = s.start + s.size := rfl
  refine ⟨⟨Nat.le_add_right _ _, ?_⟩, ⟨hon.start, hon.stop⟩, fun hempty => ?_, hon.marked⟩
  · rw [← Token.sizeOf_scan]
    exact hon.le
  · rw [← Token.sizeOf_scan]
    exact hon.empty (by omega)

end Document

end RequestFile
