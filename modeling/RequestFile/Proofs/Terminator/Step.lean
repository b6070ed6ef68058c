import RequestFile.Parse
import RequestFile.Proofs.Terminator.Lookahead

/-!
A parse side by side with that of the recoded source.

`Recast e source c d` says that `d` stands in the recoded source where `c` stands in `source`.

* **Looking.** The tokens ahead differ in the texts of terminators only, so both decide in the same
  way, and positions, which count tokens, are the same.
* **Ranges.** Every offset of `d` is that of `c` moved (`Recast.offset_take`), so ranges lie where
  the ends of the others have moved to (`Recast.span_eq`, `Recast.spanTo_eq`).
* **Taking and building.** They build the same trees with recoded leaves (`Recast.bump`,
  `Recast.node`).
* **Reporting.** Offsets that differ stay apart, so a report that repeats the one before it does so
  on both sides (`Recast.fileAt`).
* **Loops.** Both take the same turns (`Recast.loop`).
-/

namespace RequestFile

/-! ### Ranges, reports and trees -/

/-- The range after its ends have been moved. -/
def Span.move (f : Nat → Nat) (s : Span) : Span :=
  ⟨f s.start, f s.stop - f s.start⟩

lemma Span.stop_move {f : Nat → Nat} (hf : StrictMono f) (s : Span) :
    (s.move f).stop = f s.stop := by
  have hle : f s.start ≤ f s.stop := hf.monotone (Nat.le_add_right _ _)
  exact Nat.add_sub_cancel' hle

/-- The diagnostic after the ends of its ranges have been moved. -/
def Diagnostic.move (f : Nat → Nat) (d : Diagnostic) : Diagnostic :=
  { d with
    span := d.span.move f
    related := d.related.map fun r => ⟨r.message, r.span.move f⟩ }

namespace Tree

mutual

/-- The tree with the texts of its leaves replaced. -/
def mapLeaves (f : Kind → String → String) : Tree → Tree
  | leaf k s => leaf k (f k s)
  | node k ts => node k (mapLeavesOf f ts)

/-- The trees with the texts of their leaves replaced. -/
def mapLeavesOf (f : Kind → String → String) : List Tree → List Tree
  | [] => []
  | t :: ts => mapLeaves f t :: mapLeavesOf f ts

end

lemma mapLeavesOf_eq (f : Kind → String → String) (ts : List Tree) :
    mapLeavesOf f ts = ts.map (mapLeaves f) := by
  induction ts with
  | nil => rfl
  | cons t ts ih => rw [mapLeavesOf, ih, List.map_cons]

end Tree

/-- The tree of a recoded text. -/
def Terminator.tree (e : Terminator) : Tree → Tree :=
  Tree.mapLeaves fun _ s => e.recode s

lemma Terminator.tree_node (e : Terminator) (k : Kind) (ts : List Tree) :
    e.tree (.node k ts) = .node k (ts.map e.tree) := by
  rw [tree, Tree.mapLeaves, Tree.mapLeavesOf_eq]

lemma Terminator.textOf_map (e : Terminator) {ts : List Token}
    (h : ∀ t ∈ ts, (e.token t).text = e.recode t.text) :
    Token.textOf (ts.map e.token) = e.recode (Token.textOf ts) := by
  induction ts with
  | nil => rfl
  | cons t ts ih =>
      obtain ⟨ht, hts⟩ := List.forall_mem_cons.mp h
      rw [List.map_cons, Token.textOf_cons, ht, ih hts, Token.textOf_cons, e.recode_append]

namespace Cursor

open Lookahead

/-- Two cursors that stand at the same place of a source and of its recoded text. -/
structure Recast (e : Terminator) (source : String) (c d : Cursor) : Prop where
  rest : d.rest = c.rest.map e.token
  plain : ∀ t ∈ c.rest, (e.token t).text = e.recode t.text
  read : d.read = c.read
  /-- What has been read of the source, and how long it is on both sides. -/
  before : ∃ a, source = a ++ Token.textOf c.rest ∧ c.offset = a.utf8ByteSize ∧
    d.offset = (e.recode a).utf8ByteSize
  lineStart : d.lineStart = c.lineStart
  built : d.built.toList = c.built.toList.map e.tree
  reports : d.reports.toList = c.reports.toList.map (Diagnostic.move (e.offset source))
  lastReport : d.lastReport = c.lastReport.map (e.offset source)
  budget : d.budget = c.budget
  exceeded : d.exceeded = c.exceeded
  patience : d.patience = c.patience
  fault : d.fault = c.fault

variable {e : Terminator} {source : String} {c d : Cursor} {k : Kind} {stop stop' : Nat}

namespace Recast

/-! ### Looking -/

lemma atEnd_eq (h : Recast e source c d) : d.atEnd = c.atEnd := by
  rw [atEnd, h.rest, atEnd]
  cases c.rest <;> rfl

lemma stopped_eq (h : Recast e source c d) : d.stopped = c.stopped := by
  rw [stopped, h.atEnd_eq, h.exceeded, stopped]

lemma sees_eq (h : Recast e source c d) (k : Kind) : d.sees k = c.sees k := by
  rw [sees, h.rest, e.startsWith_map, sees]

lemma seesIn_eq (h : Recast e source c d) (set : KindSet) : d.seesIn set = c.seesIn set := by
  rw [seesIn, h.rest, e.startsIn_map, seesIn]

/-- Only the text of a terminator may differ. -/
lemma headText_eq (h : Recast e source c d) (hs : c.sees k) (hk : k ≠ .newline) :
    headText d.rest = headText c.rest := by
  rw [h.rest, e.headText_map hs hk]

lemma atSeparator_eq (h : Recast e source c d) : d.atSeparator = c.atSeparator := by
  rw [atSeparator, h.rest, e.isSeparatorLine_map, atSeparator]

lemma atBlankLine_eq (h : Recast e source c d) : d.atBlankLine = c.atBlankLine := by
  rw [atBlankLine, h.rest, e.isBlankLine_map, atBlankLine]

lemma lineEnd_eq (h : Recast e source c d) : d.lineEnd = c.lineEnd := by
  rw [lineEnd, h.rest, e.same_line lineLocal_lineLength, h.read, lineEnd]

lemma drop_eq (h : Recast e source c d) (n : Nat) :
    d.rest.drop n = (c.rest.drop n).map e.token := by
  rw [h.rest, List.map_drop]

lemma segment_eq (h : Recast e source c d) (stop : Nat) :
    d.segment stop = (c.segment stop).map e.token := by
  rw [segment, h.rest, h.read, segment, List.map_take]

lemma trimmedEnd_eq (h : Recast e source c d) (hs : stop' = stop) :
    d.trimmedEnd stop' = c.trimmedEnd stop := by
  rw [trimmedEnd, h.segment_eq, e.trimmedLength_map, h.read, hs, trimmedEnd]

lemma before_eq (h : Recast e source c d) (set : KindSet) (hs : stop' = stop) :
    d.before set stop' = c.before set stop := by
  rw [Cursor.before, h.segment_eq, e.lengthBefore_map, h.read, hs, Cursor.before]

lemma outsideVariables_eq (h : Recast e source c d) (set : KindSet) (hs : stop' = stop) :
    d.outsideVariables set stop' = c.outsideVariables set stop := by
  rw [outsideVariables, h.segment_eq, e.lengthOutsideVariables_map, h.read, hs, outsideVariables]

/-! ### Ranges -/

/-- Offsets behind the next tokens have moved. -/
lemma offset_take (h : Recast e source c d) (n : Nat) :
    d.offset + Token.sizeOf (d.rest.take n)
      = e.offset source (c.offset + Token.sizeOf (c.rest.take n)) := by
  obtain ⟨a, hsource, hc, hd⟩ := h.before
  have hplain : ∀ t ∈ c.rest.take n, (e.token t).text = e.recode t.text := fun t ht =>
    h.plain t (List.mem_of_mem_take ht)
  have hsplit : source = (a ++ Token.textOf (c.rest.take n)) ++ Token.textOf (c.rest.drop n) := by
    rw [String.append_assoc, ← Token.textOf_append, List.take_append_drop, hsource]
  calc d.offset + Token.sizeOf (d.rest.take n)
      = (e.recode (a ++ Token.textOf (c.rest.take n))).utf8ByteSize := by
        rw [hd, h.rest, ← List.map_take, Token.sizeOf_eq, e.textOf_map hplain, e.recode_append,
          String.utf8ByteSize_append]
    _ = e.offset source (a ++ Token.textOf (c.rest.take n)).utf8ByteSize := by
        rw [hsplit, e.offset_append]
    _ = e.offset source (c.offset + Token.sizeOf (c.rest.take n)) := by
        rw [String.utf8ByteSize_append, ← Token.sizeOf_eq, hc]

lemma offset_eq (h : Recast e source c d) : d.offset = e.offset source c.offset := by
  simpa using h.offset_take 0

lemma spanTo_eq (h : Recast e source c d) (hs : stop' = stop) :
    d.spanTo stop' = (c.spanTo stop).move (e.offset source) := by
  have hend := h.offset_take (stop - c.read)
  rw [spanTo, spanTo, Span.move, Span.stop, segment, segment, h.read, hs, Span.mk.injEq,
    ← h.offset_eq, ← hend]
  omega

lemma span_eq (h : Recast e source c d) : d.span = c.span.move (e.offset source) := by
  have hend := h.offset_take 1
  have hfirst : ∀ ts : List Token,
      (ts.head?.map Token.size).getD 0 = Token.sizeOf (ts.take 1) := fun ts => by
    cases ts <;> simp
  rw [span, span, Span.move, Span.stop, hfirst, hfirst, Span.mk.injEq, ← h.offset_eq, ← hend]
  omega

lemma extendTo_eq {opener opener' : Span} (h : Recast e source c d)
    (ho : opener' = opener.move (e.offset source)) :
    opener'.extendTo d.offset = (opener.extendTo c.offset).move (e.offset source) := by
  have hmono := e.offset_strictMono source
  have hstop : (opener.extendTo c.offset).stop = max c.offset opener.stop :=
    Nat.add_sub_cancel' ((Nat.le_add_right _ _).trans (le_max_right _ _))
  rw [ho, Span.extendTo, Span.stop_move hmono, h.offset_eq, ← hmono.monotone.map_max, ← hstop]
  rfl

/-! ### Questions -/

lemma broken (h : Recast e source c d) (f : Fault) : Recast e source (c.broken f) (d.broken f) :=
  { h with fault := by rw [Cursor.broken, Cursor.broken, h.fault] }

lemma look (h : Recast e source c d) : Recast e source c.look d.look := by
  rw [Cursor.look, Cursor.look, h.patience]
  split_ifs
  · exact h.broken _
  · exact { h with patience := rfl }

/-- Both decide in the same way by the token ahead. -/
lemma on {yes no yes' no' : Cursor → Cursor} (h : Recast e source c d)
    (hyes : Recast e source c.look d.look → Recast e source (yes c.look) (yes' d.look))
    (hno : Recast e source c.look d.look → Recast e source (no c.look) (no' d.look)) :
    Recast e source (c.on k yes no) (d.on k yes' no') := by
  simp only [Cursor.on, h.look.sees_eq]
  split_ifs
  · exact hyes h.look
  · exact hno h.look

lemma demand (h : Recast e source c d) (k : Kind) :
    Recast e source (c.demand k) (d.demand k) :=
  h.on (fun h => h) fun h => h.broken _

/-! ### Taking tokens -/

/-- Both take the same tokens. -/
lemma take (h : Recast e source c d) (k : Kind) (n : Nat) :
    Recast e source (c.take k n) (d.take k n) := by
  have htake : d.rest.take n = (c.rest.take n).map e.token := by rw [h.rest, List.map_take]
  have hplain : ∀ t ∈ c.rest.take n, (e.token t).text = e.recode t.text := fun t ht =>
    h.plain t (List.mem_of_mem_take ht)
  refine ⟨h.drop_eq n, fun t ht => h.plain t (List.mem_of_mem_drop ht), ?_, ?_, ?_, ?_, h.reports,
    h.lastReport, ?_, ?_, rfl, h.fault⟩
  · simp only [Cursor.take, htake, List.length_map, h.read]
  · obtain ⟨a, hsource, hc, hd⟩ := h.before
    refine ⟨a ++ Token.textOf (c.rest.take n), ?_, ?_, ?_⟩
    · rw [Cursor.take, String.append_assoc, ← Token.textOf_append, List.take_append_drop, hsource]
    · rw [Cursor.take, String.utf8ByteSize_append, hc, Token.sizeOf_eq]
    · rw [Cursor.take, e.recode_append, String.utf8ByteSize_append, hd, htake, Token.sizeOf_eq,
        e.textOf_map hplain]
  · simp only [Cursor.take, htake, h.lineStart, List.getLast?_map, Option.map_map,
      Function.comp_def, e.token_kind]
  · simp only [Cursor.take, htake, Array.toList_push, h.built, e.textOf_map hplain, List.map_append]
    rfl
  · simp only [Cursor.take, htake, List.length_map, h.budget]
  · simp only [Cursor.take, htake, List.length_map, h.budget, h.exceeded]

lemma bump (h : Recast e source c d) : Recast e source c.bump d.bump := by
  have hrest := h.rest
  rw [Cursor.bump, Cursor.bump]
  cases hr : c.rest with
  | nil =>
      rw [hr, List.map_nil] at hrest
      rw [hrest]
      exact h.broken _
  | cons t ts =>
      rw [hr, List.map_cons] at hrest
      rw [hrest]
      dsimp only
      rw [e.token_kind]
      exact h.take _ 1

lemma textUntil (h : Recast e source c d) (hs : stop' = stop) :
    Recast e source (c.textUntil stop) (d.textUntil stop') := by
  subst hs
  rw [Cursor.textUntil, Cursor.textUntil, h.segment_eq, List.isEmpty_map, h.read]
  split_ifs
  · exact h
  · exact h.take _ _

lemma eat (h : Recast e source c d) (k : Kind) : Recast e source (c.eat k) (d.eat k) := by
  rw [Cursor.eat, Cursor.eat, h.atEnd_eq]
  split_ifs
  · exact h
  · exact h.on bump fun h => h

lemma eatBlank (h : Recast e source c d) : Recast e source c.eatBlank d.eatBlank :=
  h.eat _

lemma eatNewline (h : Recast e source c d) : Recast e source c.eatNewline d.eatNewline :=
  h.eat _

lemma eatBlankLine (h : Recast e source c d) : Recast e source c.eatBlankLine d.eatBlankLine :=
  h.eatBlank.eatNewline

/-! ### Grouping -/

lemma opened (h : Recast e source c d) : Recast e source c.opened d.opened :=
  { h with built := rfl }

/-- What both have built below a node goes after what stood in front of it. -/
lemma closed {K : Kind} {c' d' : Cursor} (h : Recast e source c d) (h' : Recast e source c' d') :
    Recast e source (c'.closed K c.built) (d'.closed K d.built) := by
  refine { h' with built := ?_ }
  simp only [Cursor.closed, Array.toList_push, h.built, h'.built, List.map_append, List.map_cons,
    List.map_nil, e.tree_node]

lemma node {K : Kind} {body body' : Cursor → Cursor} (h : Recast e source c d)
    (hb : Recast e source c.opened d.opened → Recast e source (body c.opened) (body' d.opened)) :
    Recast e source (c.node K body) (d.node K body') :=
  h.closed (hb h.opened)

lemma leaf {K : Kind} (h : Recast e source c d) (hs : stop' = stop) :
    Recast e source (c.leaf K stop) (d.leaf K stop') :=
  h.node fun h => h.textUntil hs

lemma operator (h : Recast e source c d) : Recast e source c.operator d.operator :=
  h.node bump

lemma errorUntil (h : Recast e source c d) (hs : stop' = stop) :
    Recast e source (c.errorUntil stop) (d.errorUntil stop') := by
  rw [Cursor.errorUntil, Cursor.errorUntil, h.read, hs]
  split_ifs
  · exact h
  · exact h.leaf rfl

lemma nested {body body' : Cursor → Cursor} (h : Recast e source c d)
    (hb : ∀ {c d}, Recast e source c d → Recast e source (body c) (body' d)) :
    Recast e source (c.nested body) (d.nested body') := by
  have hlimit : d.budget.atDepthLimit = c.budget.atDepthLimit := by rw [h.budget]
  rw [Cursor.nested, Cursor.nested, hlimit]
  split_ifs
  · exact { h with exceeded := congrArg (· <|> some .depth) h.exceeded, patience := rfl }
  · have hinner : Recast e source { c with budget := c.budget.descend, patience := fullPatience }
        { d with budget := d.budget.descend, patience := fullPatience } :=
      { h with budget := congrArg Budget.descend h.budget, patience := rfl }
    have h' := hb hinner
    exact { h' with budget := congrArg Budget.ascend h'.budget, patience := rfl }

/-! ### Reporting -/

/-- A report that repeats the one before it does so on both sides. -/
lemma fileAt {o o' : Nat} (h : Recast e source c d) (ho : o' = e.offset source o) (x : Diagnostic) :
    Recast e source (c.fileAt o x) (d.fileAt o' (x.move (e.offset source))) := by
  have hsame : d.lastReport = some o' ↔ c.lastReport = some o := by
    rw [h.lastReport, ho, Option.map_eq_some_iff]
    simp [(e.offset_strictMono source).injective.eq_iff]
  simp only [Cursor.fileAt, hsame]
  split_ifs
  · exact h
  · refine { h with reports := ?_, lastReport := congrArg some ho }
    simp only [Array.toList_push, h.reports, List.map_append, List.map_cons, List.map_nil]

lemma file {x x' : Diagnostic} (h : Recast e source c d) (hx : x' = x.move (e.offset source)) :
    Recast e source (c.file x) (d.file x') := by
  subst hx
  exact h.fileAt rfl x

lemma report {span span' : Span} (h : Recast e source c d) (p : Problem)
    (hs : span' = span.move (e.offset source)) (s : String) :
    Recast e source (c.report p span s) (d.report p span' s) :=
  h.file (by rw [hs]; rfl)

lemma reportHere (h : Recast e source c d) (p : Problem) (s : String) :
    Recast e source (c.reportHere p s) (d.reportHere p s) :=
  h.report p h.span_eq s

lemma reportUnclosed {opener opener' : Span} (h : Recast e source c d) (p : Problem)
    (detail label : String) (ho : opener' = opener.move (e.offset source)) :
    Recast e source (c.reportUnclosed p detail label opener)
      (d.reportUnclosed p detail label opener') := by
  rw [Cursor.reportUnclosed, Cursor.reportUnclosed, h.extendTo_eq ho, ho]
  exact h.fileAt h.offset_eq _

lemma rejectLine (h : Recast e source c d) (p : Problem) (s : String) :
    Recast e source (c.rejectLine p s) (d.rejectLine p s) := by
  have hspan : (if d.read < d.lineEnd then d.spanTo d.lineEnd else d.span)
      = (if c.read < c.lineEnd then c.spanTo c.lineEnd else c.span).move (e.offset source) := by
    rw [h.lineEnd_eq, h.read, h.spanTo_eq rfl, h.span_eq]
    split_ifs <;> rfl
  exact (h.report p hspan s).errorUntil h.lineEnd_eq

lemma finishLine (h : Recast e source c d) (s : String) :
    Recast e source (c.finishLine s) (d.finishLine s) := by
  rw [Cursor.finishLine, Cursor.finishLine, h.atEnd_eq]
  split_ifs
  · exact h
  · exact h.on (fun h => h) fun h => h.rejectLine _ s

end Recast

/-! ### Loops -/

/-- Turns that end in the same way, at cursors that stand at the same place. -/
def Turn.Recast (e : Terminator) (source : String) : Turn → Turn → Prop
  | .again c, .again d => Cursor.Recast e source c d
  | .done c, .done d => Cursor.Recast e source c d
  | _, _ => False

namespace Recast

variable {turn turn' : Cursor → Turn} {more more' : Cursor → Bool} {body body' : Cursor → Cursor}

lemma iterate (hturn : ∀ {c d}, Recast e source c d → Turn.Recast e source (turn c) (turn' d))
    (h : Recast e source c d) (n : Nat) :
    Recast e source (Cursor.iterate turn n c) (Cursor.iterate turn' n d) := by
  induction n generalizing c d with
  | zero => exact h.broken _
  | succ n ih =>
      have ht := hturn h
      rw [Cursor.iterate, Cursor.iterate]
      cases hc : turn c with
      | done c' =>
          rw [hc] at ht
          cases hd : turn' d with
          | done d' => rwa [hd] at ht
          | again d' => rw [hd] at ht; exact ht.elim
      | again c' =>
          rw [hc] at ht
          cases hd : turn' d with
          | done d' => rw [hd] at ht; exact ht.elim
          | again d' => rw [hd] at ht; exact ih ht

/-- **Loops** of turns that stay side by side. -/
lemma loop (h : Recast e source c d)
    (hturn : ∀ {c d}, Recast e source c d → Turn.Recast e source (turn c) (turn' d)) :
    Recast e source (c.loop turn) (d.loop turn') := by
  rw [Cursor.loop, Cursor.loop, h.rest, List.length_map]
  exact h.iterate hturn _

lemma loopWhile (h : Recast e source c d)
    (hmore : ∀ {c d}, Recast e source c d → more' d = more c)
    (hbody : ∀ {c d}, Recast e source c d → Recast e source (body c) (body' d)) :
    Recast e source (c.loopWhile more body) (d.loopWhile more' body') := by
  refine h.loop fun {c d} h => ?_
  rw [hmore h]
  split_ifs
  · exact hbody h
  · exact h

/-- **Loops** up to a position. -/
lemma loopUntil (h : Recast e source c d) (stop : Nat)
    (hbody : ∀ {c d}, Recast e source c d → Recast e source (body c) (body' d)) :
    Recast e source (c.loopWhile (fun c => c.read < stop && !c.stopped) body)
      (d.loopWhile (fun c => c.read < stop && !c.stopped) body') :=
  h.loopWhile (fun h => by rw [h.read, h.stopped_eq]) hbody

lemma eatNewlines (h : Recast e source c d) : Recast e source c.eatNewlines d.eatNewlines := by
  refine h.loop fun {c d} h => ?_
  simp only [h.atEnd_eq, h.look.sees_eq]
  split_ifs
  · exact h
  · exact h.look.bump
  · exact h.look

end Recast

end Cursor

end RequestFile
