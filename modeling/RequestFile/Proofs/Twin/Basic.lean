import RequestFile.Proofs.Horizon
import RequestFile.Proofs.Step

/-!
Two parses side by side.

`Twin F pre c d` says that `d` stands where `c` stands, but in a longer source: more has been read
in front of it, and more may follow behind the end. What may follow is a separator, and then every
line ahead of `c` has its terminator.

* **Looking.** Both see the same line, and none of the tokens that are asked for at the end is a
  separator (`Near.same`, `Near.sees_eq`), so they decide in the same way.
* **Taking and building.** They take the same tokens and build the same trees, `d` after those in
  `pre` (`Twin.bump`, `Twin.textUntil`, `Twin.node`).
* **Reporting.** They report the same problems, at ranges that lie apart by the bytes in front
  (`Twin.fileAt`). For this they have to agree on whether the report before was made where they
  stand; two cursors that are otherwise alike (`Near`) agree once both have taken a token.
* **Loops.** Turns that keep the relation make loops that keep it (`Twin.loop`).
-/

namespace RequestFile

open scoped Computability

/-- The diagnostic after `n` bytes have been put in front of its source. -/
def Diagnostic.shift (n : Nat) (d : Diagnostic) : Diagnostic :=
  { d with
    span := d.span.shift n
    related := d.related.map fun r => ⟨r.message, r.span.shift n⟩ }

namespace Cursor

open Lookahead

/-- What surrounds the shorter of two sources in the longer one. -/
structure Frame where
  /-- The tokens behind its end. -/
  tail : List Token
  /-- The number of tokens in front. -/
  read : Nat
  /-- The number of bytes in front. -/
  offset : Nat
  /-- What was reported in front. -/
  reports : List Diagnostic

/-- Every line ahead has its terminator, and at the end a line begins. -/
def Ending (c : Cursor) : Prop :=
  Terminated c.rest ∧ (c.rest = [] → c.lineStart = true)

/-- Two cursors that stand at the same place, apart from the report before. -/
structure Near (F : Frame) (pre : List Tree) (c d : Cursor) : Prop where
  here : c.Sound
  there : d.Sound
  rest : d.rest = c.rest ++ F.tail
  read : d.read = c.read + F.read
  offset : d.offset = c.offset + F.offset
  lineStart : d.lineStart = c.lineStart
  built : d.built.toList = pre ++ c.built.toList
  reports : d.reports.toList = F.reports ++ c.reports.toList.map (Diagnostic.shift F.offset)
  opens : Opens F.tail
  ending : F.tail = [] ∨ c.Ending

/-- Two cursors that stand at the same place. -/
structure Twin (F : Frame) (pre : List Tree) (c d : Cursor) : Prop extends Near F pre c d where
  last : d.lastReport = some d.offset ↔ c.lastReport = some c.offset

/-- What follows behind the end is not on the line ahead. -/
def Inside (F : Frame) (c : Cursor) : Prop :=
  F.tail = [] ∨ HasLineEnd c.rest

variable {F : Frame} {pre : List Tree} {e : Bool} {m : Nat} {k : Kind} {stop : Nat}
  {L M : TreeLanguage} {c d c' d' : Cursor}

/-! ### Looking -/

lemma Inside.look (hi : Inside F c) : Inside F c.look := by
  rwa [Inside, look_rest]

lemma Run.inside (h : Run e m L c c') (hle : c'.read ≤ c.lineEnd) (hi : Inside F c) :
    Inside F c' := by
  refine hi.imp_right fun hline => ?_
  rw [h.rest_eq]
  refine hline.drop ?_
  rw [lineEnd] at hle
  omega

lemma Inside.bump (hi : Inside F c) (hc : c.Live) (hs : c.sees k) (hk : k ≠ .newline) :
    Inside F c.bump :=
  (run_bump (e := true) hc hs).1.inside (bump_le_lineEnd hs hk) hi

lemma Inside.eat (hi : Inside F c) (hc : c.Live) (hk : k ≠ .newline) : Inside F (c.eat k) :=
  (run_eat (e := true) hc k).1.inside (eat_le_lineEnd hc hk) hi

lemma Inside.eatBlank (hi : Inside F c) (hc : c.Live) : Inside F c.eatBlank :=
  hi.eat hc (by decide)

namespace Near

lemma inside (h : Near F pre c d) (hne : c.rest ≠ []) : Inside F c :=
  h.ending.imp_right fun he => he.1.hasLineEnd hne

lemma inside_of_sees (h : Near F pre c d) (hs : c.sees k) : Inside F c := by
  obtain ⟨t, us, hr, _⟩ := exists_of_sees hs
  exact h.inside (by rw [hr]; exact List.cons_ne_nil t us)

/-- In the middle of a line something is left of it. -/
lemma inside_of_midline (h : Near F pre c d) (hl : c.lineStart = false) : Inside F c := by
  refine h.ending.imp_right fun he => he.1.hasLineEnd fun hr => ?_
  rw [he.2 hr] at hl
  exact absurd hl (by decide)

/-- What is found on the line ahead is found by both. -/
lemma same {α : Type} (h : Near F pre c d) (hi : Inside F c) {f : List Token → α}
    (hf : ∀ {ts w : List Token}, HasLineEnd ts → f (ts ++ w) = f ts) : f d.rest = f c.rest := by
  rw [h.rest]
  rcases hi with hnil | hline
  · rw [hnil, List.append_nil]
  · exact hf hline

/-- What is told by the line is told to both. -/
lemma same_line {α : Type} (h : Near F pre c d) (hi : Inside F c) {f : List Token → α}
    (hf : LineLocal f) : f d.rest = f c.rest :=
  h.same hi hf.append

/-- What is found in whole lines is found by both. -/
lemma same_lines {α : Type} (h : Near F pre c d) (hne : c.rest ≠ []) {f : List Token → α}
    (hf : ∀ {ts w : List Token}, Opens w → Terminated ts → ts ≠ [] → f (ts ++ w) = f ts) :
    f d.rest = f c.rest := by
  rw [h.rest]
  rcases h.ending with hnil | he
  · rw [hnil, List.append_nil]
  · exact hf h.opens he.1 hne

/-- What is found behind some of the tokens ahead is found by both, even at the end. -/
lemma same_drop {α : Type} (h : Near F pre c d) {n : Nat} (hn : n ≤ c.rest.length)
    {f : List Token → α} (hf : ∀ {ts w : List Token}, Opens w → Terminated ts → f (ts ++ w) = f ts) :
    f (d.rest.drop n) = f (c.rest.drop n) := by
  rw [h.rest, List.drop_append_of_le_length hn]
  rcases h.ending with hnil | he
  · rw [hnil, List.append_nil]
  · refine hf h.opens fun t ht => ?_
    rw [Option.mem_def, List.getLast?_drop] at ht
    split_ifs at ht
    exact he.1 t ht

lemma sees_eq (h : Near F pre c d) (hk : k ≠ .separatorMarker) : d.sees k = c.sees k := by
  rw [sees, h.rest, startsWith_append h.opens hk, sees]

lemma seesIn_eq (h : Near F pre c d) (hi : Inside F c) (set : KindSet) :
    d.seesIn set = c.seesIn set := by
  refine h.same hi (f := startsIn set) fun {ts w} hline => ?_
  cases ts with
  | nil => exact absurd hline not_hasLineEnd_nil
  | cons t ts => rfl

/-- What comes after some of the tokens ahead begins in the same way. -/
lemma startsWith_drop_eq (h : Near F pre c d) (hk : k ≠ .separatorMarker) {n : Nat}
    (hn : n ≤ c.rest.length) : startsWith k (d.rest.drop n) = startsWith k (c.rest.drop n) := by
  rw [h.rest, List.drop_append_of_le_length hn, startsWith_append h.opens hk]

lemma atEnd_eq (h : Near F pre c d) (hi : Inside F c) : d.atEnd = c.atEnd := by
  refine h.same hi (f := List.isEmpty) fun {ts w} hline => ?_
  cases ts with
  | nil => exact absurd hline not_hasLineEnd_nil
  | cons t ts => rfl

lemma stopped_eq (h : Near F pre c d) : c.stopped = c.atEnd ∧ d.stopped = d.atEnd := by
  constructor
  · rw [stopped, h.here.exceeded, Option.isSome_none, Bool.or_false]
  · rw [stopped, h.there.exceeded, Option.isSome_none, Bool.or_false]

/-- A separator stops what the end stops. -/
lemma stopped_or_atSeparator (h : Near F pre c d) :
    (d.stopped || d.atSeparator) = (c.stopped || c.atSeparator) := by
  obtain ⟨hc, hd⟩ := h.stopped_eq
  rw [hc, hd, atEnd, atEnd, atSeparator, atSeparator, h.rest]
  cases hr : c.rest with
  | cons t ts => rfl
  | nil =>
      rcases h.opens with hnil | hsep
      · rw [hnil]
        rfl
      · rw [List.nil_append, isSeparatorLine, hsep]
        simp

lemma not_stopped_and_not_atSeparator (h : Near F pre c d) :
    (!d.stopped && !d.atSeparator) = (!c.stopped && !c.atSeparator) := by
  rw [← Bool.not_or, h.stopped_or_atSeparator, Bool.not_or]

/-- The lines of a head go on to a blank line. -/
lemma not_atBlankLine (h : Near F pre c d) :
    (!d.stopped && !d.atSeparator && !d.atBlankLine)
      = (!c.stopped && !c.atSeparator && !c.atBlankLine) := by
  rw [h.not_stopped_and_not_atSeparator]
  cases hr : c.rest with
  | nil => simp [h.stopped_eq.1, atEnd, hr]
  | cons t us =>
      have hi : Inside F c := h.inside (by rw [hr]; exact List.cons_ne_nil t us)
      have hblank : d.atBlankLine = c.atBlankLine := h.same_line hi lineLocal_isBlankLine
      rw [hblank]

/-- The same in the middle of a script, which looks for a separator only where a line begins. -/
lemma stopped_or_lineStart_atSeparator (h : Near F pre c d) :
    (d.stopped || (d.lineStart && d.atSeparator)) = (c.stopped || (c.lineStart && c.atSeparator)) := by
  obtain ⟨hc, hd⟩ := h.stopped_eq
  have hboth := h.stopped_or_atSeparator
  rw [hc, hd] at hboth ⊢
  rw [h.lineStart]
  cases hl : c.lineStart with
  | true => simpa using hboth
  | false => simpa using h.atEnd_eq (h.inside_of_midline hl)

lemma lineEnd_eq (h : Near F pre c d) (hi : Inside F c) : d.lineEnd = c.lineEnd + F.read := by
  rw [lineEnd, h.same_line hi lineLocal_lineLength, h.read, lineEnd]
  omega

lemma finish_le (h : Near F pre c d) (hs : stop ≤ c.finish) :
    stop - c.read ≤ c.rest.length ∧ stop + F.read - d.read = stop - c.read := by
  rw [finish] at hs
  rw [h.read]
  omega

/-- Positions lie apart by the tokens in front. -/
lemma map_read (h : Near F pre c d) (v : Option Nat) :
    v.map (d.read + ·) = (v.map (c.read + ·)).map (· + F.read) := by
  cases v with
  | none => rfl
  | some i =>
      rw [Option.map_some, Option.map_some, Option.map_some, h.read, Nat.add_right_comm]

lemma segment_eq (h : Near F pre c d) (hs : stop ≤ c.finish) :
    d.segment (stop + F.read) = c.segment stop := by
  obtain ⟨hle, heq⟩ := h.finish_le hs
  rw [segment, heq, h.rest, List.take_append_of_le_length hle, segment]

lemma trimmedEnd_eq (h : Near F pre c d) (hs : stop ≤ c.finish) :
    d.trimmedEnd (stop + F.read) = c.trimmedEnd stop + F.read := by
  rw [trimmedEnd, h.segment_eq hs, h.read, trimmedEnd]
  omega

lemma before_eq (h : Near F pre c d) (set : KindSet) (hs : stop ≤ c.finish) :
    d.before set (stop + F.read) = c.before set stop + F.read := by
  rw [before, h.segment_eq hs, h.read, before]
  omega

lemma outsideVariables_eq (h : Near F pre c d) (set : KindSet) (hs : stop ≤ c.finish) :
    d.outsideVariables set (stop + F.read) = c.outsideVariables set stop + F.read := by
  rw [outsideVariables, h.segment_eq hs, h.read, outsideVariables]
  omega

lemma trimmedLineEnd_eq (h : Near F pre c d) (hi : Inside F c) :
    d.trimmedEnd d.lineEnd = c.trimmedEnd c.lineEnd + F.read := by
  rw [h.lineEnd_eq hi, h.trimmedEnd_eq c.lineEnd_le_finish]

lemma span_eq (h : Near F pre c d) (hi : Inside F c) : d.span = c.span.shift F.offset := by
  have hhead : d.rest.head? = c.rest.head? := by
    refine h.same hi fun {ts w} hline => ?_
    cases ts with
    | nil => exact absurd hline not_hasLineEnd_nil
    | cons t ts => rfl
  rw [span, hhead, h.offset, span, Span.shift]

lemma spanTo_eq (h : Near F pre c d) (hs : stop ≤ c.finish) :
    d.spanTo (stop + F.read) = (c.spanTo stop).shift F.offset := by
  rw [spanTo, h.segment_eq hs, h.offset, spanTo, Span.shift]

end Near

/-! ### Taking tokens -/

lemma Ending.take (h : c.Ending) (k : Kind) (n : Nat) : (c.take k n).Ending := by
  obtain ⟨hts, hend⟩ := h
  refine ⟨fun t ht => ?_, fun hnil => ?_⟩
  · rw [Cursor.take, Option.mem_def, List.getLast?_drop] at ht
    split_ifs at ht
    exact hts t ht
  · have hle : c.rest.length ≤ n := by simpa [Cursor.take] using hnil
    simp only [Cursor.take, List.take_of_length_le hle]
    cases hl : c.rest.getLast? with
    | none => exact hend (List.getLast?_eq_none_iff.mp hl)
    | some t => simpa using hts t hl

/-- Both take the same tokens. -/
lemma Near.take (h : Near F pre c d) (k : Kind) {n : Nat} (hn : n ≤ c.rest.length) :
    Near F pre (c.take k n) (d.take k n) := by
  have htake : d.rest.take n = c.rest.take n := by
    rw [h.rest, List.take_append_of_le_length hn]
  refine ⟨h.here.take k n, h.there.take k n, ?_, ?_, ?_, ?_, ?_, h.reports, h.opens,
    h.ending.imp_right fun he => he.take k n⟩
  · simp only [Cursor.take, h.rest, List.drop_append_of_le_length hn]
  · simp only [Cursor.take, htake, h.read]
    omega
  · simp only [Cursor.take, htake, h.offset]
    omega
  · simp only [Cursor.take, htake, h.lineStart]
  · simp only [Cursor.take, htake, Array.toList_push, h.built, List.append_assoc]

/-- A token leaves the report before behind. -/
lemma last_ne_of_take (hc : c.Sound) {n : Nat} (hne : c.rest.take n ≠ []) (k : Kind) :
    (c.take k n).lastReport ≠ some (c.take k n).offset := by
  intro hl
  have hle := hc.reported _ hl
  have hpos := sizeOf_pos (hc.lexed.take n) hne
  simp only [Cursor.take] at hle
  omega

lemma Near.take_twin (h : Near F pre c d) (k : Kind) {n : Nat} (hn : n ≤ c.rest.length)
    (hne : c.rest.take n ≠ []) : Twin F pre (c.take k n) (d.take k n) := by
  have hne' : d.rest.take n ≠ [] := by
    rwa [h.rest, List.take_append_of_le_length hn]
  exact ⟨h.take k hn, iff_of_false (last_ne_of_take h.there hne' k) (last_ne_of_take h.here hne k)⟩

lemma Near.bump (h : Near F pre c d) (hne : c.rest ≠ []) : Twin F pre c.bump d.bump := by
  obtain ⟨t, us, hr⟩ := List.exists_cons_of_ne_nil hne
  have hd : d.bump = d.take t.kind 1 := by rw [Cursor.bump, h.rest, hr, List.cons_append]
  have hc : c.bump = c.take t.kind 1 := by rw [Cursor.bump, hr]
  rw [hd, hc]
  exact h.take_twin _ (by rw [hr, List.length_cons]; omega) (by simp [hr])

namespace Twin

lemma take (h : Twin F pre c d) (k : Kind) {n : Nat} (hn : n ≤ c.rest.length) :
    Twin F pre (c.take k n) (d.take k n) := by
  by_cases hne : c.rest.take n = []
  · refine ⟨h.toNear.take k hn, ?_⟩
    have hne' : d.rest.take n = [] := by
      rwa [h.rest, List.take_append_of_le_length hn]
    simpa only [Cursor.take, hne, hne', Token.sizeOf_nil, Nat.add_zero] using h.last
  · exact h.take_twin k hn hne

lemma textUntil (h : Twin F pre c d) (hs : stop ≤ c.finish) :
    Twin F pre (c.textUntil stop) (d.textUntil (stop + F.read)) := by
  obtain ⟨hle, heq⟩ := h.finish_le hs
  rw [Cursor.textUntil, Cursor.textUntil, h.segment_eq hs, heq]
  split_ifs
  · exact h
  · exact h.take _ hle

end Twin

/-! ### Questions -/

/-- Apart from its depth, its patience and its fault the cursor has not changed. -/
def Alike (c c' : Cursor) : Prop :=
  ∃ i n f, c' = { c with budget := { c.budget with depth := i }, patience := n, fault := f }

lemma alike_refl (c : Cursor) : Alike c c :=
  ⟨_, _, _, rfl⟩

lemma alike_look (c : Cursor) : Alike c c.look := by
  rw [look]
  split_ifs
  · exact ⟨_, _, _, rfl⟩
  · exact ⟨_, _, _, rfl⟩

lemma alike_demand (c : Cursor) (k : Kind) : Alike c (c.demand k) := by
  obtain ⟨i, n, f, hlook⟩ := alike_look c
  simp only [demand, on]
  split_ifs
  · exact ⟨i, n, f, hlook⟩
  · rw [hlook]
    exact ⟨_, _, _, rfl⟩

lemma alike_eat (h : ¬c.sees k) : Alike c (c.eat k) := by
  rw [eat]
  split_ifs
  · exact alike_refl c
  · rw [on_neg h]
    exact alike_look c

lemma Alike.sound (h : Alike c c') (hc : c.Sound) : c'.Sound := by
  obtain ⟨_, _, _, rfl⟩ := h
  exact ⟨hc.exceeded, hc.limits, hc.charged, hc.lexed, hc.reported⟩

lemma Alike.live (h : Alike c c') (hc : c.Live) : c'.Live := by
  have hsound := h.sound hc.toSound
  obtain ⟨_, _, _, rfl⟩ := h
  exact ⟨hsound, hc.backed⟩

/-- Depth, patience and faults are not compared. -/
lemma Near.congr (h : Near F pre c d) (hc : Alike c c') (hd : Alike d d') : Near F pre c' d' := by
  have hhere := hc.sound h.here
  have hthere := hd.sound h.there
  obtain ⟨_, _, _, rfl⟩ := hc
  obtain ⟨_, _, _, rfl⟩ := hd
  exact { h with here := hhere, there := hthere }

namespace Twin

lemma congr (h : Twin F pre c d) (hc : Alike c c') (hd : Alike d d') : Twin F pre c' d' := by
  refine ⟨h.toNear.congr hc hd, ?_⟩
  obtain ⟨_, _, _, rfl⟩ := hc
  obtain ⟨_, _, _, rfl⟩ := hd
  exact h.last

lemma look (h : Twin F pre c d) : Twin F pre c.look d.look :=
  h.congr (alike_look c) (alike_look d)

lemma demand (h : Twin F pre c d) (k : Kind) : Twin F pre (c.demand k) (d.demand k) :=
  h.congr (alike_demand c k) (alike_demand d k)

/-- Both decide in the same way by the token ahead. -/
lemma on {yes no yes' no' : Cursor → Cursor} (h : Twin F pre c d) (hk : k ≠ .separatorMarker)
    (hyes : c.sees k → Twin F pre c.look d.look → Twin F pre (yes c.look) (yes' d.look))
    (hno : ¬c.sees k → Twin F pre c.look d.look → Twin F pre (no c.look) (no' d.look)) :
    Twin F pre (c.on k yes no) (d.on k yes' no') := by
  have hsees := h.sees_eq hk
  by_cases hs : c.sees k
  · rw [on_pos hs, on_pos (hsees.trans hs)]
    exact hyes hs h.look
  · rw [on_neg hs, on_neg (by rwa [hsees])]
    exact hno hs h.look

lemma bump (h : Twin F pre c d) (hs : c.sees k) : Twin F pre c.bump d.bump := by
  obtain ⟨t, us, hr, _⟩ := exists_of_sees hs
  exact h.toNear.bump (by simp [hr])

/-- At the end one of them may ask and the other not, but neither finds anything. -/
lemma eat (h : Twin F pre c d) (hk : k ≠ .separatorMarker) : Twin F pre (c.eat k) (d.eat k) := by
  have hsees := h.sees_eq hk
  by_cases hs : c.sees k
  · obtain ⟨t, us, hr, _⟩ := exists_of_sees hs
    have hd : d.rest ≠ [] := by simp [h.rest, hr]
    rw [Cursor.eat, Cursor.eat, if_neg (by simp [atEnd, hr]), if_neg (by simpa [atEnd] using hd),
      on_pos hs, on_pos (hsees.trans hs)]
    exact h.look.bump ((look_sees c k).trans hs)
  · exact h.congr (alike_eat hs) (alike_eat (by rwa [hsees]))

lemma eatBlank (h : Twin F pre c d) : Twin F pre c.eatBlank d.eatBlank :=
  h.eat (by decide)

lemma eatNewline (h : Twin F pre c d) : Twin F pre c.eatNewline d.eatNewline :=
  h.eat (by decide)

/-! ### Grouping -/

lemma opened (h : Near F pre c d) : Near F [] c.opened d.opened :=
  { h with here := h.here.opened, there := h.there.opened, built := rfl }

/-- What both have built below a node goes after what stood in front of it. -/
lemma closed {K : Kind} (h : Near F pre c d) (h' : Twin F [] c' d') :
    Twin F pre (c'.closed K c.built) (d'.closed K d.built) := by
  refine ⟨{ h'.toNear with
    here := h'.here.closed K c.built
    there := h'.there.closed K d.built
    built := ?_ }, h'.last⟩
  have hbuilt : d'.built.toList = c'.built.toList := h'.built
  simp only [Cursor.closed, Array.toList_push, h.built, hbuilt, List.append_assoc]

lemma node {K : Kind} {body body' : Cursor → Cursor} (h : Twin F pre c d)
    (hb : Twin F [] c.opened d.opened → Twin F [] (body c.opened) (body' d.opened)) :
    Twin F pre (c.node K body) (d.node K body') :=
  closed h.toNear (hb ⟨opened h.toNear, h.last⟩)

lemma leaf {K : Kind} (h : Twin F pre c d) (hs : stop ≤ c.finish) :
    Twin F pre (c.leaf K stop) (d.leaf K (stop + F.read)) :=
  h.node fun h => h.textUntil hs

lemma operator (h : Twin F pre c d) (hs : c.sees k) : Twin F pre c.operator d.operator :=
  h.node fun h => h.bump hs

lemma errorUntil (h : Twin F pre c d) (hs : stop ≤ c.finish) :
    Twin F pre (c.errorUntil stop) (d.errorUntil (stop + F.read)) := by
  rw [Cursor.errorUntil, Cursor.errorUntil, h.read]
  split_ifs
  · exact h
  · omega
  · omega
  · exact h.leaf hs

/-- Neither has a limit to its depth. -/
lemma nested {body body' : Cursor → Cursor} (h : Near F pre c d)
    (hb : ∀ c' d', Alike c c' → Alike d d' → Twin F pre (body c') (body' d')) :
    Twin F pre (c.nested body) (d.nested body') := by
  rw [h.here.nested_eq, h.there.nested_eq]
  exact (hb _ _ ⟨_, _, _, rfl⟩ ⟨_, _, _, rfl⟩).congr ⟨_, _, _, rfl⟩ ⟨_, _, _, rfl⟩

/-! ### Reporting -/

lemma fileAt (h : Twin F pre c d) (x : Diagnostic) :
    Twin F pre (c.fileAt c.offset x) (d.fileAt d.offset (x.shift F.offset)) := by
  have hlast := h.last
  by_cases hl : c.lastReport = some c.offset
  · rw [Cursor.fileAt, Cursor.fileAt, if_pos hl, if_pos (hlast.mpr hl)]
    exact h
  · rw [Cursor.fileAt, Cursor.fileAt, if_neg hl, if_neg fun hd => hl (hlast.mp hd)]
    refine ⟨{ h.toNear with
      here := h.here.report x
      there := h.there.report (x.shift F.offset)
      reports := ?_ }, iff_of_true rfl rfl⟩
    simp only [Array.toList_push, h.reports, List.map_append, List.map_cons, List.map_nil,
      List.append_assoc]

/-- A diagnostic that begins where the cursor stands. -/
lemma file {x x' : Diagnostic} (h : Twin F pre c d) (hx : x.span.start = c.offset)
    (hx' : x' = x.shift F.offset) : Twin F pre (c.file x) (d.file x') := by
  have hstart : x'.span.start = d.offset := by
    rw [hx', h.offset, ← hx]
    rfl
  rw [Cursor.file, Cursor.file, hx, hstart, hx']
  exact h.fileAt x

lemma report {span span' : Span} (h : Twin F pre c d) (p : Problem) (s : String)
    (hs : span.start = c.offset) (hs' : span' = span.shift F.offset) :
    Twin F pre (c.report p span s) (d.report p span' s) :=
  h.file hs (by rw [hs']; rfl)

lemma reportHere (h : Twin F pre c d) (p : Problem) (s : String) (hi : Inside F c) :
    Twin F pre (c.reportHere p s) (d.reportHere p s) :=
  h.report p s rfl (h.span_eq hi)

lemma reportUnclosed {opener opener' : Span} (h : Twin F pre c d) (p : Problem)
    (detail label : String) (ho : opener' = opener.shift F.offset) :
    Twin F pre (c.reportUnclosed p detail label opener)
      (d.reportUnclosed p detail label opener') := by
  have hspan : opener'.extendTo d.offset = (opener.extendTo c.offset).shift F.offset := by
    simp only [ho, Span.extendTo, Span.shift, Span.stop, h.offset, Span.mk.injEq, true_and]
    omega
  rw [Cursor.reportUnclosed, Cursor.reportUnclosed, hspan, ho]
  exact h.fileAt _

/-! ### Errors and ends of lines -/

lemma finish_report (p : Problem) (span : Span) (s : String) (c : Cursor) :
    (c.report p span s).finish = c.finish := by
  rw [finish, finish, Cursor.report, Cursor.file, fileAt_read, fileAt_rest]

lemma rejectLine (h : Twin F pre c d) (p : Problem) (s : String) (hi : Inside F c) :
    Twin F pre (c.rejectLine p s) (d.rejectLine p s) := by
  have hspan : (if d.read < d.lineEnd then d.spanTo d.lineEnd else d.span)
      = (if c.read < c.lineEnd then c.spanTo c.lineEnd else c.span).shift F.offset := by
    rw [h.lineEnd_eq hi, h.read, h.spanTo_eq c.lineEnd_le_finish, h.span_eq hi]
    split_ifs
    · rfl
    · omega
    · omega
    · rfl
  have hstart : (if c.read < c.lineEnd then c.spanTo c.lineEnd else c.span).start = c.offset := by
    split_ifs <;> rfl
  simp only [Cursor.rejectLine]
  rw [hspan, h.lineEnd_eq hi]
  refine (h.report p s hstart rfl).errorUntil ?_
  rw [finish_report]
  exact c.lineEnd_le_finish

lemma finishLine (h : Twin F pre c d) (s : String) (hi : Inside F c) :
    Twin F pre (c.finishLine s) (d.finishLine s) := by
  rw [Cursor.finishLine, Cursor.finishLine, h.atEnd_eq hi]
  split_ifs
  · exact h
  · exact h.on (by decide) (fun _ h => h) fun _ h => h.rejectLine _ s hi.look

/-- **The end of a line**, from anywhere on it. -/
lemma endLine (h : Twin F pre c d) (hc : c.Live) (s : String) (hi : Inside F c) :
    Twin F pre (c.eatBlank.finishLine s).eatNewline (d.eatBlank.finishLine s).eatNewline :=
  (h.eatBlank.finishLine s (hi.eatBlank hc)).eatNewline

end Twin

/-! ### Loops -/

/-- Turns that end in the same way, at cursors that stand at the same place. -/
def Turn.Twin (F : Frame) (pre : List Tree) : Turn → Turn → Prop
  | .again c, .again d => Cursor.Twin F pre c d
  | .done c, .done d => Cursor.Twin F pre c d
  | _, _ => False

namespace Twin

variable {I J : Cursor → Prop} {turn turn' : Cursor → Turn} {more more' : Cursor → Bool}
  {body body' : Cursor → Cursor}

/-- A loop does not use up the fuel of the shorter source, so that of the longer one is enough. -/
lemma iterate (hrun : ∀ c, c.Live → I c → Turning e m L M I J c (turn c))
    (hturn : ∀ c d, c.Live → I c → Twin F pre c d → Turn.Twin F pre (turn c) (turn' d))
    {n n' : Nat} (hc : c.Live) (hi : I c) (h : Twin F pre c d) (hn : c.rest.length < n)
    (hn' : n ≤ n') : Twin F pre (Cursor.iterate turn n c) (Cursor.iterate turn' n' d) := by
  induction n generalizing n' c d with
  | zero => exact absurd hn (Nat.not_lt_zero _)
  | succ n ih =>
      obtain ⟨n', rfl⟩ : ∃ i, n' = i + 1 := ⟨n' - 1, by omega⟩
      have hr := hrun c hc hi
      have ht := hturn c d hc hi h
      rw [Cursor.iterate, Cursor.iterate]
      cases hc' : turn c with
      | done c' =>
          rw [hc'] at ht
          cases hd' : turn' d with
          | done d' =>
              rw [hd'] at ht
              exact ht
          | again d' =>
              rw [hd'] at ht
              exact ht.elim
      | again c' =>
          rw [hc'] at hr ht
          cases hd' : turn' d with
          | done d' =>
              rw [hd'] at ht
              exact ht.elim
          | again d' =>
              rw [hd'] at ht
              obtain ⟨hr, hgt, hi'⟩ := hr
              have hfin := hr.finish_eq
              rw [finish, finish] at hfin
              exact ih hr.live hi' ht (by omega) (by omega)

/-- **Loops** of turns that stay side by side. -/
lemma loop (hrun : ∀ c, c.Live → I c → Turning e m L M I J c (turn c))
    (hturn : ∀ c d, c.Live → I c → Twin F pre c d → Turn.Twin F pre (turn c) (turn' d))
    (hc : c.Live) (hi : I c) (h : Twin F pre c d) : Twin F pre (c.loop turn) (d.loop turn') := by
  refine iterate hrun hturn hc hi h (Nat.lt_succ_self _) ?_
  rw [h.rest, List.length_append]
  omega

/-- A turn of a loop with a condition. -/
lemma turn_while {b b' : Bool} (hmore : b' = b) (hbody : b → Twin F pre c' d')
    (h : Twin F pre c d) :
    Turn.Twin F pre (if b then .again c' else .done c) (if b' then .again d' else .done d) := by
  rw [hmore]
  by_cases hm : b
  · rw [if_pos hm, if_pos hm]
    exact hbody hm
  · rw [if_neg hm, if_neg hm]
    exact h

lemma loopWhile
    (hrun : ∀ c, c.Live → I c → more c → Run e m L c (body c) ∧ c.read < (body c).read ∧ I (body c))
    (hmore : ∀ c d, c.Live → I c → Twin F pre c d → more' d = more c)
    (hbody : ∀ c d, c.Live → I c → more c → Twin F pre c d → Twin F pre (body c) (body' d))
    (hc : c.Live) (hi : I c) (h : Twin F pre c d) :
    Twin F pre (c.loopWhile more body) (d.loopWhile more' body') :=
  loop (turning_while hrun) (fun c d hc hi h => turn_while (hmore c d hc hi h)
    (fun hm => hbody c d hc hi hm h) h) hc hi h

lemma rest_ne_nil (h : c.read < c.finish) : c.rest ≠ [] := by
  obtain ⟨t, us, hr⟩ := exists_of_lt_finish h
  rw [hr]
  exact List.cons_ne_nil t us

/-- A loop up to a position goes on for both. -/
lemma more_eq (h : Twin F pre c d) (hne : c.read < stop → c.rest ≠ []) :
    (decide (d.read < stop + F.read) && !d.stopped) = (decide (c.read < stop) && !c.stopped) := by
  obtain ⟨hc, hd⟩ := h.stopped_eq
  rw [hc, hd, h.read]
  by_cases hlt : c.read < stop
  · obtain ⟨t, us, hr⟩ := List.exists_cons_of_ne_nil (hne hlt)
    simp [atEnd, h.rest, hr]
  · have hlt' : ¬c.read + F.read < stop + F.read := by omega
    simp [hlt, hlt']

end Twin

end Cursor

end RequestFile
