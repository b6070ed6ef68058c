import RequestFile.Proofs.Invariant
import RequestFile.Proofs.LastLine.Lookahead
import RequestFile.Proofs.Twin.Basic

/-!
A parse side by side with that of the source with one line feed more.

`Beside ts s c d` compares a cursor `c` in a source of the tokens `ts`, the last of which is not a
line terminator, with a cursor `d` in the source with a line feed behind it.

* **Stages.** On a line both stand at the same place (`Abreast`), and the line feed is still ahead.
  Where a line has ended, either something is left for both, or both are at the end and the line
  feed has been taken (`Past`): it is the last tree below a node that is still open (`Tree.Ended`).
* **Faults.** Nothing is claimed once `c` has broken a promise (`Faulty`). Every step keeps this,
  so that no production has to show that its promises are kept.
* **Looking.** The line feed ends the last line as the end of the input does, so both decide in the
  same way.
* **Reporting.** Ranges may differ at the end. Both have reported an error or neither has; a report
  at the end is an error or follows one, so one that is left out there is no loss.
-/

namespace RequestFile

open Token (lineFeed)

/-! ### Trees -/

/-- Whether the last of some tokens ends a line; without tokens a line begins. -/
def beginsLine (ts : List Token) : Bool :=
  (ts.getLast?.map fun t => decide (t.kind = .newline)).getD true

/-- Whether the last line is a lone opening angle bracket. -/
def LoneBracket (ts : List Token) : Prop :=
  ∃ front t, ts = front ++ [t] ∧ beginsLine front ∧ t.kind = .angleOpen

namespace Tree

/-- The nodes that end before their line does. -/
def shortKinds : List Kind :=
  [.identifier, .value, .method, .targetUrl, .httpVersion, .headerEntity]

/-- Trees before and after a line feed has been put behind the last token `ts`. -/
inductive Ended (ts : List Token) : List Tree → List Tree → Prop
  | lineFeed (us : List Tree) : Ended ts us (us ++ [.leaf .newline "\n"])
  | node (us : List Tree) {k : Kind} {vs vs' : List Tree} : k ∉ shortKinds → Ended ts vs vs' →
      Ended ts (us ++ [.node k vs]) (us ++ [.node k vs'])
  /-- A lone opening angle bracket is no longer XML. -/
  | lone (us : List Tree) {vs vs' : List Tree} : LoneBracket ts →
      Ended ts (us ++ [.node .xmlBody vs]) (us ++ [.node .rawBody vs'])

end Tree

namespace Cursor

open Lookahead

/-! ### Faults -/

/-- A promise has been broken in a source of the tokens `ts`. -/
structure Faulty (ts : List Token) (c : Cursor) : Prop where
  fault : c.fault ≠ none
  finish : c.finish = ts.length

lemma finish_take (c : Cursor) (k : Kind) (n : Nat) : (c.take k n).finish = c.finish := by
  simp only [finish, take, List.length_take, List.length_drop]
  omega

/-- **A broken promise**, as an invariant of parses. -/
def faults (ts : List Token) : Invariant where
  finish := ts.length
  Holds := Faulty ts
  Range _ := True
  Reportable _ := True
  reportable _ := trivial
  url _ := .inl trivial
  finish_eq h := h.finish
  broken f h := ⟨fault_broken f _, h.finish⟩
  patience _ h := ⟨h.fault, h.finish⟩
  take k n h := ⟨h.fault, (finish_take _ k n).trans h.finish⟩
  opened h := ⟨h.fault, h.finish⟩
  closed _ _ h _ := ⟨h.fault, h.finish⟩
  lowered h _ := ⟨h.fault, h.finish⟩
  raised h := ⟨h.fault, h.finish⟩
  tooDeep h _ := ⟨h.fault, h.finish⟩
  span _ := trivial
  spanTo _ _ := trivial
  extendTo _ _ := trivial
  fileAt o h _ _ _ := by
    rw [fileAt]
    split_ifs
    · exact h
    · exact ⟨h.fault, h.finish⟩

/-! ### Two cursors -/

/-- Both cursors stand at the same place, in front of the line feed. -/
structure Abreast (ts : List Token) (c d : Cursor) : Prop where
  here : c.Sound
  there : d.Sound
  /-- What has been read of the tokens. -/
  place : ∃ front, ts = front ++ c.rest ∧ c.read = front.length ∧ c.lineStart = beginsLine front
  unended : Unended c.rest
  midline : c.rest = [] → c.lineStart = false
  rest : d.rest = c.rest ++ [lineFeed]
  read : d.read = c.read
  offset : d.offset = c.offset
  lineStart : d.lineStart = c.lineStart
  built : d.built = c.built
  lastReport : d.lastReport = c.lastReport
  failed : d.failed = c.failed
  backed : c.rest = [] → c.lastReport = some c.offset → c.failed

/-- Both cursors are at the end, behind the line feed. -/
structure Past (ts : List Token) (c d : Cursor) : Prop where
  here : c.Live
  there : d.Live
  nil : c.rest = []
  nil' : d.rest = []
  read : c.read = ts.length
  built : Tree.Ended ts c.built.toList d.built.toList
  failed : d.failed = c.failed

/-- Where two cursors may stand. -/
inductive Stage where
  /-- On a line, in front of the line feed. -/
  | line
  /-- Where a line has ended. -/
  | ended
  /-- In front of the line feed or behind it. -/
  | any
deriving DecidableEq

/-- Two cursors at a stage of the parse. -/
inductive Beside (ts : List Token) (s : Stage) (c d : Cursor) : Prop
  | fault (h : (faults ts).Holds c)
  | abreast (h : Abreast ts c d) (hne : s = .ended → c.rest ≠ [])
  | past (h : Past ts c d) (hs : s ≠ .line)

variable {ts : List Token} {s : Stage} {c d c' d' : Cursor} {k K : Kind} {stop : Nat}
  {opener opener' : Span}

/-! ### Looking -/

namespace Abreast

/-- On a line. -/
lemma beside (h : Abreast ts c d) : Beside ts .line c d :=
  .abreast h fun hs => by cases hs

/-- Where a line has ended and something is left. -/
lemma ended (h : Abreast ts c d) (hne : c.rest ≠ []) : Beside ts .ended c d :=
  .abreast h fun _ => hne

lemma finish_eq (h : Abreast ts c d) : c.finish = ts.length := by
  obtain ⟨front, hts, hread, _⟩ := h.place
  rw [finish, hts, hread, List.length_append]

lemma read_le (h : Abreast ts c d) : c.read ≤ ts.length :=
  (Nat.le_add_right _ _).trans h.finish_eq.le

lemma read_add_le (h : Abreast ts c d) {n : Nat} (hn : n ≤ c.rest.length) :
    c.read + n ≤ ts.length :=
  (Nat.add_le_add_left hn _).trans h.finish_eq.le

/-- In front of the end something is left. -/
lemma read_lt_iff (h : Abreast ts c d) : c.read < ts.length ↔ c.rest ≠ [] := by
  rw [← h.finish_eq, finish, Nat.lt_add_right_iff_pos, List.length_pos_iff]

lemma ne_nil (h : Abreast ts c d) (hlt : c.read < ts.length) : c.rest ≠ [] :=
  h.read_lt_iff.mp hlt

lemma read_lt (h : Abreast ts c d) (hne : c.rest ≠ []) : c.read < ts.length :=
  h.read_lt_iff.mpr hne

lemma read_eq (h : Abreast ts c d) (hnil : c.rest = []) : c.read = ts.length := by
  rw [← h.finish_eq, finish, hnil, List.length_nil, Nat.add_zero]

lemma rest_ne_nil (h : Abreast ts c d) : d.rest ≠ [] := by
  simp [h.rest]

/-- What is told by the line is told to both. -/
lemma same_line {α : Type*} {f : List Token → α} (h : Abreast ts c d) (hf : LineLocal f) :
    f d.rest = f c.rest := by
  rw [h.rest, hf.concat]

lemma sees_eq (h : Abreast ts c d) (hk : k ≠ .newline) : d.sees k = c.sees k :=
  h.same_line (lineLocal_startsWith hk)

/-- Where something is left, both see the same token. -/
lemma sees_eq_of_ne (h : Abreast ts c d) (hne : c.rest ≠ []) (k : Kind) : d.sees k = c.sees k := by
  obtain ⟨t, us, hr⟩ := List.exists_cons_of_ne_nil hne
  rw [sees, h.rest, sees, hr]
  rfl

lemma seesIn_eq (h : Abreast ts c d) {set : KindSet} (hs : set.contains .newline = false) :
    d.seesIn set = c.seesIn set :=
  h.same_line (lineLocal_startsIn hs)

lemma headText_eq (h : Abreast ts c d) (hne : c.rest ≠ []) :
    headText d.rest = headText c.rest := by
  rw [h.rest, headText_lineFeed hne]

lemma atEnd_eq (h : Abreast ts c d) : d.atEnd = false := by
  simpa [atEnd] using h.rest_ne_nil

lemma stopped_eq (h : Abreast ts c d) : c.stopped = c.atEnd ∧ d.stopped = false := by
  rw [stopped, h.here.exceeded, stopped, h.there.exceeded, h.atEnd_eq]
  simp

/-- A loop goes on for both where something is left. -/
lemma stopped_of_ne (h : Abreast ts c d) (hne : c.rest ≠ []) :
    c.stopped = false ∧ d.stopped = false := by
  rw [h.stopped_eq.1, atEnd]
  exact ⟨by simpa using hne, h.stopped_eq.2⟩

lemma atSeparator_eq (h : Abreast ts c d) : d.atSeparator = c.atSeparator :=
  h.same_line (lineLocal_startsWith (by decide))

lemma atBlankLine_eq (h : Abreast ts c d) : d.atBlankLine = c.atBlankLine :=
  h.same_line lineLocal_isBlankLine

lemma startsWith_drop_eq (h : Abreast ts c d) (hk : k ≠ .newline) (n : Nat) :
    startsWith k (d.rest.drop n) = startsWith k (c.rest.drop n) := by
  rw [h.rest, (lineLocal_startsWith hk).drop_concat]

lemma isBlankLine_drop_eq (h : Abreast ts c d) (n : Nat) :
    isBlankLine (d.rest.drop n) = isBlankLine (c.rest.drop n) := by
  rw [h.rest, lineLocal_isBlankLine.drop_concat]

lemma lineEnd_eq (h : Abreast ts c d) : d.lineEnd = c.lineEnd := by
  rw [lineEnd, h.rest, lineLength_lineFeed, h.read, lineEnd]

lemma lineEnd_le (h : Abreast ts c d) : c.lineEnd ≤ ts.length :=
  c.lineEnd_le_finish.trans h.finish_eq.le

lemma sub_le (h : Abreast ts c d) (hs : stop ≤ ts.length) : stop - c.read ≤ c.rest.length := by
  have hfin := h.finish_eq
  rw [finish] at hfin
  omega

lemma segment_eq (h : Abreast ts c d) (hs : stop ≤ ts.length) :
    d.segment stop = c.segment stop := by
  rw [segment, h.rest, h.read, List.take_append_of_le_length (h.sub_le hs), segment]

lemma trimmedEnd_eq (h : Abreast ts c d) (hs : stop ≤ ts.length) :
    d.trimmedEnd stop = c.trimmedEnd stop := by
  rw [trimmedEnd, h.segment_eq hs, h.read, trimmedEnd]

lemma trimmedLineEnd_eq (h : Abreast ts c d) :
    d.trimmedEnd d.lineEnd = c.trimmedEnd c.lineEnd := by
  rw [h.lineEnd_eq, h.trimmedEnd_eq h.lineEnd_le]

lemma before_eq (h : Abreast ts c d) (set : KindSet) (hs : stop ≤ ts.length) :
    d.before set stop = c.before set stop := by
  rw [before, h.segment_eq hs, h.read, before]

lemma outsideVariables_eq (h : Abreast ts c d) (set : KindSet) (hs : stop ≤ ts.length) :
    d.outsideVariables set stop = c.outsideVariables set stop := by
  rw [outsideVariables, h.segment_eq hs, h.read, outsideVariables]

end Abreast

lemma length_segment_le (c : Cursor) (stop : Nat) : (c.segment stop).length ≤ c.rest.length :=
  List.length_take_le' _ _

lemma before_le_finish (c : Cursor) (set : KindSet) (stop : Nat) : c.before set stop ≤ c.finish :=
  Nat.add_le_add_left ((lengthBefore_le _ _).trans (c.length_segment_le stop)) _

lemma outsideVariables_le_finish (c : Cursor) (set : KindSet) (stop : Nat) :
    c.outsideVariables set stop ≤ c.finish :=
  Nat.add_le_add_left ((lengthOutsideVariables_le _ _).trans (c.length_segment_le stop)) _

namespace Abreast

lemma trimmedEnd_le (h : Abreast ts c d) (stop : Nat) : c.trimmedEnd stop ≤ ts.length :=
  (c.trimmedEnd_le_finish stop).trans h.finish_eq.le

lemma before_le (h : Abreast ts c d) (set : KindSet) (stop : Nat) :
    c.before set stop ≤ ts.length :=
  (c.before_le_finish set stop).trans h.finish_eq.le

lemma outsideVariables_le (h : Abreast ts c d) (set : KindSet) (stop : Nat) :
    c.outsideVariables set stop ≤ ts.length :=
  (c.outsideVariables_le_finish set stop).trans h.finish_eq.le

end Abreast

/-! ### Questions -/

/-- Depth, patience and faults are not compared. -/
lemma Abreast.congr (h : Abreast ts c d) (hc : Alike c c') (hd : Alike d d') :
    Abreast ts c' d' := by
  have hhere := hc.sound h.here
  have hthere := hd.sound h.there
  obtain ⟨_, _, _, rfl⟩ := hc
  obtain ⟨_, _, _, rfl⟩ := hd
  exact { h with here := hhere, there := hthere }

lemma Past.congr (h : Past ts c d) (hc : Alike c c') (hd : Alike d d') : Past ts c' d' := by
  have hlive := hc.live h.here
  have hlive' := hd.live h.there
  obtain ⟨_, _, _, rfl⟩ := hc
  obtain ⟨_, _, _, rfl⟩ := hd
  exact { h with here := hlive, there := hlive' }

lemma Past.beside (h : Past ts c d) : Beside ts .ended c d :=
  .past h fun hs => by cases hs

namespace Beside

/-- On a line the cursors stand abreast, or a promise has been broken. -/
lemma elim {P : Prop} (h : Beside ts .line c d) (hf : (faults ts).Holds c → P)
    (ha : Abreast ts c d → P) : P := by
  cases h with
  | fault h => exact hf h
  | abreast h _ => exact ha h
  | past _ hs => exact absurd rfl hs

/-- A production on a line, unless a promise has been broken before. -/
lemma step (h : Beside ts .line c d) (hf : (faults ts).Holds c → (faults ts).Holds c')
    (ha : Abreast ts c d → Beside ts s c' d') : Beside ts s c' d' :=
  h.elim (fun h => .fault (hf h)) ha

lemma finish_eq (h : Beside ts .line c d) : c.finish = ts.length :=
  h.elim Faulty.finish Abreast.finish_eq

/-- Wherever the line feed is. -/
lemma any (h : Beside ts s c d) : Beside ts .any c d := by
  cases h with
  | fault h => exact .fault h
  | abreast h _ => exact .abreast h fun hs => by cases hs
  | past h _ => exact .past h fun hs => by cases hs

lemma congr (h : Beside ts .line c d) (hf : (faults ts).Holds c → (faults ts).Holds c')
    (hc : Alike c c') (hd : Alike d d') : Beside ts .line c' d' :=
  h.step hf fun h => (h.congr hc hd).beside

lemma look (h : Beside ts .line c d) : Beside ts .line c.look d.look :=
  h.congr (fun h => h.look) (alike_look c) (alike_look d)

lemma demand (h : Beside ts .line c d) (k : Kind) :
    Beside ts .line (c.demand k) (d.demand k) :=
  h.congr (fun h => h.demand k) (alike_demand c k) (alike_demand d k)

end Beside

lemma Abreast.look (h : Abreast ts c d) : Abreast ts c.look d.look :=
  h.congr (alike_look c) (alike_look d)

/-- Both decide in the same way by the token ahead. -/
lemma Abreast.on {yes no yes' no' : Cursor → Cursor} (h : Abreast ts c d) (hk : k ≠ .newline)
    (hyes : Abreast ts c.look d.look → Beside ts s (yes c.look) (yes' d.look))
    (hno : Abreast ts c.look d.look → Beside ts s (no c.look) (no' d.look)) :
    Beside ts s (c.on k yes no) (d.on k yes' no') := by
  have hsees := h.sees_eq hk
  by_cases hs : c.sees k
  · rw [on_pos hs, on_pos (hsees.trans hs)]
    exact hyes h.look
  · rw [on_neg hs, on_neg (by rwa [hsees])]
    exact hno h.look

/-- What is done at the end is also done in front of the line feed. -/
lemma Abreast.onUnlessEnd {yes no yes' no' : Cursor → Cursor} (h : Abreast ts c d)
    (hk : k ≠ .newline) (hyes : Abreast ts c.look d.look → Beside ts s (yes c.look) (yes' d.look))
    (hno : ∀ {c d}, Abreast ts c d → Beside ts s (no c) (no' d)) :
    Beside ts s (if c.atEnd then no c else c.on k yes no)
      (if d.atEnd then no' d else d.on k yes' no') := by
  rw [h.atEnd_eq, if_neg Bool.false_ne_true]
  split_ifs with hend
  · have hs : ¬d.sees k := by
      rw [h.sees_eq hk, sees, List.isEmpty_iff.mp hend, startsWith_nil]
      exact Bool.false_ne_true
    rw [on_neg hs]
    exact hno (h.congr (alike_refl c) (alike_look d))
  · exact h.on hk hyes hno

/-! ### Taking tokens -/

lemma beginsLine_append (ts us : List Token) :
    beginsLine (ts ++ us)
      = (us.getLast?.map fun t => decide (t.kind = .newline)).getD (beginsLine ts) := by
  rw [beginsLine, List.getLast?_append, beginsLine]
  cases us.getLast? <;> rfl

/-- Both take the same tokens. -/
lemma Abreast.take (h : Abreast ts c d) (k : Kind) {n : Nat} (hn : n ≤ c.rest.length) :
    Abreast ts (c.take k n) (d.take k n) := by
  have htake : d.rest.take n = c.rest.take n := by
    rw [h.rest, List.take_append_of_le_length hn]
  refine ⟨h.here.take k n, h.there.take k n, ?_, h.unended.drop n, fun hnil => ?_, ?_, ?_, ?_, ?_,
    ?_, h.lastReport, h.failed, fun hnil hlast => ?_⟩
  · obtain ⟨front, hts, hread, hline⟩ := h.place
    refine ⟨front ++ c.rest.take n, ?_, ?_, ?_⟩
    · rw [hts, List.append_assoc, Cursor.take, List.take_append_drop]
    · rw [Cursor.take, hread, List.length_append]
    · rw [beginsLine_append, ← hline, Cursor.take]
  · have hle : c.rest.length ≤ n := by simpa [Cursor.take] using hnil
    simp only [Cursor.take, List.take_of_length_le hle]
    cases hl : c.rest.getLast? with
    | none => exact h.midline (List.getLast?_eq_none_iff.mp hl)
    | some t => simpa using h.unended t hl
  · simp only [Cursor.take, h.rest, List.drop_append_of_le_length hn]
  · simp only [Cursor.take, htake, h.read]
  · simp only [Cursor.take, htake, h.offset]
  · simp only [Cursor.take, htake, h.lineStart]
  · simp only [Cursor.take, htake, h.built]
  -- a report behind which tokens are taken was not made at the end
  · by_cases hne : c.rest.take n = []
    · refine h.backed ?_ ?_
      · rw [← List.take_append_drop n c.rest, hne, List.nil_append]
        exact hnil
      · simpa only [Cursor.take, hne, Token.sizeOf_nil, Nat.add_zero] using hlast
    · exact absurd hlast (last_ne_of_take h.here hne k)

namespace Beside

lemma bump (h : Beside ts .line c d) : Beside ts .line c.bump d.bump := by
  refine h.step (fun h => h.bump) fun h => ?_
  cases hr : c.rest with
  | nil =>
      rw [Cursor.bump, hr]
      exact .fault ⟨fault_broken _ c, h.finish_eq⟩
  | cons t us =>
      have hd : d.bump = d.take t.kind 1 := by rw [Cursor.bump, h.rest, hr, List.cons_append]
      have hc : c.bump = c.take t.kind 1 := by rw [Cursor.bump, hr]
      rw [hd, hc]
      exact (h.take _ (by rw [hr, List.length_cons]; omega)).beside

lemma textUntil (h : Beside ts .line c d) (hs : stop ≤ ts.length) :
    Beside ts .line (c.textUntil stop) (d.textUntil stop) := by
  refine h.step (fun h => h.textUntil stop) fun h => ?_
  rw [Cursor.textUntil, Cursor.textUntil, h.segment_eq hs, h.read]
  split_ifs
  · exact h.beside
  · exact (h.take _ (h.sub_le hs)).beside

/-- At the end one of them may ask and the other not, but neither finds anything. -/
lemma eat (h : Beside ts .line c d) (hk : k ≠ .newline) :
    Beside ts .line (c.eat k) (d.eat k) := by
  refine h.step (fun h => h.eat k) fun h => ?_
  have hsees := h.sees_eq hk
  by_cases hs : c.sees k
  · obtain ⟨t, us, hr, _⟩ := exists_of_sees hs
    rw [Cursor.eat, Cursor.eat, if_neg (by simp [atEnd, hr]), if_neg (by simp [h.atEnd_eq]),
      on_pos hs, on_pos (hsees.trans hs)]
    exact h.look.beside.bump
  · exact (h.congr (alike_eat hs) (alike_eat (by rwa [hsees]))).beside

lemma eatBlank (h : Beside ts .line c d) : Beside ts .line c.eatBlank d.eatBlank :=
  h.eat (by decide)

end Beside

lemma eat_of_nil (hr : c.rest = []) (k : Kind) : c.eat k = c := by
  rw [eat, if_pos (by simp [atEnd, hr])]

lemma eatNewline_of_nil (hr : c.rest = []) : c.eatNewline = c :=
  eat_of_nil hr _

/-- Where something is left, both take a terminator or neither does, and something is left again. -/
lemma Abreast.eatNewline_of_ne (h : Abreast ts c d) (hne : c.rest ≠ []) :
    Beside ts .line c.eatNewline d.eatNewline ∧ c.eatNewline.rest ≠ [] := by
  have hsees := h.sees_eq_of_ne hne .newline
  by_cases hs : c.sees .newline
  · obtain ⟨t, us, hr, hk⟩ := exists_of_sees hs
    have hus : us ≠ [] := (hr ▸ h.unended : Unended (t :: us)).ne_nil hk
    have hc : c.eatNewline = c.look.bump := by
      rw [eatNewline, eat, if_neg (by simp [atEnd, hr]), on_pos hs]
    have hd : d.eatNewline = d.look.bump := by
      rw [eatNewline, eat, if_neg (by simp [h.atEnd_eq]), on_pos (hsees.trans hs)]
    rw [hc, hd]
    refine ⟨h.look.beside.bump, ?_⟩
    rw [Cursor.bump, look_rest, hr]
    simpa [Cursor.take, hr] using hus
  · have hc := alike_eat hs
    refine ⟨(h.congr hc (alike_eat (by rwa [hsees]))).beside, ?_⟩
    obtain ⟨_, _, _, heq⟩ := hc
    rw [eatNewline, heq]
    exact hne

/-- At the end the line feed is taken. -/
lemma Abreast.takeLineFeed (h : Abreast ts c d) (hnil : c.rest = []) : Past ts c d.bump := by
  have hrest : d.rest = [lineFeed] := by rw [h.rest, hnil, List.nil_append]
  have hd : d.bump = d.take .newline 1 := by
    rw [Cursor.bump, hrest]
    rfl
  rw [hd]
  refine ⟨⟨h.here, h.backed hnil⟩, h.there.take_live _ (by simp [hrest]), hnil, ?_, h.read_eq hnil,
    ?_, h.failed⟩
  · rw [Cursor.take, hrest]
    rfl
  · simp only [Cursor.take, hrest, Array.toList_push, h.built]
    exact .lineFeed _

namespace Beside

/-- **The end of a line**: where nothing else is left, the line feed is taken. -/
lemma eatNewline (h : Beside ts .line c d) : Beside ts .ended c.eatNewline d.eatNewline := by
  refine h.step (fun h => h.eatNewline) fun h => ?_
  by_cases hnil : c.rest = []
  · have hs : d.sees .newline := by
      rw [sees, h.rest, hnil]
      rfl
    rw [eatNewline_of_nil hnil, Cursor.eatNewline, Cursor.eat, if_neg (by simp [h.atEnd_eq]),
      on_pos hs]
    exact ((h.congr (alike_refl c) (alike_look d)).takeLineFeed hnil).beside
  · obtain ⟨hboth, hne⟩ := h.eatNewline_of_ne hnil
    exact hboth.elim .fault fun h => h.ended hne

lemma eatBlankLine (h : Beside ts .line c d) : Beside ts .ended c.eatBlankLine d.eatBlankLine :=
  h.eatBlank.eatNewline

/-- What is done only in front of a position. -/
lemma ifBefore (h : Beside ts .line c d) (stop : Nat)
    (hf : (faults ts).Holds c → (faults ts).Holds c') (h' : Beside ts .line c' d') :
    Beside ts .line (if c.read < stop then c' else c) (if d.read < stop then d' else d) := by
  refine h.step (fun h => h.ifBefore stop (hf h)) fun h => ?_
  rw [h.read]
  split_ifs
  · exact h'
  · exact h.beside

end Beside

/-! ### Grouping -/

lemma Abreast.opened (h : Abreast ts c d) : Abreast ts c.opened d.opened :=
  { h with here := h.here.opened, there := h.there.opened, built := rfl }

/-- What both have built below a node goes after what stood in front of it. -/
lemma Abreast.closed (h : Abreast ts c d) (hk : s ≠ .line → K ∉ Tree.shortKinds)
    (h' : Beside ts s c' d') : Beside ts s (c'.closed K c.built) (d'.closed K d.built) := by
  rw [h.built]
  cases h' with
  | fault h' => exact .fault ⟨h'.fault, h'.finish⟩
  | abreast h' hne =>
      refine .abreast { h' with
        here := h'.here.closed K _
        there := h'.there.closed K _
        built := ?_ } hne
      rw [Cursor.closed, Cursor.closed, h'.built]
  | past h' hs =>
      refine .past { h' with
        here := h'.here.closed K _
        there := h'.there.closed K _
        built := ?_ } hs
      simp only [Cursor.closed, Array.toList_push]
      exact .node _ (hk hs) h'.built

lemma Abreast.node {body body' : Cursor → Cursor} (h : Abreast ts c d)
    (hk : s ≠ .line → K ∉ Tree.shortKinds)
    (hb : Abreast ts c.opened d.opened → Beside ts s (body c.opened) (body' d.opened)) :
    Beside ts s (c.node K body) (d.node K body') :=
  h.closed hk (hb h.opened)

/-- A node on one line. -/
lemma Abreast.lineNode {body body' : Cursor → Cursor} (h : Abreast ts c d)
    (hb : Abreast ts c.opened d.opened → Beside ts .line (body c.opened) (body' d.opened)) :
    Beside ts .line (c.node K body) (d.node K body') :=
  h.node (fun hs => absurd rfl hs) hb

/-- Neither has a limit to its depth. -/
lemma Abreast.nested {body body' : Cursor → Cursor} (h : Abreast ts c d)
    (hb : ∀ c' d', Alike c c' → Alike d d' → Beside ts s (body c') (body' d')) :
    Beside ts s (c.nested body) (d.nested body') := by
  rw [h.here.nested_eq, h.there.nested_eq]
  cases hb c.lowered d.lowered ⟨_, _, _, rfl⟩ ⟨_, _, _, rfl⟩ with
  | fault h => exact .fault ((faults ts).raised h)
  | abreast h hne => exact .abreast (h.congr ⟨_, _, _, rfl⟩ ⟨_, _, _, rfl⟩) hne
  | past h hs => exact .past (h.congr ⟨_, _, _, rfl⟩ ⟨_, _, _, rfl⟩) hs

namespace Beside

lemma leaf (h : Beside ts .line c d) (hk : K ≠ .value) (hs : stop ≤ ts.length) :
    Beside ts .line (c.leaf K stop) (d.leaf K stop) :=
  h.step (fun h => h.leaf hk stop) fun h => h.lineNode fun h => h.beside.textUntil hs

lemma operator (h : Beside ts .line c d) : Beside ts .line c.operator d.operator :=
  h.step (fun h => h.operator) fun h => h.lineNode fun h => h.beside.bump

lemma errorUntil (h : Beside ts .line c d) (hs : stop ≤ ts.length) :
    Beside ts .line (c.errorUntil stop) (d.errorUntil stop) := by
  refine h.step (fun h => h.errorUntil stop) fun h => ?_
  rw [Cursor.errorUntil, Cursor.errorUntil, h.read]
  split_ifs
  · exact h.beside
  · exact h.beside.leaf (by decide) hs

end Beside

/-! ### Reporting -/

/-- The cursor after a report that is not left out. -/
lemma failed_report (c : Cursor) (o : Nat) (x : Diagnostic) :
    failed { c with reports := c.reports.push x, lastReport := some o }
      = (c.failed || x.isError) := by
  simp [failed]

/-- A report where both stand, which is an error at the end. -/
lemma Abreast.fileAt {x x' : Diagnostic} (h : Abreast ts c d) (hx : x'.isError = x.isError)
    (he : c.rest = [] → x.isError) :
    Abreast ts (c.fileAt c.offset x) (d.fileAt d.offset x') := by
  by_cases hl : c.lastReport = some c.offset
  · rw [Cursor.fileAt, Cursor.fileAt, if_pos hl, if_pos (by rw [h.lastReport, h.offset, hl])]
    exact h
  · rw [Cursor.fileAt, Cursor.fileAt, if_neg hl, if_neg (by rwa [h.lastReport, h.offset])]
    exact { h with
      here := h.here.report x
      there := h.there.report x'
      lastReport := by rw [h.offset]
      failed := by rw [failed_report, failed_report, h.failed, hx]
      backed := fun hnil _ => by rw [failed_report, he hnil, Bool.or_true] }

/-- An error filed where a cursor stands leaves an error, recorded or not. -/
lemma Live.fileAt {x : Diagnostic} (h : c.Live) (hx : x.isError) :
    (c.fileAt c.offset x).Live ∧ (c.fileAt c.offset x).failed := by
  obtain ⟨hrun, hfailed⟩ := run_fileAt (e := true) h hx
  exact ⟨hrun.live, hfailed⟩

/-- Behind the line feed errors are not lost either. -/
lemma Past.fileAt {x x' : Diagnostic} (h : Past ts c d) (hx : x.isError) (hx' : x'.isError) :
    Past ts (c.fileAt c.offset x) (d.fileAt d.offset x') := by
  obtain ⟨hc, hfailed⟩ := h.here.fileAt hx
  obtain ⟨hd, hfailed'⟩ := h.there.fileAt hx'
  have hbuilt : ∀ (c : Cursor) (x : Diagnostic), (c.fileAt c.offset x).built = c.built := by
    intro c x
    rw [Cursor.fileAt]
    split_ifs <;> rfl
  exact ⟨hc, hd, by rw [fileAt_rest, h.nil], by rw [fileAt_rest, h.nil'],
    by rw [fileAt_read, h.read], by rw [hbuilt, hbuilt]; exact h.built, hfailed'.trans hfailed.symm⟩

/-- A report whose range begins where both stand. -/
lemma Abreast.file {x x' : Diagnostic} (h : Abreast ts c d) (hx : x.span.start = c.offset)
    (hx' : x'.span.start = d.offset) (hsame : x'.problem = x.problem)
    (he : c.rest = [] → x.isError) : Abreast ts (c.file x) (d.file x') := by
  rw [Cursor.file, Cursor.file, hx, hx']
  refine h.fileAt ?_ he
  rw [Diagnostic.isError, Diagnostic.severity, hsame, Diagnostic.isError, Diagnostic.severity]

lemma Abreast.report {p : Problem} {span span' : Span} (h : Abreast ts c d)
    (hp : p.severity = .error) (hs : span.start = c.offset) (hs' : span'.start = d.offset)
    (m : String) : Abreast ts (c.report p span m) (d.report p span' m) :=
  h.file hs hs' rfl fun _ => isError_saying hp span m

namespace Beside

lemma reportHere {p : Problem} (h : Beside ts .line c d) (hp : p.severity = .error) (m : String) :
    Beside ts .line (c.reportHere p m) (d.reportHere p m) :=
  h.step (fun h => h.reportHere trivial m) fun h => (h.report hp rfl rfl m).beside

/-- What is left open at the end is reported on both sides of the line feed. -/
lemma reportUnclosed {p : Problem} (h : Beside ts s c d) (hp : p.severity = .error)
    (detail label : String) (opener opener' : Span) :
    Beside ts s (c.reportUnclosed p detail label opener)
      (d.reportUnclosed p detail label opener') := by
  have hx : ∀ c : Cursor, ∀ o : Span, ((((Diagnostic.new p (o.extendTo c.offset)).saying
      detail).relatedTo label o).isError) := fun c o =>
    isError_saying hp (o.extendTo c.offset) detail
  cases h with
  | fault h => exact .fault (h.reportUnclosed trivial _ _ trivial)
  | abreast h hne =>
      refine .abreast (h.fileAt ((hx d opener').trans (hx c opener).symm) fun _ => hx c opener)
        fun hs => ?_
      rw [Cursor.reportUnclosed, fileAt_rest]
      exact hne hs
  | past h hs => exact .past (h.fileAt (hx c opener) (hx d opener')) hs

lemma rejectLine {p : Problem} (h : Beside ts .line c d) (hp : p.severity = .error) (m : String) :
    Beside ts .line (c.rejectLine p m) (d.rejectLine p m) := by
  refine h.step (fun h => h.rejectLine trivial m) fun h => ?_
  have hstart : ∀ c : Cursor,
      (if c.read < c.lineEnd then c.spanTo c.lineEnd else c.span).start = c.offset := fun c => by
    split_ifs <;> rfl
  simp only [Cursor.rejectLine]
  rw [h.lineEnd_eq, ← h.lineEnd_eq, h.lineEnd_eq]
  refine (h.report hp (hstart c) ?_ m).beside.errorUntil h.lineEnd_le
  rw [← h.lineEnd_eq]
  exact hstart d

lemma finishLine (h : Beside ts .line c d) (m : String) :
    Beside ts .line (c.finishLine m) (d.finishLine m) := by
  refine h.step (fun h => h.finishLine m) fun h => ?_
  rw [Cursor.finishLine, Cursor.finishLine, h.atEnd_eq, if_neg Bool.false_ne_true]
  by_cases hnil : c.rest = []
  · have hs : d.sees .newline := by
      rw [sees, h.rest, hnil]
      rfl
    rw [if_pos (by simp [atEnd, hnil]), on_pos hs]
    exact (h.congr (alike_refl c) (alike_look d)).beside
  · have hsees := h.sees_eq_of_ne hnil .newline
    rw [if_neg (by simpa [atEnd] using hnil)]
    by_cases hs : c.sees .newline
    · rw [on_pos hs, on_pos (hsees.trans hs)]
      exact h.look.beside
    · rw [on_neg hs, on_neg (by rwa [hsees])]
      exact h.look.beside.rejectLine rfl m

/-- **The end of a line**, from anywhere on it. -/
lemma endLine (h : Beside ts .line c d) (m : String) :
    Beside ts .ended (c.eatBlank.finishLine m).eatNewline (d.eatBlank.finishLine m).eatNewline :=
  (h.eatBlank.finishLine m).eatNewline

end Beside

/-! ### Loops -/

/-- Turns of loops side by side: the loops go on at one stage and are done at another. At the end
the longer parse may take the line feed in a turn of its own, as `turn'` has it. -/
inductive Turn.Beside (ts : List Token) (turn' : Cursor → Turn) (s s' : Stage) : Turn → Turn → Prop
  | fault {t t' : Turn} (h : (faults ts).Holds t.cursor) : Turn.Beside ts turn' s s' t t'
  | again {c d : Cursor} (h : Cursor.Beside ts s c d) :
      Turn.Beside ts turn' s s' (.again c) (.again d)
  | done {c d : Cursor} (h : Cursor.Beside ts s' c d) :
      Turn.Beside ts turn' s s' (.done c) (.done d)
  | extra {c d : Cursor} (h : ∀ n, Cursor.Beside ts s' c (iterate turn' (n + 1) d)) :
      Turn.Beside ts turn' s s' (.done c) (.again d)

namespace Beside

variable {s' : Stage} {turn turn' : Cursor → Turn} {more more' : Cursor → Bool}
  {body body' : Cursor → Cursor} {I : Cursor → Prop}

/-- A turn on a line, unless a promise has been broken before. -/
lemma takeTurn {t t' : Turn} (h : Beside ts .line c d)
    (hf : (faults ts).Holds c → (faults ts).Holds t.cursor)
    (ha : Abreast ts c d → Turn.Beside ts turn' s s' t t') : Turn.Beside ts turn' s s' t t' :=
  h.elim (fun h => .fault (hf h)) ha

/-- The longer parse has fuel for one turn more. `I` is what the turns of the shorter one keep. -/
lemma iterate (hf : ∀ {c}, (faults ts).Holds c → (faults ts).Holds (turn c).cursor)
    (hI : ∀ {c c'}, I c → turn c = .again c' → I c')
    (hturn : ∀ {c d}, Abreast ts c d → (s = .ended → c.rest ≠ []) → I c →
      Turn.Beside ts turn' s s' (turn c) (turn' d))
    (hpast : ∀ {c d}, Past ts c d → s ≠ .line →
      ∃ c' d', turn c = .done c' ∧ turn' d = .done d' ∧ Beside ts s' c' d')
    (n : Nat) (hi : I c) (h : Beside ts s c d) :
    Beside ts s' (Cursor.iterate turn n c) (Cursor.iterate turn' (n + 1) d) := by
  have hbroken : ∀ (n : Nat) {c : Cursor}, (faults ts).Holds c →
      (faults ts).Holds (Cursor.iterate turn n c) := fun n {c} h =>
    iterate_induction (fun _ h => (faults ts).broken _ h) (fun _ h => hf h) n h
  -- induction on the fuel of the shorter parse, which may run out: then nothing is compared
  induction n generalizing c d with
  | zero =>
      have hfin : c.finish = ts.length := by
        cases h with
        | fault h => exact h.finish
        | abreast h _ => exact h.finish_eq
        | past h _ => rw [finish, h.nil, h.read, List.length_nil, Nat.add_zero]
      exact .fault ⟨fault_broken _ c, hfin⟩
  | succ n ih =>
      cases h with
      | fault h => exact .fault (hbroken _ h)
      | past h hs =>
          obtain ⟨c', d', hc, hd, h'⟩ := hpast h hs
          rw [Cursor.iterate, hc, Cursor.iterate, hd]
          exact h'
      | abreast h hne =>
          rw [Cursor.iterate, Cursor.iterate]
          have ht := hturn h hne hi
          have hnext : ∀ c', turn c = .again c' → I c' := fun _ => hI hi
          generalize turn c = t at ht hnext ⊢
          generalize turn' d = t' at ht ⊢
          cases ht with
          | fault h =>
              cases t with
              | again c' => exact .fault (hbroken n h)
              | done c' => exact .fault h
          | again h => exact ih (hnext _ rfl) h
          | done h => exact h
          | extra h => exact h n

/-- **Loops** of turns side by side. -/
lemma loop (h : Beside ts s c d) (hi : I c)
    (hf : ∀ {c}, (faults ts).Holds c → (faults ts).Holds (turn c).cursor)
    (hI : ∀ {c c'}, I c → turn c = .again c' → I c')
    (hturn : ∀ {c d}, Abreast ts c d → (s = .ended → c.rest ≠ []) → I c →
      Turn.Beside ts turn' s s' (turn c) (turn' d))
    (hpast : ∀ {c d}, Past ts c d → s ≠ .line →
      ∃ c' d', turn c = .done c' ∧ turn' d = .done d' ∧ Beside ts s' c' d') :
    Beside ts s' (c.loop turn) (d.loop turn') := by
  rw [Cursor.loop, Cursor.loop]
  cases h with
  | fault h =>
      exact .fault (iterate_induction (fun _ h => (faults ts).broken _ h) (fun _ h => hf h) _ h)
  | abreast h hne =>
      rw [h.rest, List.length_append, List.length_singleton]
      exact iterate hf hI hturn hpast _ hi (.abreast h hne)
  | past h hs =>
      obtain ⟨c', d', hc, hd, h'⟩ := hpast h hs
      rw [Cursor.iterate, hc, Cursor.iterate, hd]
      exact h'

/-- Loops that stay on a line. -/
lemma lineLoop (h : Beside ts .line c d)
    (hf : ∀ {c}, (faults ts).Holds c → (faults ts).Holds (turn c).cursor)
    (hturn : ∀ {c d}, Abreast ts c d → Turn.Beside ts turn' .line s' (turn c) (turn' d)) :
    Beside ts s' (c.loop turn) (d.loop turn') :=
  h.loop (I := fun _ => True) trivial hf (fun _ _ => trivial) (fun h _ _ => hturn h)
    fun _ hs => absurd rfl hs

/-- A turn of a loop with a condition. -/
lemma turnWhile {b b' : Bool} (hmore : b' = b) (hbody : b → Beside ts s c' d')
    (h : Beside ts s' c d) : Turn.Beside ts turn' s s'
      (if b then .again c' else .done c) (if b' then .again d' else .done d) := by
  rw [hmore]
  split_ifs with hm
  · exact .again (hbody hm)
  · exact .done h

/-- A loop up to a position on a line. -/
lemma loopUntil (h : Beside ts .line c d) (hs : stop ≤ ts.length)
    (hf : ∀ {c}, (faults ts).Holds c → (faults ts).Holds (body c))
    (hbody : ∀ {c d}, Abreast ts c d → c.read < stop → Beside ts .line (body c) (body' d)) :
    Beside ts .line (c.loopWhile (fun c => c.read < stop && !c.stopped) body)
      (d.loopWhile (fun d => d.read < stop && !d.stopped) body') := by
  refine h.lineLoop (fun {c} h => ?_) fun {c d} h => ?_
  · split_ifs
    · exact hf h
    · exact h
  · refine turnWhile ?_ (fun hm => hbody h (of_decide_eq_true (Bool.and_eq_true_iff.mp hm).1))
      h.beside
    simp only [h.read]
    by_cases hlt : c.read < stop
    · obtain ⟨hc, hd⟩ := h.stopped_of_ne (h.ne_nil (hlt.trans_le hs))
      rw [hc, hd]
    · simp [hlt]

/-- A loop over lines. -/
lemma loopLines (h : Beside ts .ended c d) (hi : I c)
    (hf : ∀ {c}, (faults ts).Holds c → more c → (faults ts).Holds (body c))
    (hI : ∀ {c}, I c → more c → I (body c))
    (hmore : ∀ {c d}, Abreast ts c d → c.rest ≠ [] → more' d = more c)
    (hbody : ∀ {c d}, Abreast ts c d → c.rest ≠ [] → I c → more c →
      Beside ts .ended (body c) (body' d))
    (hend : ∀ {c}, c.stopped → more c = false ∧ more' c = false) :
    Beside ts .ended (c.loopWhile more body) (d.loopWhile more' body') := by
  refine h.loop hi (fun {c} h => ?_) (fun {c c'} hi hc => ?_) (fun {c d} h hne hi => ?_)
    fun {c d} h _ => ?_
  · split_ifs with hm
    · exact hf h hm
    · exact h
  · split_ifs at hc with hm
    · obtain rfl := Turn.again.inj hc
      exact hI hi hm
  · exact turnWhile (hmore h (hne rfl)) (hbody h (hne rfl) hi) (h.ended (hne rfl))
  · have hc : c.stopped := by simp [stopped, atEnd, h.nil]
    have hd : d.stopped := by simp [stopped, atEnd, h.nil']
    exact ⟨c, d, by simp [(hend hc).1], by simp [(hend hd).2], h.beside⟩

end Beside

end Cursor

end RequestFile
