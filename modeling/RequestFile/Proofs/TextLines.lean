import RequestFile.Proofs.Lines
import RequestFile.Proofs.Scan

/-!
Lines of a source and lines of tokens.

`textLines` cuts a text where it has a line feed, a carriage return, or both in this order; the last
line may lack its terminator. The parser measures bodies in lines of tokens, and these are the lines
of the source (`Token.overLines_scanFrom`): a line of tokens holds a line of text if it has what stands
on the line and its terminator, is as blank, and ends a text body just if the line does
(`Token.OverLine`). So the lines of a source are read off its tokens (`Token.textLines_eq_map`).
-/

namespace RequestFile

/-! ### Lines of a text -/

/-- A line of a text: what stands on it, and its terminator, which the last line may lack. -/
structure TextLine where
  content : List Char
  ending : List Char
deriving DecidableEq, Repr

namespace TextLine

variable (l : TextLine)

/-- The characters of a line. -/
def chars : List Char :=
  l.content ++ l.ending

/-- Whether nothing but blanks stands on a line. -/
def isBlank : Bool :=
  l.content.all RequestFile.isBlank

/-- The beginnings of a line that end a text body. -/
def stops : List String :=
  ["###", ">", ">>"]

/-- Whether a line ends a text body. -/
def stopsBody : Bool :=
  stops.any fun s => s.toList.isPrefixOf l.content

/-- The leaves of a line in a text body: one for what stands on it, if there is anything, and one for
its terminator. -/
def trees : List Tree :=
  (if l.content = [] then [] else [.leaf .text (String.ofList l.content)]) ++
    (if l.ending = [] then [] else [.leaf .newline (String.ofList l.ending)])

end TextLine

/-- Lines behind some characters of the first one. -/
def onto (w : List Char) : List TextLine → List TextLine
  | [] => [⟨w, []⟩]
  | l :: ls => ⟨w ++ l.content, l.ending⟩ :: ls

/-- The lines of a text. -/
def textLines : List Char → List TextLine
  | [] => []
  | '\r' :: '\n' :: cs => ⟨[], ['\r', '\n']⟩ :: textLines cs
  | c :: cs => if c = '\n' ∨ c = '\r' then ⟨[], [c]⟩ :: textLines cs else onto [c] (textLines cs)

variable {c : Char} {cs w : List Char} {l : TextLine} {ls : List TextLine}

lemma onto_onto (w w' : List Char) (ls : List TextLine) :
    onto w (onto w' ls) = onto (w ++ w') ls := by
  cases ls <;> simp [onto]

lemma textLines_break (hc : c = '\n' ∨ c = '\r') (hcs : c = '\r' → cs.head? ≠ some '\n') :
    textLines (c :: cs) = ⟨[], [c]⟩ :: textLines cs := by
  rw [textLines.eq_def]
  split
  · next h => cases h
  · next h =>
      obtain ⟨rfl, rfl⟩ := List.cons.inj h
      exact absurd rfl (hcs rfl)
  · next h =>
      obtain ⟨rfl, rfl⟩ := List.cons.inj h
      rw [if_pos hc]

lemma textLines_cons (hc : c ≠ '\n' ∧ c ≠ '\r') : textLines (c :: cs) = onto [c] (textLines cs) := by
  rw [textLines.eq_def]
  split
  · next h => cases h
  · next h => exact absurd (List.cons.inj h).1 hc.2
  · next h =>
      obtain ⟨rfl, rfl⟩ := List.cons.inj h
      rw [if_neg (not_or.mpr hc)]

/-- What stands on one line goes to the first line. -/
lemma textLines_append (hne : w ≠ []) (h : ∀ c ∈ w, c ≠ '\n' ∧ c ≠ '\r') (cs : List Char) :
    textLines (w ++ cs) = onto w (textLines cs) := by
  induction w with
  | nil => exact absurd rfl hne
  | cons c w ih =>
      obtain ⟨hc, hw⟩ := List.forall_mem_cons.mp h
      rw [List.cons_append, textLines_cons hc]
      cases w with
      | nil => rfl
      | cons d w => rw [ih (List.cons_ne_nil d w) hw, onto_onto, List.singleton_append]

/-- What stands in front of some lines goes to the first of them. -/
lemma textLines_append_cons (hw : ∀ c ∈ w, c ≠ '\n' ∧ c ≠ '\r') (h : textLines cs = l :: ls) :
    textLines (w ++ cs) = ⟨w ++ l.content, l.ending⟩ :: ls := by
  by_cases hne : w = []
  · rw [hne, List.nil_append, List.nil_append, h]
  · rw [textLines_append hne hw, h, onto]

lemma flatMap_onto (w : List Char) (ls : List TextLine) :
    (onto w ls).flatMap TextLine.chars = w ++ ls.flatMap TextLine.chars := by
  cases ls <;> simp [onto, TextLine.chars]

/-- **Lines, put together again, are the text.** -/
lemma flatMap_textLines (cs : List Char) : (textLines cs).flatMap TextLine.chars = cs := by
  induction cs using textLines.induct with
  | case1 => rfl
  | case2 cs ih => rw [textLines, List.flatMap_cons, ih]; rfl
  | case3 c cs hnot hc ih =>
      have hlone : c = '\r' → cs.head? ≠ some '\n' := fun hr hhead => by
        obtain ⟨ds, rfl⟩ := List.head?_eq_some_iff.mp hhead
        exact hnot ds hr rfl
      rw [textLines_break hc hlone, List.flatMap_cons, ih]
      rfl
  | case4 c cs hnot hc ih => rw [textLines_cons (not_or.mp hc), flatMap_onto, ih]; rfl

/-- What stands on the first line, and what begins with its terminator. -/
lemma exists_of_textLines (h : textLines cs = l :: ls) : ∃ rest, cs = l.content ++ rest ∧
    (∀ c ∈ l.content, c ≠ '\n' ∧ c ≠ '\r') ∧ ∀ c ∈ rest.head?, c = '\n' ∨ c = '\r' := by
  induction cs using textLines.induct generalizing l ls with
  | case1 => cases h
  | case2 cs ih =>
      rw [textLines] at h
      obtain ⟨rfl, rfl⟩ := List.cons.inj h
      exact ⟨_, rfl, by simp, by simp⟩
  | case3 c cs hnot hc ih =>
      -- a terminator is not content, and a carriage return here stands alone
      have hcontent : l.content = [] := by
        have hlone : c = '\r' → cs.head? ≠ some '\n' := fun hr hhead => by
          obtain ⟨ds, rfl⟩ := List.head?_eq_some_iff.mp hhead
          exact hnot ds hr rfl
        rw [textLines_break hc hlone] at h
        rw [← (List.cons.inj h).1]
      rw [hcontent]
      exact ⟨_, rfl, by simp, by simpa using hc⟩
  | case4 c cs hnot hc ih =>
      rw [textLines_cons (not_or.mp hc)] at h
      cases hls : textLines cs with
      | nil =>
          rw [hls, onto] at h
          obtain ⟨rfl, rfl⟩ := List.cons.inj h
          have hcs := flatMap_textLines cs
          rw [hls, List.flatMap_nil] at hcs
          exact ⟨[], by rw [← hcs, List.append_nil], by simpa using not_or.mp hc, by simp⟩
      | cons l' ls' =>
          rw [hls, onto] at h
          obtain ⟨rfl, rfl⟩ := List.cons.inj h
          obtain ⟨rest, hcs, hone, hrest⟩ := ih hls
          refine ⟨rest, ?_, List.forall_mem_cons.mpr ⟨not_or.mp hc, hone⟩, hrest⟩
          dsimp only
          rw [List.singleton_append, List.cons_append, ← hcs]

/-- What stands on the first line stands at the front. -/
lemma content_prefix_of_textLines (h : textLines cs = l :: ls) : l.content <+: cs := by
  obtain ⟨rest, hcs, _⟩ := exists_of_textLines h
  exact ⟨rest, hcs.symm⟩

/-! ### Lines of tokens -/

namespace Token

/-- The leaves of a line of tokens in a text body. -/
def lineTrees (ts : List Token) : List Tree :=
  (if Lookahead.line ts = [] then [] else [.leaf .text (textOf (Lookahead.line ts))]) ++
    (ts.drop (Lookahead.lineLength ts)).map fun t => .leaf .newline t.text

/-- A line of tokens holds a line of text, and is told by what stands on it. -/
structure OverLine (ts : List Token) (l : TextLine) : Prop where
  content : textOf (Lookahead.line ts) = String.ofList l.content
  empty : Lookahead.line ts = [] ↔ l.content = []
  ending : ts.drop (Lookahead.lineLength ts)
    = if l.ending = [] then [] else [⟨.newline, String.ofList l.ending⟩]
  blank : Lookahead.isBlankLine ts = l.isBlank
  stop : Lookahead.isBodyStop ts = l.stopsBody

namespace OverLine

variable {t : Token} {ts : List Token}

lemma text (h : OverLine ts l) : textOf ts = String.ofList l.chars := by
  have hline : ts = Lookahead.line ts ++ ts.drop (Lookahead.lineLength ts) := by
    rw [← Lookahead.take_lineLength, List.take_append_drop]
  rw [hline, textOf_append, h.content, h.ending, TextLine.chars, String.ofList_append]
  split_ifs with hnil
  · rw [hnil]
    rfl
  · simp [textOf_cons]

/-- The leaves of a line are those of the text. -/
lemma trees (h : OverLine ts l) : lineTrees ts = l.trees := by
  rw [lineTrees, TextLine.trees, h.content, h.ending]
  simp only [h.empty]
  split_ifs <;> rfl

/-- The end of a text holds an empty line. -/
lemma nil : OverLine [] ⟨[], []⟩ where
  content := rfl
  empty := by simp [Lookahead.line]
  ending := rfl
  blank := rfl
  stop := rfl

/-- A terminator alone on its line. -/
lemma newline (hk : t.kind = .newline) (hne : t.text ≠ "") : OverLine [t] ⟨[], t.text.toList⟩ where
  content := by simp [Lookahead.line, hk]
  empty := by simp [Lookahead.line, hk]
  ending := by
    obtain ⟨k, s⟩ := t
    obtain rfl : k = .newline := hk
    simp [Lookahead.lineLength, hne]
  blank := by simp [Lookahead.isBlankLine_cons, hk, TextLine.isBlank]
  stop := by simp [Lookahead.isBodyStop, hk, TextLine.stopsBody, TextLine.stops]

/-- A token in front of a line. -/
lemma cons (h : OverLine ts l) (hk : t.kind ≠ .newline) (hne : t.text ≠ "")
    (hblank : t.text.toList.all isBlank = decide (t.kind = .whitespace))
    (hstop : Lookahead.isBodyStop [t]
      = TextLine.stopsBody ⟨t.text.toList ++ l.content, l.ending⟩) :
    OverLine (t :: ts) ⟨t.text.toList ++ l.content, l.ending⟩ where
  content := by
    have hline : Lookahead.line (t :: ts) = t :: Lookahead.line ts := by simp [Lookahead.line, hk]
    rw [hline, textOf_cons, h.content, String.ofList_append, String.ofList_toList]
  empty := by simp [Lookahead.line, hk, hne]
  ending := by
    rw [Lookahead.lineLength_cons, if_neg hk, List.drop_succ_cons, h.ending]
  blank := by
    rw [Lookahead.isBlankLine_cons, TextLine.isBlank, List.all_append, hblank, h.blank,
      TextLine.isBlank]
    by_cases hw : t.kind = .whitespace <;> simp [hw, hk]
  stop := hstop

end OverLine

/-- Blanks are runs of blanks, and no other token begins with one. -/
lemma all_isBlank_lead (b : Bool) (c : Char) (cs : List Char) :
    (c :: cs.take (lead b c cs).2).all isBlank = decide ((lead b c cs).1 = .whitespace) := by
  by_cases hk : (lead b c cs).1 = .whitespace
  · obtain ⟨hc, hn⟩ := RunKind.whitespace.of_lead hk
    rw [decide_eq_true hk, hn, take_runLength, List.all_cons, hc, Bool.true_and, List.all_eq_true]
    exact fun d hd => List.mem_takeWhile_imp hd
  · have hc : isBlank c = false :=
      Bool.eq_false_iff.mpr fun hc => hk (by rw [RunKind.whitespace.lead_eq hc])
    rw [decide_eq_false hk, List.all_cons, hc, Bool.false_and]

lemma two_le_runLength {cs : List Char} : 2 ≤ runLength (· == '#') cs ↔ ['#', '#'] <+: cs := by
  constructor
  · intro h
    have hrun : cs.takeWhile (· == '#') = List.replicate (runLength (· == '#') cs) '#' :=
      List.eq_replicate_iff.mpr ⟨rfl, fun d hd => by simpa using List.mem_takeWhile_imp hd⟩
    obtain ⟨n, hn⟩ := Nat.exists_eq_add_of_le' h
    rw [hn, List.replicate_succ, List.replicate_succ] at hrun
    have hfront : ['#', '#'] <+: cs.takeWhile (· == '#') := ⟨_, hrun.symm⟩
    exact hfront.trans (List.takeWhile_prefix _)
  · rintro ⟨ds, rfl⟩
    simp [runLength]

/-- A token that ends a text body is one or two angles, or a marker of at least three hashes. -/
lemma isBodyStop_lead (b : Bool) (c : Char) (cs : List Char) (s : String) :
    Lookahead.isBodyStop [⟨(lead b c cs).1, s⟩] ↔ c = '>' ∨ c = '#' ∧ ['#', '#'] <+: cs := by
  have hkinds : ∀ k, Lookahead.isBodyStop [⟨k, s⟩] ↔
      k = .separatorMarker ∨ k = .angleClose ∨ k = .redirectMarker := by
    simp [Lookahead.isBodyStop, or_assoc]
  rw [hkinds, ← two_le_runLength]
  by_cases hhash : c = '#'
  · subst hhash
    rw [lead_hash]
    split_ifs with hn <;> simp [hn]
  -- for other characters the tables of pairs and symbols tell
  have hpairs : ∀ q ∈ pairs, (q.2 = .separatorMarker ∨ q.2 = .angleClose ∨ q.2 = .redirectMarker) →
      q.1.1 = '>' := by decide
  have hsymbols : ∀ q ∈ symbols,
      (q.2 = .separatorMarker ∨ q.2 = .angleClose ∨ q.2 = .redirectMarker ↔ q.1 = '>') := by decide
  have hangle : ∀ q ∈ pairs, q.1.1 = '>' → q.2 = .redirectMarker := by decide
  simp only [hhash, false_and, or_false]
  have hl := led_lead b c cs
  generalize lead b c cs = r at hl
  -- an angle is led as a redirect, a pair or a symbol, since the tables have it
  cases hl with
  | word hc | blank hc | garbage hc =>
      refine ⟨fun h => by simp at h, ?_⟩
      rintro rfl
      exact absurd hc (by decide)
  | marker hc | hash hc => exact absurd hc hhash
  | dash hc =>
      refine ⟨fun h => by simp at h, ?_⟩
      rintro rfl
      cases hc
  | redirect hc => simp [hc]
  | pair _ hm => exact ⟨hpairs _ hm, fun hc => .inr (.inr (hangle _ hm hc))⟩
  | symbol hm => exact hsymbols _ hm
  | punct _ _ _ _ hnone =>
      refine ⟨fun h => by simp at h, ?_⟩
      rintro rfl
      cases hnone

/-- What ends a text body is told by its first token. -/
lemma isBodyStop_eq (b : Bool) (c : Char) (cs : List Char) {ds : List Char}
    (hds : ds <+: cs.drop (lead b c cs).2) (s : String) (e : List Char) :
    Lookahead.isBodyStop [⟨(lead b c cs).1, s⟩]
      = TextLine.stopsBody ⟨c :: cs.take (lead b c cs).2 ++ ds, e⟩ := by
  have hstops : ∀ w, TextLine.stopsBody ⟨c :: w, e⟩ ↔ c = '>' ∨ c = '#' ∧ ['#', '#'] <+: w := by
    intro w
    have hmarker : "###".toList = ['#', '#', '#'] ∧ ">".toList = ['>'] ∧ ">>".toList = ['>', '>'] := by
      decide
    simp only [TextLine.stopsBody, TextLine.stops, List.any_cons, List.any_nil, Bool.or_false,
      Bool.or_eq_true, List.isPrefixOf_iff_prefix, hmarker, List.cons_prefix_cons, List.nil_prefix,
      eq_comm (b := c)]
    tauto
  have hfront : cs.take (lead b c cs).2 ++ ds <+: cs := by
    obtain ⟨rest, hrest⟩ := hds
    exact ⟨rest, by rw [List.append_assoc, hrest, List.take_append_drop]⟩
  rw [Bool.eq_iff_iff, isBodyStop_lead, List.cons_append, hstops]
  refine or_congr_right (and_congr_right fun hc => ⟨fun h => ?_, fun h => h.trans hfront⟩)
  subst hc
  have hn := two_le_runLength.mpr h
  have htwo : ['#', '#'] <+: cs.take (runLength (· == '#') cs) :=
    List.prefix_take_iff.mpr ⟨h, hn⟩
  rw [lead_hash, if_pos hn]
  exact htwo.trans (List.prefix_append _ _)

/-- A carriage return takes a line feed behind it along. -/
lemma lead_return (b : Bool) (cs : List Char) : lead b '\r' ('\n' :: cs) = (.newline, 1) := by
  obtain ⟨hword, hblank, hstray, hhash, hdash⟩ := break_facts (.inr rfl : '\r' = '\n' ∨ '\r' = '\r')
  have hpair : pairKind? '\r' ('\n' :: cs) = some .newline := rfl
  simp [lead, hword, hblank, hstray, hpair]

/-- A terminator is a line of its own. -/
lemma textLines_newline {b : Bool} {c : Char} {cs : List Char} (hk : (lead b c cs).1 = .newline) :
    textLines (c :: cs)
      = ⟨[], c :: cs.take (lead b c cs).2⟩ :: textLines (cs.drop (lead b c cs).2) := by
  rcases lead_newline hk with ⟨hc, hn⟩ | ⟨rfl, hhead, hn⟩
  · have hlone : c = '\r' → cs.head? ≠ some '\n' := by
      rintro rfl hhead
      obtain ⟨ds, rfl⟩ := List.head?_eq_some_iff.mp hhead
      rw [lead_return] at hn
      cases hn
    rw [hn, textLines_break hc hlone]
    rfl
  · obtain ⟨ds, rfl⟩ := List.head?_eq_some_iff.mp hhead
    rw [hn, textLines]
    rfl

/-- Another token stands on the first line. -/
lemma textLines_token {b : Bool} {c : Char} {cs : List Char} (hk : (lead b c cs).1 ≠ .newline) :
    textLines (c :: cs)
      = onto (c :: cs.take (lead b c cs).2) (textLines (cs.drop (lead b c cs).2)) := by
  have hone : ∀ x ∈ c :: cs.take (lead b c cs).2, x ≠ '\n' ∧ x ≠ '\r' := fun x hx =>
    ⟨fun h => hk (lead_of_mem_break (.inl h) hx), fun h => hk (lead_of_mem_break (.inr h) hx)⟩
  have htext := textLines_append (List.cons_ne_nil _ _) hone (cs.drop (lead b c cs).2)
  rwa [List.cons_append, List.take_append_drop] at htext

/-- **Lines of tokens are lines of the text.** -/
lemma overLines_scanFrom (b : Bool) (cs : List Char) :
    List.Forall₂ OverLine (Lookahead.splitLines (scanFrom b 0 cs)) (textLines cs) := by
  induction b, cs using scanFrom_induction with
  | nil b => exact .nil
  | cons b c cs ih =>
      have hne : String.ofList (c :: cs.take (lead b c cs).2) ≠ "" := by simp
      have hchars : (String.ofList (c :: cs.take (lead b c cs).2)).toList
          = c :: cs.take (lead b c cs).2 := String.toList_ofList
      rw [scanFrom_cons, Lookahead.splitLines]
      split_ifs with hk
      · have hline := OverLine.newline hk hne
        rw [hchars] at hline
        rw [textLines_newline hk]
        exact .cons hline ih
      · have hcons : ∀ {ts l}, OverLine ts l → l.content <+: cs.drop (lead b c cs).2 →
            OverLine (⟨(lead b c cs).1, String.ofList (c :: cs.take (lead b c cs).2)⟩ :: ts)
              ⟨c :: cs.take (lead b c cs).2 ++ l.content, l.ending⟩ := by
          intro ts l h hfront
          have hline := h.cons (t := ⟨_, _⟩) hk hne (by rw [hchars, all_isBlank_lead])
            (by rw [hchars]; exact isBodyStop_eq b c cs hfront _ _)
          rwa [hchars] at hline
        rw [textLines_token hk]
        generalize hls : textLines (cs.drop (lead b c cs).2) = ls at ih
        generalize Lookahead.splitLines (scanFrom _ 0 (cs.drop (lead b c cs).2)) = tss at ih
        cases ih with
        | nil => exact .cons (by simpa using hcons .nil List.nil_prefix) .nil
        | cons h hs => exact .cons (hcons h (content_prefix_of_textLines hls)) hs

/-- The line of text that a line of tokens holds. -/
def lineOf (ts : List Token) : TextLine :=
  ⟨(textOf (Lookahead.line ts)).toList, (textOf (ts.drop (Lookahead.lineLength ts))).toList⟩

lemma OverLine.eq_lineOf {ts : List Token} {l : TextLine} (h : OverLine ts l) : l = lineOf ts := by
  obtain ⟨content, ending⟩ := l
  rw [lineOf, h.content, h.ending, String.toList_ofList]
  split_ifs with hnil
  · obtain rfl : ending = [] := hnil
    rfl
  · simp [textOf_cons]

/-- The lines of a source, by its tokens. -/
lemma textLines_eq_map (source : String) :
    textLines source.toList = (Lookahead.splitLines (scan source)).map lineOf ∧
      ∀ ts ∈ Lookahead.splitLines (scan source), OverLine ts (lineOf ts) := by
  have hlines := overLines_scanFrom true source.toList
  rw [← scan] at hlines
  generalize Lookahead.splitLines (scan source) = tss, textLines source.toList = ls at hlines
  induction hlines with
  | nil => exact ⟨rfl, by simp⟩
  | cons h _ ih =>
      obtain rfl := h.eq_lineOf
      exact ⟨by rw [ih.1, List.map_cons], List.forall_mem_cons.mpr ⟨h, ih.2⟩⟩

end Token

end RequestFile
