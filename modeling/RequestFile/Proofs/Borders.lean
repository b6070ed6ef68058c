import RequestFile.Proofs.Scan

/-!
Texts that are scanned apart.

* **Borders.** Where no token can go on from one text to the next (`Borders`), the first is scanned
  apart (`scanFrom_append_of_borders`). The first token does not see what is behind the border
  (`Borders.lead_append`), and all that goes from one token to the next is whether a line begins.
* **Marks and runs.** A run of a class of characters is one token (`scanFrom_run`), and what stands
  in front of a terminator, a space or a colon is scanned apart (`scanFrom_stop`).
* **Lines are scanned apart** (`scan_append_of_endsLine`), and so are sections
  (`scan_append_of_startsSection`).
-/

namespace RequestFile

namespace Token

variable {c : Char} {cs : List Char}

/-! ### Borders -/

/-- No token that holds `x` goes on with `y`. -/
structure Parted (x y : Char) : Prop where
  run : ∀ k p, RunKind k p → p x → p y = false
  hash : x = '#' → y ≠ '#'
  pair : ∀ k, ((x, y), k) ∉ pairs
  bang : x = '>' → y ≠ '!'

/-- No token goes on from one text to the next. -/
def Borders (as bs : List Char) : Prop :=
  ∀ x ∈ as.getLast?, ∀ y ∈ bs.head?, Parted x y

/-- A run goes on up to the first character outside of its class. -/
lemma runLength_eq {p : Char → Bool} {ws ds : List Char} (h : ∀ c ∈ ws, p c)
    (hd : ∀ d ∈ ds.head?, p d = false) : runLength p (ws ++ ds) = ws.length := by
  rw [runLength, List.takeWhile_append_of_pos h]
  cases ds with
  | nil => simp
  | cons d ds => simp [hd d rfl]

/-- A run that would not go on in the next text ends where it ends in its own. -/
lemma runLength_append_of_stop {p : Char → Bool} {ds : List Char} (hc : p c)
    (h : ∀ x ∈ (c :: cs).getLast?, ∀ y ∈ ds.head?, p x → p y = false) :
    runLength p (cs ++ ds) = runLength p cs := by
  rw [runLength, runLength, List.takeWhile_append]
  split_ifs with hlen
  · have hall := List.takeWhile_eq_self_iff.mp ((List.takeWhile_prefix p).eq_of_length hlen)
    have hlast : p ((c :: cs).getLast (List.cons_ne_nil c cs)) := by
      rcases List.mem_cons.mp (List.getLast_mem (List.cons_ne_nil c cs)) with heq | hmem
      · rwa [heq]
      · exact hall _ hmem
    have hnil : ds.takeWhile p = [] := by
      cases ds with
      | nil => rfl
      | cons d ds =>
          have hd := h _ (List.getLast?_eq_some_getLast _) d rfl hlast
          rw [List.takeWhile_cons_of_neg (by simp [hd])]
    rw [hnil, List.append_nil, List.takeWhile_eq_self_iff.mpr hall]
  · rfl

/-- Two characters that are no token. -/
lemma pairKind?_eq_none (h : ∀ d ∈ cs.head?, ∀ k, ((c, d), k) ∉ pairs) : pairKind? c cs = none := by
  rw [pairKind?, Option.bind_eq_none_iff]
  intro d hd
  rw [List.lookup_eq_none_iff]
  rintro ⟨p, k⟩ hp
  rw [bne_iff_ne]
  rintro rfl
  exact h d hd k hp

namespace Borders

variable {ds : List Char}

/-- A run of a class ends at a border. -/
lemma runLength_append (h : Borders (c :: cs) ds) {k : Kind} {p : Char → Bool} (hk : RunKind k p)
    (hc : p c) : runLength p (cs ++ ds) = runLength p cs :=
  runLength_append_of_stop hc fun x hx y hy => (h x hx y hy).run k p hk

/-- A run of hashes ends at a border. -/
lemma runLength_hash (h : Borders ('#' :: cs) ds) :
    runLength (· == '#') (cs ++ ds) = runLength (· == '#') cs := by
  refine runLength_append_of_stop (beq_self_eq_true '#') fun x hx y hy hxe => ?_
  exact beq_eq_false_iff_ne.mpr ((h x hx y hy).hash (beq_iff_eq.mp hxe))

/-- A run of hyphens ends at a border, for two hyphens are a token. -/
lemma runLength_hyphen (h : Borders ('-' :: cs) ds) :
    runLength (· == '-') (cs ++ ds) = runLength (· == '-') cs := by
  refine runLength_append_of_stop (beq_self_eq_true '-') fun x hx y hy hxe => ?_
  obtain rfl := beq_iff_eq.mp hxe
  refine beq_eq_false_iff_ne.mpr ?_
  rintro rfl
  exact (h _ hx _ hy).pair .doubleDash (by decide)

lemma pairKind?_append (h : Borders (c :: cs) ds) : pairKind? c (cs ++ ds) = pairKind? c cs := by
  cases cs with
  | nil => exact pairKind?_eq_none fun d hd k => (h c rfl d hd).pair k
  | cons d cs => rfl

/-- A redirection takes its exclamation mark on its own side of a border. -/
lemma bang_append (h : Borders (c :: cs) ds) (hp : pairKind? c cs = some .redirectMarker) :
    ((cs ++ ds)[1]? == some '!') = (cs[1]? == some '!') := by
  obtain ⟨d, hd, hk⟩ := Option.bind_eq_some_iff.mp hp
  obtain ⟨rfl, rfl⟩ : c = '>' ∧ d = '>' := by simpa [pairs] using mem_of_lookup hk
  obtain ⟨es, rfl⟩ := List.head?_eq_some_iff.mp hd
  cases es with
  | cons e es => rfl
  | nil =>
      cases ds with
      | nil => rfl
      | cons y ds => simpa using (h '>' rfl y rfl).bang rfl

/-- The first token does not depend on what follows a border. -/
lemma lead_append (h : Borders (c :: cs) ds) (b : Bool) : lead b c (cs ++ ds) = lead b c cs := by
  by_cases hc : ∃ k p, RunKind k p ∧ p c
  · obtain ⟨k, p, hk, hc⟩ := hc
    rw [hk.lead_eq hc, hk.lead_eq hc, h.runLength_append hk hc]
  have hout : ∀ k p, RunKind k p → ¬p c := fun k p hk hpc => hc ⟨k, p, hk, hpc⟩
  -- a dash is the one class that asks how long the run behind it is
  have hdash : (c == '-' && !b && runLength (· == '-') (cs ++ ds) == 2)
      = (c == '-' && !b && runLength (· == '-') cs == 2) := by
    by_cases hd : c = '-'
    · subst hd
      rw [h.runLength_hyphen]
    · rw [beq_eq_false_iff_ne.mpr hd]
      rfl
  rw [lead, lead, if_neg (hout _ _ .word), if_neg (hout _ _ .whitespace),
    if_neg (hout _ _ .garbage), if_neg (hout _ _ .word), if_neg (hout _ _ .whitespace),
    if_neg (hout _ _ .garbage), h.pairKind?_append, hdash]
  by_cases hh : c = '#'
  · subst hh
    rw [if_pos (beq_self_eq_true '#'), if_pos (beq_self_eq_true '#'), h.runLength_hash]
  have hhash : ¬(c == '#') := fun heq => hh (beq_iff_eq.mp heq)
  rw [if_neg hhash, if_neg hhash]
  split
  · rfl
  · split
    · next hp => rw [h.bang_append hp]
    · rfl
    · rfl

/-- What is left of a text has its border. -/
lemma drop (h : Borders (c :: cs) ds) (n : Nat) : Borders (cs.drop n) ds := by
  intro x hx
  rw [List.getLast?_drop] at hx
  split_ifs at hx with hlen
  · cases hx
  · refine h x ?_
    rw [List.getLast?_cons, hx]
    rfl

end Borders

/-- A mark goes on with no run, and with fixed texts only as they say. -/
lemma parted_of_mark {x y : Char} (hy : y ∈ marks) (hhash : y = '#' → x ≠ '#') (hbang : y ≠ '!')
    (hpairs : ∀ q ∈ pairs, q.1.2 = y → q.1.1 ≠ x) : Parted x y where
  run := fun _ _ hk _ => hk.not_mark hy
  hash := fun hx hh => hhash hh hx
  pair := fun _ hm => hpairs _ hm rfl rfl
  bang := fun _ => hbang

/-- No token goes on from another character to a blank. -/
lemma parted_of_blank {x y : Char} (hx : isBlank x = false) (hy : isBlank y) : Parted x y where
  run := fun k p hk hp => Bool.eq_false_iff.mpr fun hpy => by
    obtain rfl := hk.kind_eq .whitespace hpy hy
    rw [hk.class_eq .whitespace, hx] at hp
    cases hp
  hash := by
    rintro - rfl
    exact absurd hy (by decide)
  pair := fun k hk => by
    have hpairs : ∀ q ∈ pairs, isBlank q.1.2 = false := by decide
    have hnot := hpairs _ hk
    rw [hy] at hnot
    cases hnot
  bang := by
    rintro - rfl
    exact absurd hy (by decide)

/-- **Borders**: a text from which no token goes on is scanned apart from what follows it. -/
lemma scanFrom_append_of_borders {as bs : List Char} (h : Borders as bs) (b : Bool) :
    scanFrom b 0 (as ++ bs)
      = scanFrom b 0 as ++ scanFrom (lineBegins b (String.ofList as)) 0 bs := by
  induction b, as using scanFrom_induction with
  | nil b => rfl
  | cons b c cs ih =>
      have htext : String.ofList (c :: cs) = String.ofList (c :: cs.take (lead b c cs).2)
          ++ String.ofList (cs.drop (lead b c cs).2) := by
        rw [← String.ofList_append, List.cons_append, List.take_append_drop]
      have hline : lineBegins b (String.ofList (c :: cs))
          = lineBegins ((lead b c cs).1 == .newline) (String.ofList (cs.drop (lead b c cs).2)) := by
        rw [htext, lineBegins_append, lineBegins_lead]
      rw [List.cons_append, scanFrom_cons, scanFrom_cons, h.lead_append,
        List.take_append_of_le_length (lead_le b c cs),
        List.drop_append_of_le_length (lead_le b c cs), ih (h.drop _), hline, List.cons_append]

/-- Whether a line begins in front of it matters to hyphens only. -/
lemma scanFrom_lineStart (h : ∀ d ∈ cs.head?, d ≠ '-') (b b' : Bool) :
    scanFrom b 0 cs = scanFrom b' 0 cs := by
  cases cs with
  | nil => rfl
  | cons c cs =>
      have hd : (c == '-') = false := beq_eq_false_iff_ne.mpr (h c rfl)
      have hlead : lead b c cs = lead b' c cs := by simp [lead, hd]
      rw [scanFrom_cons, scanFrom_cons, hlead]

/-- A run is one token. -/
lemma scanFrom_run {k : Kind} {p : Char → Bool} {ws : List Char} (hk : RunKind k p)
    (hne : ws ≠ []) (h : ∀ c ∈ ws, p c) (b : Bool) (ds : List Char)
    (hd : ∀ d ∈ ds.head?, p d = false) :
    scanFrom b 0 (ws ++ ds) = ⟨k, String.ofList ws⟩ :: scanFrom false 0 ds := by
  obtain ⟨c, cs, rfl⟩ := List.exists_cons_of_ne_nil hne
  obtain ⟨hc, hcs⟩ := List.forall_mem_cons.mp h
  have hline : (k == .newline) = false := by cases hk <;> rfl
  rw [List.cons_append, scanFrom_cons, hk.lead_eq hc, runLength_eq hcs hd, List.take_left,
    List.drop_left, hline]

/-! ### Stops -/

/-- A character at which no token goes on that holds `c`. -/
structure Stops (c x : Char) : Prop where
  kind : x = '\n' ∨ x = '\r' ∨ x = ' ' ∨ x = ':'
  notReturn : c ≠ '\r'
  notBlank : x = ' ' → isBlank c = false

lemma Stops.parted {c x : Char} (h : Stops c x) : Parted c x := by
  by_cases hx : x = ' '
  · subst hx
    exact parted_of_blank (h.notBlank rfl) (by decide)
  · have hmark : x = '\n' ∨ x = '\r' ∨ x = ':' := by
      have hkind := h.kind
      tauto
    have hpairs : ∀ q ∈ pairs, q.1.2 = x → q.1.1 = '\r' := by
      rcases hmark with rfl | rfl | rfl <;> decide
    refine parted_of_mark ?_ ?_ ?_ fun q hq hqx hqc => h.notReturn (hqc ▸ hpairs q hq hqx)
    all_goals rcases hmark with rfl | rfl | rfl <;> simp [marks, symbols]

/-- What stands in front of a stop is scanned apart. -/
lemma scanFrom_stop {x : Char} {cs : List Char} (h : ∀ c ∈ cs.getLast?, Stops c x)
    (hx : x = '\n' ∨ x = '\r' ∨ x = ' ' ∨ x = ':') (b : Bool) (ds : List Char) :
    scanFrom b 0 (cs ++ x :: ds) = scanFrom b 0 cs ++ scanFrom false 0 (x :: ds) := by
  have hborders : Borders cs (x :: ds) := by
    intro c hc y hy
    obtain rfl := Option.some.inj hy
    exact (h c hc).parted
  have hhyphen : ∀ d ∈ (x :: ds).head?, d ≠ '-' := by
    intro d hd
    obtain rfl := Option.some.inj hd
    rcases hx with rfl | rfl | rfl | rfl <;> decide
  rw [scanFrom_append_of_borders hborders, scanFrom_lineStart hhyphen _ false]

/-! ### Texts that end with a line terminator -/

/-- A token goes on behind a terminator only to complete it. -/
lemma parted_of_break {x y : Char} (hx : x = '\n' ∨ x = '\r') (h : x = '\r' → y ≠ '\n') :
    Parted x y where
  run := fun k p hk hpx => by
    rw [hk.not_mark (by rcases hx with rfl | rfl <;> decide)] at hpx
    cases hpx
  hash := by rcases hx with rfl | rfl <;> simp
  pair := fun k hk => by
    rcases hx with rfl | rfl <;> simp [pairs] at hk
    exact h rfl hk.1
  bang := by rcases hx with rfl | rfl <;> simp

/-- A text that ends with a terminator is scanned apart from what follows it, unless that completes
the terminator. -/
lemma scanFrom_append {cs ds : List Char} (lineStart : Bool) (hb : endsWithBreak cs)
    (hd : cs.getLast? = some '\r' → ds.head? ≠ some '\n') :
    scanFrom lineStart 0 (cs ++ ds) = scanFrom lineStart 0 cs ++ scanFrom true 0 ds := by
  obtain ⟨x, hx, hbreak⟩ := exists_of_endsWithBreak hb
  have hborders : Borders cs ds := by
    intro x' hx' y hy
    obtain rfl := Option.some.inj (hx.symm.trans hx')
    refine parted_of_break hbreak ?_
    rintro rfl rfl
    exact hd hx hy
  rw [scanFrom_append_of_borders hborders, lineBegins_of_endsWithBreak hb]

/-- **Lines are scanned apart**: a text that ends a line gives its tokens whatever follows it, unless
that completes its last terminator. -/
lemma scan_append_of_endsLine {a b : String} (ha : endsLine a)
    (hb : a.toList.getLast? = some '\r' → b.toList.head? ≠ some '\n') :
    scan (a ++ b) = scan a ++ scan b := by
  rw [endsLine, Bool.or_eq_true, String.isEmpty_iff] at ha
  rw [scan, scan, scan, String.toList_append]
  rcases ha with rfl | ha
  · rfl
  · exact scanFrom_append true ha hb

/-- **Sections are scanned apart**: a separator completes no terminator. -/
lemma scan_append_of_startsSection {a b : String} (ha : endsLine a) (hb : startsSection b) :
    scan (a ++ b) = scan a ++ scan b := by
  refine scan_append_of_endsLine ha fun _ => ?_
  rw [startsSection, List.isPrefixOf_iff_prefix] at hb
  obtain ⟨ds, hds⟩ := hb
  rw [← hds]
  simp

end Token

end RequestFile
