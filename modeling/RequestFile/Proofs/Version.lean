import Mathlib.Data.List.DropRight
import RequestFile.Proofs.Canonical.Lines
import RequestFile.Proofs.Entered.Head
import RequestFile.Proofs.TextLines

/-!
Versions at the end of a line.

`cutVersion` reads off a text what a line holds of a URL, and the version that ends the line: its last
word, if that is `HTTP/` with a number and something else stands in front of it. The parser looks for
three tokens behind a blank, and finds what the text says (`Token.exists_content`).

* **Texts.** A version at the end of a line stands between blanks (`VersionEnd`), and `cutVersion`
  finds just such versions (`VersionEnd.cutVersion_eq`, `exists_of_cutVersion`).
* **Tokens.** The content of a line is scanned apart from what follows it (`Token.line_scanFrom`), and
  blanks and versions in it are tokens of their own (`Token.scan_versionEnd`).
* **Lines.** A URL goes on over indented lines until one ends with a version (`cutUrl`), and behind a
  line of tokens stand those of the lines that follow it (`Token.exists_nextLine`).
-/

namespace RequestFile

/-! ### Versions in a text -/

/-- A text without the blanks at its end. -/
def trimEnd (cs : List Char) : List Char :=
  cs.rdropWhile isBlank

/-- Whether a word is a version: `HTTP/` and a number. -/
def isVersionWord (w : List Char) : Bool :=
  "HTTP/".toList.isPrefixOf w && Lookahead.isVersionNumber (String.ofList (w.drop 5))

/-- What a line holds of a URL, and the version that ends the line behind it. -/
def cutVersion (cs : List Char) : List Char × Option (List Char) :=
  let word := (trimEnd cs).rtakeWhile (!isBlank ·)
  let front := trimEnd ((trimEnd cs).rdropWhile (!isBlank ·))
  if isVersionWord word ∧ front ≠ [] then (front, some word) else (trimEnd cs, none)

/-- A version `w` ends a line behind `u`, with blanks in front of it and maybe behind it. -/
structure VersionEnd (u gap w back : List Char) : Prop where
  nonempty : u ≠ []
  trimmed : ∀ c ∈ u.getLast?, isBlank c = false
  gap_ne : gap ≠ []
  gap : ∀ c ∈ gap, isBlank c
  version : isVersionWord w
  back : ∀ c ∈ back, isBlank c

variable {cs u gap w back : List Char}

/-- What is cut off at the end of a list is the longest run there. -/
lemma rdropWhile_append_run {α : Type} {p : α → Bool} {us vs : List α}
    (hu : ∀ x ∈ us.getLast?, p x = false) (hv : ∀ x ∈ vs, p x) :
    (us ++ vs).rdropWhile p = us ∧ (us ++ vs).rtakeWhile p = vs := by
  induction vs using List.reverseRecOn with
  | nil =>
      rw [List.append_nil, List.rdropWhile_eq_self_iff, List.rtakeWhile_eq_nil_iff]
      exact ⟨fun h => by simp [hu _ (List.getLast?_eq_some_getLast h)],
        fun h => by simp [hu _ (List.getLast?_eq_some_getLast h)]⟩
  | append_singleton vs x ih =>
      have hx : p x := hv x (by simp)
      obtain ⟨hdrop, htake⟩ := ih fun y hy => hv y (List.mem_append_left _ hy)
      rw [← List.append_assoc, List.rdropWhile_concat_pos _ _ _ hx,
        List.rtakeWhile_concat_pos _ _ _ hx, hdrop, htake]
      exact ⟨rfl, rfl⟩

lemma trimEnd_append (hu : ∀ c ∈ u.getLast?, isBlank c = false) (hb : ∀ c ∈ back, isBlank c) :
    trimEnd (u ++ back) = u :=
  (rdropWhile_append_run hu hb).1

lemma exists_trimEnd (cs : List Char) :
    ∃ back, cs = trimEnd cs ++ back ∧ (∀ c ∈ (trimEnd cs).getLast?, isBlank c = false) ∧
      ∀ c ∈ back, isBlank c := by
  refine ⟨cs.rtakeWhile isBlank, List.rdropWhile_append_rtakeWhile.symm, fun c hc => ?_,
    fun c hc => List.mem_rtakeWhile_imp hc⟩
  obtain ⟨hne, rfl⟩ := List.mem_getLast?_eq_getLast hc
  exact Bool.eq_false_iff.mpr (List.rdropWhile_last_not _ _ hne)

/-- A version is `HTTP/` with a number. -/
lemma exists_of_isVersionWord (h : isVersionWord w) :
    ∃ v : String, Lookahead.isVersionNumber v ∧ w = "HTTP/".toList ++ v.toList := by
  simp only [isVersionWord, Bool.and_eq_true, List.isPrefixOf_iff_prefix] at h
  obtain ⟨⟨v, rfl⟩, hv⟩ := h
  exact ⟨_, hv, by simp⟩

lemma isVersionWord_append {v : String} (hv : Lookahead.isVersionNumber v) :
    isVersionWord ("HTTP/".toList ++ v.toList) := by
  have hdrop : ("HTTP/".toList ++ v.toList).drop 5 = v.toList := rfl
  rw [isVersionWord, hdrop, String.ofList_toList, hv, Bool.and_true, List.isPrefixOf_iff_prefix]
  exact List.prefix_append _ _

/-- No blank stands in a version. -/
lemma not_isBlank_of_version (h : isVersionWord w) : w ≠ [] ∧ ∀ c ∈ w, isBlank c = false := by
  obtain ⟨v, hv, rfl⟩ := exists_of_isVersionWord h
  have hhttp : ∀ c ∈ "HTTP/".toList, isBlank c = false := by decide
  refine ⟨by simp, List.forall_mem_append.mpr ⟨hhttp, fun c hc => ?_⟩⟩
  have hword := (Token.isWordChar_of_version hv).2 c hc
  exact Bool.eq_false_iff.mpr fun hblank => by
    rw [Token.not_isWordChar_of_isBlank hblank] at hword
    cases hword

/-- A version at the end of a line is found. -/
lemma VersionEnd.cutVersion_eq (h : VersionEnd u gap w back) :
    cutVersion (u ++ (gap ++ (w ++ back))) = (u, some w) := by
  obtain ⟨hne, hnot⟩ := not_isBlank_of_version h.version
  have htrim : trimEnd (u ++ (gap ++ (w ++ back))) = u ++ gap ++ w := by
    rw [← List.append_assoc, ← List.append_assoc]
    refine trimEnd_append (fun c hc => ?_) h.back
    rw [List.getLast?_append_of_ne_nil _ hne] at hc
    exact hnot c (List.mem_of_getLast? hc)
  have hgap : ∀ x ∈ (u ++ gap).getLast?, (!isBlank x) = false := fun x hx => by
    rw [List.getLast?_append_of_ne_nil _ h.gap_ne] at hx
    rw [h.gap x (List.mem_of_getLast? hx)]
    rfl
  obtain ⟨hfront, hword⟩ := rdropWhile_append_run hgap fun c hc => by rw [hnot c hc]; rfl
  have hfront' : trimEnd (u ++ gap) = u := trimEnd_append h.trimmed h.gap
  simp only [cutVersion, htrim, hfront, hword, hfront']
  rw [if_pos ⟨h.version, h.nonempty⟩]

/-- Blanks between do not matter: a version behind anything else is found. -/
lemma cutVersion_append (hu : ∃ c ∈ u, isBlank c = false) (hne : gap ≠ [])
    (hgap : ∀ c ∈ gap, isBlank c) (hw : isVersionWord w) (hback : ∀ c ∈ back, isBlank c) :
    (cutVersion (u ++ (gap ++ (w ++ back)))).2 = some w := by
  obtain ⟨front, hsplit, htrimmed, hfront⟩ := exists_trimEnd u
  have hfull : trimEnd u ≠ [] := fun hnil => by
    obtain ⟨c, hc, hnot⟩ := hu
    rw [List.rdropWhile_eq_nil_iff.mp hnil c hc] at hnot
    cases hnot
  have hend : VersionEnd (trimEnd u) (front ++ gap) w back :=
    ⟨hfull, htrimmed, List.append_ne_nil_of_right_ne_nil front hne,
      List.forall_mem_append.mpr ⟨hfront, hgap⟩, hw, hback⟩
  have htext : u ++ (gap ++ (w ++ back)) = trimEnd u ++ (front ++ gap ++ (w ++ back)) := by
    rw [List.append_assoc front, ← List.append_assoc (trimEnd u), ← hsplit]
  rw [htext, hend.cutVersion_eq]

/-- A version that is found ends its line. -/
lemma exists_of_cutVersion (h : (cutVersion cs).2 = some w) :
    ∃ u gap back, cs = u ++ (gap ++ (w ++ back)) ∧ VersionEnd u gap w back := by
  simp only [cutVersion] at h
  split_ifs at h with hword
  obtain rfl := Option.some.inj h
  obtain ⟨back, hcs, _, hback⟩ := exists_trimEnd cs
  obtain ⟨gap, hgap, htrimmed, hblank⟩ := exists_trimEnd ((trimEnd cs).rdropWhile (!isBlank ·))
  have hsplit : trimEnd cs
      = (trimEnd cs).rdropWhile (!isBlank ·) ++ (trimEnd cs).rtakeWhile (!isBlank ·) :=
    List.rdropWhile_append_rtakeWhile.symm
  refine ⟨_, gap, back, ?_, hword.2, htrimmed, ?_, hblank, hword.1, hback⟩
  · rw [← List.append_assoc, ← List.append_assoc, ← hgap, ← hsplit, ← hcs]
  · -- a word goes on to the first blank in front of it
    rintro rfl
    rw [List.append_nil] at hgap
    rw [← hgap] at hword htrimmed
    have hlast := htrimmed _ (List.getLast?_eq_some_getLast hword.2)
    have hnot := List.rdropWhile_last_not (!isBlank ·) (trimEnd cs) hword.2
    simp only [hlast, Bool.not_false, not_true_eq_false] at hnot

lemma cutVersion_of_none (h : (cutVersion cs).2 = none) : cutVersion cs = (trimEnd cs, none) := by
  simp only [cutVersion] at h ⊢
  split_ifs at h ⊢
  rfl

/-! ### Lines of tokens -/

namespace Lookahead

variable {ts us vs bs : List Token} {t : Token}

lemma trimmedLength_append (ts : List Token) (hb : ∀ t ∈ bs, t.kind = .whitespace) :
    trimmedLength (ts ++ bs) = trimmedLength ts := by
  induction bs using List.reverseRecOn with
  | nil => rw [List.append_nil]
  | append_singleton bs t ih =>
      rw [← List.append_assoc, trimmedLength_concat _ (hb t (by simp)),
        ih fun u hu => hb u (List.mem_append_left _ hu)]

/-- A version is found where a blank and three tokens end the line. -/
lemma splitVersion_append (hu : ∀ t ∈ us.getLast?, t.kind ≠ .whitespace) (ht : t.kind = .whitespace)
    (hv : isVersion vs) (hlen : vs.length = 3) (hb : ∀ t ∈ bs, t.kind = .whitespace) :
    splitVersion (us ++ t :: (vs ++ bs)) = (us.length, some (us.length + 1)) := by
  obtain ⟨a, b, c, ds, rfl, _, _, _, hc, _⟩ := isVersion_iff.mp hv
  obtain rfl : ds = [] := List.length_eq_zero_iff.mp (by simpa using hlen)
  have hlast : ∀ x ∈ (us ++ t :: [a, b, c]).getLast?, x.kind ≠ .whitespace := by
    simp [List.getLast?_append, hc]
  have htrim : trimmedLength (us ++ t :: ([a, b, c] ++ bs)) = us.length + 4 := by
    have hsplit : us ++ t :: ([a, b, c] ++ bs) = (us ++ t :: [a, b, c]) ++ bs := by simp
    rw [hsplit, trimmedLength_append _ hb, trimmedLength_eq hlast]
    simp
  have hblank : (us ++ t :: ([a, b, c] ++ bs)).drop (us.length + 4 - 4) = t :: ([a, b, c] ++ bs) := by
    rw [Nat.add_sub_cancel, List.drop_left]
  have hversion : (us ++ t :: ([a, b, c] ++ bs)).drop (us.length + 4 - 3) = [a, b, c] ++ bs := by
    rw [show us.length + 4 - 3 = us.length + 1 by omega, ← List.drop_drop, List.drop_left]
    rfl
  have hfront : (us ++ t :: ([a, b, c] ++ bs)).take (us.length + 4 - 3) = us ++ [t] := by
    rw [show us.length + 4 - 3 = us.length + 1 by omega, List.take_add, List.take_left,
      List.drop_left]
    rfl
  have hfound : isVersion ([a, b, c] ++ bs) := isVersion_of_prefix hv (List.prefix_append _ _)
  rw [splitVersion]
  simp only [htrim, hblank, hversion, hfront]
  rw [if_pos (by simpa [ht] using hfound), trimmedLength_concat _ ht, trimmedLength_eq hu]
  rfl

lemma splitVersion_fst_of_none (h : (splitVersion ts).2 = none) :
    (splitVersion ts).1 = trimmedLength ts := by
  simp only [splitVersion] at h ⊢
  split_ifs at h ⊢
  rfl

/-- Where a version is found, a blank and three tokens end the line. -/
lemma exists_of_splitVersion {i : Nat} (h : (splitVersion ts).2 = some i) :
    ∃ us t vs bs, ts = us ++ t :: (vs ++ bs) ∧ t.kind = .whitespace ∧ isVersion vs ∧
      vs.length = 3 ∧ ∀ t ∈ bs, t.kind = .whitespace := by
  obtain ⟨front, bs, hts, hfront, _, hb⟩ := exists_trimmed ts
  simp only [splitVersion] at h
  split_ifs at h with hv
  simp only [Bool.and_eq_true, decide_eq_true_eq] at hv
  obtain ⟨⟨hlen, hblank⟩, hversion⟩ := hv
  obtain ⟨t, rest, hrest, ht⟩ := exists_of_startsWith hblank
  have hle := isVersion_le hversion
  have hdrop : rest = ts.drop (trimmedLength ts - 3) := by
    rw [show trimmedLength ts - 3 = trimmedLength ts - 4 + 1 by omega, ← List.drop_drop, hrest]
    rfl
  refine ⟨ts.take (trimmedLength ts - 4), t, rest.take 3, bs, ?_, ht,
    hdrop ▸ isVersion_take hversion, ?_, hb⟩
  · have hbs : rest.drop 3 = bs := by
      rw [hdrop, List.drop_drop, show trimmedLength ts - 3 + 3 = trimmedLength ts by omega]
      calc ts.drop (trimmedLength ts) = (front ++ bs).drop front.length := by rw [← hts, hfront]
        _ = bs := List.drop_left
    rw [← hbs, List.take_append_drop, ← hrest, List.take_append_drop]
  · rw [List.length_take_of_le]
    rw [hdrop]
    exact hle.trans (lineLength_le _)

end Lookahead

namespace Token

open Lookahead (splitVersion isVersion line)

variable {b : Bool} {cs u gap w back : List Char} {l : TextLine} {ls : List TextLine}

/-! ### Lines are scanned apart -/

/-- **What stands on a line** is scanned apart from what follows it. -/
lemma line_scanFrom (h : textLines cs = l :: ls) (b : Bool) :
    line (scanFrom b 0 cs) = scanFrom b 0 l.content := by
  obtain ⟨rest, rfl, hone, hrest⟩ := exists_of_textLines h
  have hborders : Borders l.content rest := fun x hx y hy => by
    have hx' := hone x (List.mem_of_getLast? hx)
    have hstop : Stops x y :=
      ⟨(hrest y hy).imp_right .inl, hx'.2, fun hy' => by
        rcases hrest y hy with rfl | rfl <;> exact absurd hy' (by decide)⟩
    exact hstop.parted
  have hkind : ∀ t ∈ (scanFrom (lineBegins b (String.ofList l.content)) 0 rest).head?,
      t.kind = .newline := by
    intro t ht
    cases rest with
    | nil => cases ht
    | cons c rest =>
        rw [scanFrom_cons, List.head?_cons] at ht
        obtain rfl := Option.some.inj ht
        exact lead_of_mem_break (hrest c rfl) List.mem_cons_self
  rw [scanFrom_append_of_borders hborders, line,
    List.takeWhile_append_of_pos (by simpa using newline_of_oneLine hone b)]
  generalize scanFrom (lineBegins b (String.ofList l.content)) 0 rest = ts at hkind
  cases ts with
  | nil => simp
  | cons t ts => simp [hkind t rfl]

/-! ### Versions in a line of tokens -/

/-- Blanks are blanks. -/
lemma kind_of_blanks (h : ∀ c ∈ back, isBlank c) (b : Bool) :
    ∀ t ∈ scanFrom b 0 back, t.kind = .whitespace := by
  by_cases hne : back = []
  · subst hne
    simp [scanFrom]
  · have hrun := scanFrom_run .whitespace hne h b [] (by simp)
    rw [List.append_nil] at hrun
    rw [hrun]
    simp [scanFrom]

lemma head_of_isVersionWord (h : isVersionWord w) (ds : List Char) :
    ∀ c ∈ (w ++ ds).head?, isBlank c = false := by
  obtain ⟨hne, hnot⟩ := not_isBlank_of_version h
  intro c hc
  rw [List.head?_append_of_ne_nil _ hne] at hc
  exact hnot c (List.mem_of_head? hc)

/-- **A version at the end of a line** is three tokens behind a blank. -/
lemma scan_versionEnd (h : VersionEnd u gap w back) (b : Bool) : ∃ us t vs bs,
    scanFrom b 0 (u ++ (gap ++ (w ++ back))) = us ++ t :: (vs ++ bs) ∧
      textOf us = String.ofList u ∧ t.kind = .whitespace ∧ isVersion vs ∧ vs.length = 3 ∧
      textOf vs = String.ofList w ∧ (∀ t ∈ us.getLast?, t.kind ≠ .whitespace) ∧
      ∀ t ∈ bs, t.kind = .whitespace := by
  have hborders : Borders u (gap ++ (w ++ back)) := fun x hx y hy => by
    rw [List.head?_append_of_ne_nil _ h.gap_ne] at hy
    exact parted_of_blank (h.trimmed x hx) (h.gap y (List.mem_of_head? hy))
  have hword : ∀ c ∈ back.head?, isWordChar c = false := fun c hc =>
    not_isWordChar_of_isBlank (h.back c (List.mem_of_head? hc))
  have hblank := head_of_isVersionWord h.version back
  obtain ⟨v, hv, rfl⟩ := exists_of_isVersionWord h.version
  rw [List.append_assoc] at hblank
  rw [scanFrom_append_of_borders hborders,
    scanFrom_run .whitespace h.gap_ne h.gap _ _ (by rwa [List.append_assoc]), List.append_assoc,
    scan_versionWord hv _ hword]
  refine ⟨scanFrom b 0 u, _, [⟨.word, "HTTP"⟩, ⟨.slash, "/"⟩, ⟨.word, v⟩], _, rfl,
    textOf_scanFrom b u, rfl, Lookahead.isVersion_iff.mpr ⟨_, _, _, [], rfl, rfl, rfl, rfl, rfl, hv⟩, rfl,
    ?_, last_scanFrom h.trimmed b, kind_of_blanks h.back false⟩
  simp [textOf_cons, ← String.toList_inj]

/-- Three tokens of a version are a version. -/
lemma isVersionWord_textOf {vs : List Token} (h : isVersion vs) (hlen : vs.length = 3)
    (hall : ∀ t ∈ vs, Lexeme t) : isVersionWord (textOf vs).toList := by
  obtain ⟨x, y, z, ds, rfl, _, hx, hy, _, hv⟩ := Lookahead.isVersion_iff.mp h
  obtain rfl : ds = [] := List.length_eq_zero_iff.mp (by simpa using hlen)
  have hslash : y.text = "/" := (hall y (by simp)).text_eq hy (by decide) (by decide)
  have htext : (textOf [x, y, z]).toList = "HTTP/".toList ++ z.text.toList := by
    simp [textOf_cons, hx, hslash]
  rw [htext]
  exact isVersionWord_append hv

/-- What the tokens at position `n` behind the content of a URL begin with: a blank and a version, if
one has been found. -/
inductive Behind (n : Nat) (ts : List Token) : Option Nat → Option (List Char) → Prop
  | nothing : Behind n ts none none
  | version {t : Token} {vs us : List Token} : ts = t :: (vs ++ us) → t.kind = .whitespace →
      isVersion vs → vs.length = 3 → Behind n ts (some (n + 1)) (some (textOf vs).toList)

namespace Behind

variable {n : Nat} {ts : List Token} {v : Option Nat} {w : Option (List Char)}

/-- What stands further behind does not matter. -/
lemma append (h : Behind n ts v w) (us : List Token) : Behind n (ts ++ us) v w := by
  cases h with
  | nothing => exact .nothing
  | version hts ht hv hlen =>
      exact .version (by rw [hts, List.cons_append, List.append_assoc]) ht hv hlen

/-- The same, counted from further in front. -/
lemma shift (h : Behind n ts v w) (m : Nat) : Behind (m + n) ts (v.map (m + ·)) w := by
  cases h with
  | nothing => exact .nothing
  | version hts ht hv hlen => exact .version hts ht hv hlen

lemma none_iff (h : Behind n ts v w) : v = none ↔ w = none := by
  cases h <;> simp

end Behind

/-- A line with a version behind its URL. -/
lemma splitVersion_of_cutVersion {indent : List Char} (hindent : ∀ c ∈ indent, isBlank c)
    (hfirst : ∃ c ∈ cs.head?, isBlank c = false) (b : Bool)
    (h : (cutVersion (indent ++ cs)).2 = some w) : ∃ us t vs bs,
      scanFrom b 0 cs = us ++ t :: (vs ++ bs) ∧
        splitVersion (scanFrom b 0 cs) = (us.length, some (us.length + 1)) ∧
        indent ++ (textOf us).toList = (cutVersion (indent ++ cs)).1 ∧ t.kind = .whitespace ∧
        isVersion vs ∧ vs.length = 3 ∧ (textOf vs).toList = w := by
  obtain ⟨u, gap, back, htext, hend⟩ := exists_of_cutVersion h
  obtain ⟨x, hx, hnot⟩ := hfirst
  -- the indentation is in front of the URL, since the URL does not end in a blank
  obtain ⟨u', rfl, rfl⟩ : ∃ u', u = indent ++ u' ∧ cs = u' ++ (gap ++ (w ++ back)) := by
    rcases List.append_eq_append_iff.mp htext with ⟨u', rfl, rfl⟩ | ⟨rest, rfl, -⟩
    · exact ⟨u', rfl, rfl⟩
    · have hlast := List.getLast?_eq_some_getLast hend.nonempty
      have hblank := hindent _ (List.mem_append_left rest (List.mem_of_getLast? hlast))
      rw [hend.trimmed _ hlast] at hblank
      cases hblank
  have hne : u' ≠ [] := by
    rintro rfl
    rw [List.nil_append, List.head?_append_of_ne_nil _ hend.gap_ne] at hx
    rw [hend.gap x (List.mem_of_head? hx)] at hnot
    cases hnot
  have hend' : VersionEnd u' gap w back :=
    ⟨hne, fun c hc => hend.trimmed c (by rwa [List.getLast?_append_of_ne_nil _ hne]), hend.gap_ne,
      hend.gap, hend.version, hend.back⟩
  obtain ⟨us, t, vs, bs, hscan, hus, ht, hv, hlen, hvs, hlast, hbs⟩ := scan_versionEnd hend' b
  refine ⟨us, t, vs, bs, hscan, ?_, ?_, ht, hv, hlen, by rw [hvs, String.toList_ofList]⟩
  · rw [hscan, Lookahead.splitVersion_append hlast ht hv hlen hbs]
  · rw [hus, String.toList_ofList, ← List.append_assoc, hend.cutVersion_eq]

/-- Blanks have no other characters. -/
lemma isBlank_of_mem_textOf {ts : List Token} (h : ∀ t ∈ ts, t ∈ scanFrom b 0 cs)
    (hk : ∀ t ∈ ts, t.kind = .whitespace) : ∀ c ∈ (textOf ts).toList, isBlank c := by
  induction ts with
  | nil => simp
  | cons t ts ih =>
      obtain ⟨ht, hts⟩ := List.forall_mem_cons.mp h
      obtain ⟨hkt, hkts⟩ := List.forall_mem_cons.mp hk
      rw [textOf_cons, String.toList_append, List.forall_mem_append]
      exact ⟨RunKind.whitespace.forall_mem_text b cs t ht hkt, ih hts hkts⟩

/-- A version that is found is in the text. -/
lemma cutVersion_of_splitVersion (indent : List Char) (hfirst : ∃ c ∈ cs.head?, isBlank c = false)
    {b : Bool} {i : Nat} (h : (splitVersion (scanFrom b 0 cs)).2 = some i) :
    ∃ w, (cutVersion (indent ++ cs)).2 = some w := by
  obtain ⟨us, t, vs, bs, hscan, ht, hv, hlen, hbs⟩ := Lookahead.exists_of_splitVersion h
  have hall : ∀ x ∈ us ++ t :: (vs ++ bs), x ∈ scanFrom b 0 cs := fun x hx => hscan ▸ hx
  simp only [List.forall_mem_append, List.forall_mem_cons] at hall
  obtain ⟨_, htmem, hvmem, hbmem⟩ := hall
  have htext : cs = (textOf us).toList
      ++ (t.text.toList ++ ((textOf vs).toList ++ (textOf bs).toList)) := by
    simpa [textOf_append, textOf_cons] using eq_of_scanFrom_append hscan
  have hgap := RunKind.whitespace.forall_mem_text b cs t htmem ht
  have hne : t.text.toList ≠ [] := (lexed_scanFrom b cs).toList_ne_nil htmem
  have hversion := isVersionWord_textOf hv hlen fun v hv =>
    lexeme_of_mem_scanFrom b cs v (hvmem v hv)
  obtain ⟨x, hx, hnot⟩ := hfirst
  have hfull : ∃ c ∈ indent ++ (textOf us).toList, isBlank c = false := by
    refine ⟨x, List.mem_append_right _ ?_, hnot⟩
    rw [htext] at hx
    by_cases hus : (textOf us).toList = []
    · rw [hus, List.nil_append, List.head?_append_of_ne_nil _ hne] at hx
      rw [hgap x (List.mem_of_head? hx)] at hnot
      cases hnot
    · rw [List.head?_append_of_ne_nil _ hus] at hx
      exact List.mem_of_head? hx
  have hcut := cutVersion_append hfull hne hgap hversion (isBlank_of_mem_textOf hbmem hbs)
  rw [List.append_assoc, ← htext] at hcut
  exact ⟨_, hcut⟩

/-- A line without a version. -/
lemma splitVersion_of_none {indent : List Char} (hfirst : ∃ c ∈ cs.head?, isBlank c = false)
    (b : Bool) (h : (cutVersion (indent ++ cs)).2 = none) : ∃ us bs, scanFrom b 0 cs = us ++ bs ∧
      splitVersion (scanFrom b 0 cs) = (us.length, none) ∧
      indent ++ (textOf us).toList = (cutVersion (indent ++ cs)).1 := by
  obtain ⟨x, hx, hnot⟩ := hfirst
  obtain ⟨back, hsplit, htrimmed, hback⟩ := exists_trimEnd cs
  have hfull : trimEnd cs ≠ [] := fun hnil => by
    rw [List.rdropWhile_eq_nil_iff.mp hnil x (List.mem_of_head? hx)] at hnot
    cases hnot
  have hcut : cutVersion (indent ++ cs) = (indent ++ trimEnd cs, none) := by
    rw [cutVersion_of_none h]
    refine Prod.ext ?_ rfl
    calc trimEnd (indent ++ cs) = trimEnd (indent ++ trimEnd cs ++ back) := by
          rw [List.append_assoc, ← hsplit]
      _ = indent ++ trimEnd cs := trimEnd_append
          (fun c hc => htrimmed c (by rwa [List.getLast?_append_of_ne_nil _ hfull] at hc)) hback
  have hborders : Borders (trimEnd cs) back := fun x hx y hy =>
    parted_of_blank (htrimmed x hx) (hback y (List.mem_of_head? hy))
  have hscan := scanFrom_append_of_borders hborders b
  rw [← hsplit] at hscan
  -- a version among the tokens would be one in the text
  have hnone : (splitVersion (scanFrom b 0 cs)).2 = none := by
    rw [Option.eq_none_iff_forall_ne_some]
    intro i hi
    obtain ⟨w, hw⟩ := cutVersion_of_splitVersion indent ⟨x, hx, hnot⟩ hi
    rw [h] at hw
    cases hw
  have hlength : (splitVersion (scanFrom b 0 cs)).1 = (scanFrom b 0 (trimEnd cs)).length := by
    rw [Lookahead.splitVersion_fst_of_none hnone, hscan,
      Lookahead.trimmedLength_append _ (kind_of_blanks hback _),
      Lookahead.trimmedLength_eq (last_scanFrom htrimmed b)]
  exact ⟨_, _, hscan, Prod.ext hlength hnone, by rw [toList_textOf_scanFrom, hcut]⟩

/-- **The content of a URL on a line and the version behind it** are what the text of the line says,
whatever blanks the line begins with. -/
lemma exists_content {indent : List Char} (hindent : ∀ c ∈ indent, isBlank c)
    (hfirst : ∃ c ∈ cs.head?, isBlank c = false) (b : Bool) : ∃ us bs,
      scanFrom b 0 cs = us ++ bs ∧ (splitVersion (scanFrom b 0 cs)).1 = us.length ∧
        indent ++ (textOf us).toList = (cutVersion (indent ++ cs)).1 ∧
        Behind us.length bs (splitVersion (scanFrom b 0 cs)).2 (cutVersion (indent ++ cs)).2 := by
  cases h : (cutVersion (indent ++ cs)).2 with
  | none =>
      obtain ⟨us, bs, hscan, hsplit, htext⟩ := splitVersion_of_none hfirst b h
      rw [hsplit]
      exact ⟨us, bs, hscan, rfl, htext, .nothing⟩
  | some w =>
      obtain ⟨us, t, vs, bs, hscan, hsplit, htext, ht, hv, hlen, rfl⟩ :=
        splitVersion_of_cutVersion hindent hfirst b h
      rw [hsplit]
      exact ⟨us, t :: (vs ++ bs), hscan, rfl, htext, .version rfl ht hv hlen⟩

end Token

/-! ### Lines of a URL -/

/-- Whether a line is indented and not blank. -/
def TextLine.isIndented (l : TextLine) : Bool :=
  l.content.head?.any RequestFile.isBlank && !l.isBlank

/-- What the lines of a request hold of its URL, and the version behind it: the URL goes on over
indented lines until one ends with a version. -/
def cutUrl (l : TextLine) : List TextLine → List Char × Option (List Char)
  | [] => cutVersion l.content
  | next :: ls =>
    if (cutVersion l.content).2 = none ∧ next.isIndented then
      let (url, version) := cutUrl next ls
      (l.chars ++ url, version)
    else cutVersion l.content

namespace Token

variable {b : Bool} {cs : List Char} {l : TextLine} {ls : List TextLine}

lemma startsWith_blank (b : Bool) (cs : List Char) :
    Lookahead.startsWith .whitespace (scanFrom b 0 cs) = cs.head?.any RequestFile.isBlank := by
  cases cs with
  | nil => rfl
  | cons c cs =>
      rw [scanFrom_cons, Bool.eq_iff_iff]
      simp only [Lookahead.startsWith, List.head?_cons, Option.any_some, decide_eq_true_eq]
      exact ⟨fun hk => (RunKind.whitespace.of_lead hk).1,
        fun hc => by rw [RunKind.whitespace.lead_eq hc]⟩

/-- A line of tokens is indented if its text is. -/
lemma isIndented_scanFrom (b : Bool) (cs : List Char) :
    (Lookahead.startsWith .whitespace (scanFrom b 0 cs)
      && !Lookahead.isBlankLine (scanFrom b 0 cs))
      = (textLines cs).head?.any TextLine.isIndented := by
  have hlines := overLines_scanFrom b cs
  by_cases hne : scanFrom b 0 cs = []
  · rw [hne, Lookahead.splitLines] at hlines
    rw [hne, List.forall₂_nil_left_iff.mp hlines]
    rfl
  rw [Lookahead.splitLines_eq hne] at hlines
  obtain ⟨l, ls, hover, -, hls⟩ := List.forall₂_cons_left_iff.mp hlines
  obtain ⟨rest, hcs, hone, hrest⟩ := exists_of_textLines hls
  have hblank := hover.blank
  rw [Lookahead.isBlankLine_take] at hblank
  have hhead : cs.head?.any RequestFile.isBlank = l.content.head?.any RequestFile.isBlank := by
    rw [hcs]
    cases hcontent : l.content with
    | cons c content => rfl
    | nil =>
        cases rest with
        | nil => rfl
        | cons c rest => rcases hrest c rfl with rfl | rfl <;> rfl
  rw [startsWith_blank, hblank, hhead, hls]
  rfl

/-- **Behind a line** the tokens are those of the lines that follow it. -/
lemma exists_nextLine (hne : scanFrom b 0 cs ≠ []) : ∃ l ls b' cs', textLines cs = l :: ls ∧
    textLines cs' = ls ∧ cs = l.chars ++ cs' ∧
    textOf ((scanFrom b 0 cs).take (Lookahead.lineLength (scanFrom b 0 cs) + 1))
      = String.ofList l.chars ∧
    (scanFrom b 0 cs).drop (Lookahead.lineLength (scanFrom b 0 cs) + 1) = scanFrom b' 0 cs' := by
  have hlines := overLines_scanFrom b cs
  rw [Lookahead.splitLines_eq hne] at hlines
  obtain ⟨l, ls, hover, htail, hls⟩ := List.forall₂_cons_left_iff.mp hlines
  generalize hn : Lookahead.lineLength (scanFrom b 0 cs) + 1 = n at *
  have hsplit := List.take_append_drop n (scanFrom b 0 cs)
  have hrest := scanFrom_behind hsplit.symm
  have htext := eq_of_scanFrom_append hsplit.symm
  rw [hover.text, String.toList_ofList] at htext
  refine ⟨l, ls, _, _, hls, ?_, htext, hover.text, hrest⟩
  rw [hrest] at htail
  exact List.right_unique_forall₂' (fun _ _ _ h h' => h.eq_lineOf.trans h'.eq_lineOf.symm)
    (overLines_scanFrom _ _) htail

end Token

end RequestFile
