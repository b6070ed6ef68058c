import Mathlib.Tactic
import RequestFile.Json.Scalar
import RequestFile.Json.Value

/-!
What readers take from a text.

* **Taking.** `r.Reads w a`: whatever follows, the reader `r` takes the text `w` and finds `a` in it.
  Readers in a row take texts in a row (`Reads.bind`), and a loop takes a text turn by turn
  (`Reads.again`, `Reads.done`).
* **Spaces.** Readers that look at the next character pass over spaces first (`Reads.look`).
* **Strings.** The written form of a character is taken as that character
  (`exists_reads_encodeChar`), so the reader of strings takes what is written for a string
  (`reads_stringBody`).
-/

namespace RequestFile.Json.Reader

variable {α β σ : Type}

/-- Whatever follows, a reader takes a text and finds a value in it. -/
def Reads (r : Reader α) (w : List Char) (a : α) : Prop :=
  ∀ rest, r.run (w ++ rest) = .ok (a, rest)

/-- A text of spaces. -/
def Gap (w : List Char) : Prop :=
  ∀ c ∈ w, isSpace c

lemma gap_nil : Gap [] :=
  List.forall_mem_nil _

namespace Reads

variable {r : Reader α} {f : α → Reader β} {v w : List Char} {a : α} {b : β}

lemma pure (a : α) : Reads (Pure.pure a) [] a :=
  fun _ => rfl

lemma bind (h : r.Reads w a) (h' : (f a).Reads v b) : (r >>= f).Reads (w ++ v) b := by
  intro rest
  change (andThen r f).run (w ++ v ++ rest) = _
  rw [List.append_assoc, andThen]
  simp only [h (v ++ rest), h' rest]

/-- What is found may be worked on without taking more. -/
lemma map (h : r.Reads w a) (g : α → β) : (r >>= fun x => Pure.pure (g x)).Reads w (g a) := by
  have hmap : (r >>= fun x => Pure.pure (g x)).Reads (w ++ []) (g a) := h.bind (pure (g a))
  rwa [List.append_nil] at hmap

/-- Characters are passed over by their number. -/
lemma drop (w : List Char) : (Reader.drop w.length).Reads w () := by
  intro rest
  change Except.ok ((), (w ++ rest).drop w.length) = _
  rw [List.drop_left]

lemma next (e : Fault) (c : Char) : (Reader.next e).Reads [c] c :=
  fun _ => rfl

/-- The next character behind spaces is left in place for what comes next. -/
lemma look {gap : List Char} {c : Char} {f : Char → Reader β} (hgap : Gap gap)
    (hc : isSpace c = false) (h : (f c).Reads (c :: w) b) :
    (Reader.look >>= f).Reads (gap ++ c :: w) b := by
  intro rest
  have hdrop : (gap ++ c :: w ++ rest).dropWhile isSpace = c :: (w ++ rest) := by
    rw [List.append_assoc, List.dropWhile_append_of_pos hgap, List.cons_append,
      List.dropWhile_cons_of_neg (by simp [hc])]
  change (andThen Reader.look f).run _ = _
  rw [andThen, Reader.look]
  simp only [hdrop]
  exact h rest

lemma mark {gap : List Char} {c : Char} (hgap : Gap gap) (hc : isSpace c = false) :
    (Reader.mark c).Reads (gap ++ [c]) () := by
  refine look hgap hc ?_
  rw [if_pos (beq_self_eq_true c)]
  exact drop [c]

lemma word (w : List Char) : (Reader.word w).Reads w () := by
  induction w with
  | nil => exact pure ()
  | cons c w ih =>
      refine (next .truncated c).bind ?_
      rw [if_pos (beq_self_eq_true c)]
      exact ih

/-! ### Loops -/

variable {step : σ → Char → Reader (σ ⊕ α)} {s t : σ} {c : Char}

/-- A turn of a loop that goes on. -/
lemma again (h : (step s c).Reads w (.inl t)) (h' : (loop step t).Reads v a) :
    (loop step s).Reads (c :: (w ++ v)) a := by
  intro rest
  have hstep := h (v ++ rest)
  change loopRun step s (c :: (w ++ v ++ rest)) = _
  rw [loopRun, List.append_assoc]
  split
  · next heq => simp [hstep] at heq
  · next heq => simp [hstep] at heq
  · next u mid heq =>
      obtain ⟨rfl, rfl⟩ : t = u ∧ v ++ rest = mid := by simpa [hstep] using heq
      exact h' rest

/-- The last turn of a loop. -/
lemma done (h : (step s c).Reads w (.inr a)) : (loop step s).Reads (c :: w) a := by
  intro rest
  have hstep := h rest
  change loopRun step s (c :: (w ++ rest)) = _
  rw [loopRun]
  split
  · next heq => simp [hstep] at heq
  · next b mid heq =>
      obtain ⟨rfl, rfl⟩ : a = b ∧ rest = mid := by simpa [hstep] using heq
      rfl
  · next heq => simp [hstep] at heq

/-- A loop passes over spaces if its step goes on after each. -/
lemma gap {gap : List Char} (hgap : Gap gap) (hstep : ∀ c, isSpace c → step s c = Reader.again s)
    (h : (loop step s).Reads w a) : (loop step s).Reads (gap ++ w) a := by
  induction gap with
  | nil => exact h
  | cons c gap ih =>
      obtain ⟨hc, hgap⟩ := List.forall_mem_cons.mp hgap
      refine again (w := []) ?_ (ih hgap)
      rw [hstep c hc]
      exact pure (Sum.inl s)

end Reads

/-! ### Strings -/

/-- The step of the reader of strings. -/
def stringStep (s : String) (c : Char) : Reader (String ⊕ String) :=
  if c == '"' then Reader.done s
  else if c == '\\' then do
    Reader.again (s.push (← escape))
  else if c.toNat < 0x20 then fail .malformed
  else Reader.again (s.push c)

lemma reads_escape {e d : Char} (hu : (e == 'u') = false) (h : shortEscape? e = some d) :
    escape.Reads [e] d := by
  refine (Reads.next .truncated e).bind (v := []) ?_
  simp only [hu, h]
  exact Reads.pure d

lemma length_le_total (w : List Char) : w.length ≤ total Char.utf8Size w := by
  induction w with
  | nil => exact Nat.le_refl 0
  | cons c w ih =>
      rw [List.length_cons, total_cons]
      have hc := c.utf8Size_pos
      omega

/-- Four hexadecimal digits are taken as their number. -/
lemma reads_codeUnit {w : List Char} {n : Nat} (hw : w.length = 4) (h : hexValues? w = some n) :
    codeUnit.Reads w n := by
  have hdrop : (Reader.drop 4 >>= fun _ => Pure.pure n).Reads w n := by
    have hlength := (Reads.drop w).map fun _ => n
    rwa [hw] at hlength
  intro rest
  have htake : (w ++ rest).take 4 = w := by rw [← hw, List.take_left]
  have hsize : ¬total Char.utf8Size w < 4 := by
    have hle := length_le_total w
    omega
  rw [codeUnit]
  change (andThen Reader.rest _).run (w ++ rest) = _
  simp only [andThen, Reader.rest, htake, if_neg hsize, h]
  exact hdrop rest

lemma hexValues?_control : ∀ n < 0x20,
    hexValues? ['0', '0', hexDigit (n / 16), hexDigit (n % 16)] = some n := by
  decide

/-- A character below U+0020 that is written by its number is taken as that character. -/
lemma reads_escape_control {c : Char} (h : c.toNat < 0x20) :
    escape.Reads ['u', '0', '0', hexDigit (c.toNat / 16), hexDigit (c.toNat % 16)] c := by
  refine (Reads.next .truncated 'u').bind ?_
  rw [if_pos (beq_self_eq_true 'u')]
  refine (reads_codeUnit rfl (hexValues?_control c.toNat h)).bind (v := []) ?_
  have hsecond : isSecondHalf c.toNat = false := by
    simp only [isSecondHalf, Bool.and_eq_false_iff, decide_eq_false_iff_not]
    omega
  have hfirst : isFirstHalf c.toNat = false := by
    simp only [isFirstHalf, Bool.and_eq_false_iff, decide_eq_false_iff_not]
    omega
  simp only [hsecond, hfirst, Char.ofNat_toNat]
  exact Reads.pure c

/-- A backslash and what follows it are taken as a character. -/
lemma reads_stringStep_escape {w : List Char} {d : Char} (h : escape.Reads w d) (s : String) :
    (stringStep s '\\').Reads w (.inl (s.push d)) :=
  h.map fun d => (Sum.inl (s.push d) : String ⊕ String)

/-- A character that needs no escape is taken as it is. -/
lemma reads_stringStep_plain {c : Char} (hquote : c ≠ '"') (hslash : c ≠ '\\')
    (hsize : ¬c.toNat < 0x20) (s : String) : (stringStep s c).Reads [] (.inl (s.push c)) := by
  rw [stringStep, if_neg (by simpa using hquote), if_neg (by simpa using hslash), if_neg hsize]
  exact Reads.pure _

/-- The written form of a character is taken as that character. -/
lemma exists_reads_encodeChar (c : Char) :
    ∃ c' w, encodeChar c = c' :: w ∧ ∀ s, (stringStep s c').Reads w (.inl (s.push c)) := by
  have hshort : ∀ {e d : Char}, (e == 'u') = false → shortEscape? e = some d →
      ∃ c' w, ['\\', e] = c' :: w ∧ ∀ s, (stringStep s c').Reads w (.inl (s.push d)) :=
    fun hu hd => ⟨_, _, rfl, reads_stringStep_escape (reads_escape hu hd)⟩
  unfold encodeChar
  split
  · exact hshort rfl rfl
  · exact hshort rfl rfl
  · exact hshort rfl rfl
  · exact hshort rfl rfl
  · exact hshort rfl rfl
  · exact hshort rfl rfl
  · exact hshort rfl rfl
  · next hquote hslash _ _ _ _ _ =>
      split
      · next hsize => exact ⟨_, _, rfl, reads_stringStep_escape (reads_escape_control hsize)⟩
      · next hsize => exact ⟨_, _, rfl, reads_stringStep_plain hquote hslash hsize⟩

lemma reads_stringBody (s : String) : stringBody.Reads (s.toList.flatMap encodeChar ++ ['"']) s := by
  have hloop : ∀ (cs : List Char) (t : String),
      (loop stringStep t).Reads (cs.flatMap encodeChar ++ ['"']) (t ++ String.ofList cs) := by
    intro cs
    induction cs with
    | nil =>
        intro t
        have hend : (stringStep t '"').Reads [] (.inr t) := Reads.pure _
        simpa using hend.done
    | cons c cs ih =>
        intro t
        obtain ⟨c', w, hc, hstep⟩ := exists_reads_encodeChar c
        have htext : t ++ String.ofList (c :: cs) = t.push c ++ String.ofList cs := by
          rw [String.ofList_cons, String.push_eq_append, String.append_assoc]
        rw [htext, List.flatMap_cons, hc, List.append_assoc]
        exact (hstep t).again (ih (t.push c))
  have hstring := hloop s.toList ""
  rwa [String.empty_append, String.ofList_toList] at hstring

end RequestFile.Json.Reader
