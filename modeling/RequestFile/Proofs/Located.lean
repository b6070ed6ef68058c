import RequestFile.Proofs.Borders
import RequestFile.Proofs.Text

/-!
Where tokens stand.

* **Ranges.** Tokens in a row have ranges that tile what they cover (`Token.tiles_locate`); in front
  of and behind other tokens they stand where the texts say (`Token.locate_append`,
  `Token.locate_add`).
* **Places.** What stands at an offset of a source with a given text is found by the text in front of
  it (`Token.mem_locate_scan`).
* **Lines are scanned apart** (`Token.locate_scan_append`): behind a line terminator scanning begins
  anew, and the ranges move by the bytes in front.
-/

namespace RequestFile

/-- Ranges without a gap or an overlap from one offset to another, none of them empty. -/
inductive Span.Tiles : Nat → List Span → Nat → Prop
  | nil (o : Nat) : Tiles o [] o
  | cons {s : Span} {ss : List Span} {stop : Nat} : 0 < s.size → Tiles s.stop ss stop →
      Tiles s.start (s :: ss) stop

namespace Token

variable {o : Nat} {ts us : List Token}

/-! ### Ranges -/

lemma locate_append (o : Nat) (ts us : List Token) :
    locate o (ts ++ us) = locate o ts ++ locate (o + sizeOf ts) us := by
  induction ts generalizing o with
  | nil => rfl
  | cons t ts ih =>
      rw [List.cons_append, locate, ih, sizeOf_cons, Nat.add_assoc]
      rfl

/-- A token behind `n` bytes more. -/
def shift (n : Nat) (x : Span × Token) : Span × Token :=
  (x.1.shift n, x.2)

/-- With bytes put in front, tokens stand that much later. -/
lemma locate_add (o n : Nat) (ts : List Token) :
    locate (o + n) ts = (locate o ts).map (shift n) := by
  induction ts generalizing o with
  | nil => rfl
  | cons t ts ih =>
      have hstop : o + n + t.size = o + t.size + n := Nat.add_right_comm o n t.size
      rw [locate, hstop, ih]
      rfl

/-- The ranges of tokens tile what they cover. -/
lemma tiles_locate (h : ∀ t ∈ ts, 0 < t.size) (o : Nat) :
    Span.Tiles o ((locate o ts).map Prod.fst) (o + sizeOf ts) := by
  induction ts generalizing o with
  | nil => exact .nil o
  | cons t ts ih =>
      obtain ⟨ht, hts⟩ := List.forall_mem_cons.mp h
      rw [sizeOf_cons, ← Nat.add_assoc]
      exact .cons (s := ⟨o, t.size⟩) ht (ih hts (o + t.size))

lemma mem_locate {x : Span × Token} :
    x ∈ locate o ts ↔
      ∃ front back, ts = front ++ x.2 :: back ∧ x.1 = ⟨o + sizeOf front, x.2.size⟩ := by
  induction ts generalizing o with
  | nil => simp [locate]
  | cons t ts ih =>
      rw [locate, List.mem_cons, ih]
      constructor
      · rintro (rfl | ⟨front, back, rfl, hspan⟩)
        · exact ⟨[], ts, rfl, rfl⟩
        · exact ⟨t :: front, back, rfl, by rw [hspan, sizeOf_cons, Nat.add_assoc]⟩
      · rintro ⟨front, back, heq, hspan⟩
        cases front with
        | nil =>
            obtain ⟨rfl, rfl⟩ := List.cons.inj heq
            exact .inl (Prod.ext hspan rfl)
        | cons u front =>
            obtain ⟨rfl, rfl⟩ := List.cons.inj heq
            exact .inr ⟨front, back, rfl, by rw [hspan, sizeOf_cons, Nat.add_assoc]⟩

/-! ### Places -/

/-- A text of a given size in front of another is determined by the two together. -/
lemma eq_of_append_eq {a b a' b' : String} (h : a ++ b = a' ++ b')
    (hsize : a.utf8ByteSize = a'.utf8ByteSize) : a = a' ∧ b = b' := by
  have ha : a.toList = a'.toList := by
    rw [← takeBytes_of_append a b, ← takeBytes_of_append a' b', h, hsize]
  obtain rfl := String.toList_inj.mp ha
  have hb : a.toList ++ b.toList = a.toList ++ b'.toList := by
    rw [← String.toList_append, h, String.toList_append]
  exact ⟨rfl, String.toList_inj.mp (List.append_cancel_left hb)⟩

/-- A text stands in a source as a token of it if the tokens around it cover what is around it. -/
lemma mem_locate_scan {a w b : String} {k : Kind} :
    (⟨a.utf8ByteSize, w.utf8ByteSize⟩, ⟨k, w⟩) ∈ locate 0 (scan (a ++ w ++ b)) ↔
      ∃ front back, scan (a ++ w ++ b) = front ++ ⟨k, w⟩ :: back ∧ textOf front = a ∧
        textOf back = b := by
  rw [mem_locate]
  constructor
  · rintro ⟨front, back, hscan, hspan⟩
    have hsize : a.utf8ByteSize = (textOf front).utf8ByteSize := by
      rw [← sizeOf_eq, ← Nat.zero_add (sizeOf front)]
      exact congrArg Span.start hspan
    have htext : a ++ (w ++ b) = textOf front ++ (w ++ textOf back) := by
      rw [← String.append_assoc, ← textOf_scan (a ++ w ++ b), hscan, textOf_append, textOf_cons]
    obtain ⟨hfront, hrest⟩ := eq_of_append_eq htext hsize
    exact ⟨front, back, hscan, hfront.symm, (eq_of_append_eq hrest rfl).2.symm⟩
  · rintro ⟨front, back, hscan, rfl, rfl⟩
    exact ⟨front, back, hscan, by rw [Nat.zero_add, sizeOf_eq]; rfl⟩

/-! ### Lines -/

/-- **Lines are scanned apart.** A text that is empty, or ends with a line terminator that what
follows does not complete, gives its own tokens; what follows gives its own, behind the bytes of the
text. -/
theorem locate_scan_append {a b : String}
    (h : a = "" ∨ a.toList.getLast? = some '\n' ∨
      a.toList.getLast? = some '\r' ∧ b.toList.head? ≠ some '\n') :
    locate 0 (scan (a ++ b))
      = locate 0 (scan a) ++ (locate 0 (scan b)).map (shift a.utf8ByteSize) := by
  have hscan : scan (a ++ b) = scan a ++ scan b := by
    rcases h with rfl | hlast | ⟨hlast, hhead⟩
    · rfl
    · refine scan_append_of_endsLine ?_ fun hreturn => ?_
      · simp [endsLine, endsWithBreak, hlast]
      · rw [hlast] at hreturn
        cases hreturn
    · refine scan_append_of_endsLine ?_ fun _ => hhead
      simp [endsLine, endsWithBreak, hlast]
  calc locate 0 (scan (a ++ b))
      = locate 0 (scan a) ++ locate (0 + sizeOf (scan a)) (scan b) := by
        rw [hscan, locate_append]
    _ = locate 0 (scan a) ++ (locate 0 (scan b)).map (shift a.utf8ByteSize) := by
        rw [locate_add, sizeOf_scan]

/-- Three hyphens behind a carriage return are scanned as at the start of a source. -/
theorem locate_scan_append_hyphens :
    locate 0 (scan ("--a---\r" ++ "---\n"))
      = locate 0 (scan "--a---\r")
        ++ [(⟨7, 2⟩, ⟨.doubleDash, "--"⟩), (⟨9, 1⟩, ⟨.dash, "-"⟩), (⟨10, 1⟩, ⟨.newline, "\n"⟩)] :=
  locate_scan_append (.inr (.inr ⟨rfl, by decide⟩))

end Token

end RequestFile
