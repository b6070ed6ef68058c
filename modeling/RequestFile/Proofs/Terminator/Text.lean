import RequestFile.Proofs.Borders
import RequestFile.Proofs.Text

/-!
Texts with other line terminators.

Where lines end with line feeds, another terminator may be written for each (`Terminator.recode`).

* **Offsets.** An offset moves by what the terminators in front of it grow (`Terminator.offset`), so
  the bytes of a prefix become those of the recoded prefix (`Terminator.offset_append`).
* **Tokens.** The tokens of the recoded text are those of the text, each line feed replaced by the
  terminator (`Terminator.scan_recode`): no other token holds a line end.
-/

namespace RequestFile

/-- The ways to end a line. -/
inductive Terminator where
  | lineFeed
  | carriageReturn
  | both
deriving DecidableEq, Repr

namespace Terminator

/-- The text of a terminator. -/
def text : Terminator → String
  | lineFeed => "\n"
  | carriageReturn => "\r"
  | both => "\r\n"

/-- Characters with a terminator in place of every line feed. -/
def encode (e : Terminator) (cs : List Char) : List Char :=
  cs.flatMap fun c => if c = '\n' then e.text.toList else [c]

/-- A text with a terminator in place of every line feed. -/
def recode (e : Terminator) (s : String) : String :=
  String.ofList (e.encode s.toList)

/-- Where an offset of a source lies after the terminators have been replaced. -/
def offset (e : Terminator) (source : String) (o : Nat) : Nat :=
  o + (takeBytes o source.toList).count '\n' * (e.text.utf8ByteSize - 1)

/-- The token in a recoded text. -/
def token (e : Terminator) (t : Token) : Token :=
  if t.kind = .newline then ⟨.newline, e.text⟩ else t

variable (e : Terminator)

/-! ### Characters -/

@[simp]
lemma encode_nil : e.encode [] = [] := rfl

@[simp]
lemma encode_append (as bs : List Char) : e.encode (as ++ bs) = e.encode as ++ e.encode bs :=
  List.flatMap_append

@[simp]
lemma encode_lineFeed (cs : List Char) : e.encode ('\n' :: cs) = e.text.toList ++ e.encode cs :=
  List.flatMap_cons

lemma encode_cons_of_ne {c : Char} (hc : c ≠ '\n') (cs : List Char) :
    e.encode (c :: cs) = c :: e.encode cs := by
  rw [encode, List.flatMap_cons, if_neg hc]
  rfl

/-- A text on one line stays as it is. -/
lemma encode_eq_self {cs : List Char} (h : '\n' ∉ cs) : e.encode cs = cs := by
  induction cs with
  | nil => rfl
  | cons c cs ih =>
      rw [List.mem_cons, not_or] at h
      rw [encode_cons_of_ne e (Ne.symm h.1), ih h.2]

/-- A carriage return in place of every line feed leaves none. -/
lemma not_mem_encode_carriageReturn (cs : List Char) : '\n' ∉ carriageReturn.encode cs := by
  simp only [encode, List.mem_flatMap, not_exists, not_and]
  intro c _
  split_ifs with hc
  · decide
  · simpa using Ne.symm hc

@[simp]
lemma toList_recode (s : String) : (e.recode s).toList = e.encode s.toList :=
  String.toList_ofList

@[simp]
lemma recode_append (s t : String) : e.recode (s ++ t) = e.recode s ++ e.recode t := by
  rw [recode, String.toList_append, encode_append, String.ofList_append, recode, recode]

@[simp]
lemma recode_empty : e.recode "" = "" := rfl

@[simp]
lemma recode_newline : e.recode "\n" = e.text := by
  cases e <;> rfl

lemma recode_eq_self {s : String} (h : '\n' ∉ s.toList) : e.recode s = s := by
  rw [recode, encode_eq_self e h, String.ofList_toList]

/-! ### Offsets -/

lemma size_pos : 0 < e.text.utf8ByteSize := by
  cases e <;> decide

/-- A recoded text is longer by what its terminators grow. -/
lemma size_encode (cs : List Char) :
    (String.ofList (e.encode cs)).utf8ByteSize
      = (String.ofList cs).utf8ByteSize + cs.count '\n' * (e.text.utf8ByteSize - 1) := by
  have hpos := e.size_pos
  induction cs with
  | nil => simp
  | cons c cs ih =>
      by_cases hc : c = '\n'
      · subst hc
        have hsize : Char.utf8Size '\n' = 1 := rfl
        rw [encode_lineFeed, String.ofList_append, String.ofList_toList,
          String.utf8ByteSize_append, ih, utf8ByteSize_ofList_cons, hsize, List.count_cons_self,
          Nat.add_mul, Nat.one_mul]
        omega
      · rw [encode_cons_of_ne e hc, utf8ByteSize_ofList_cons, ih, utf8ByteSize_ofList_cons,
          List.count_cons_of_ne hc, Nat.add_assoc]

/-- **Offsets** behind a prefix lie behind the recoded prefix. -/
lemma offset_append (a b : String) :
    e.offset (a ++ b) a.utf8ByteSize = (e.recode a).utf8ByteSize := by
  have hsize := e.size_encode a.toList
  rw [String.ofList_toList] at hsize
  rw [offset, takeBytes_of_append, recode, hsize]

@[simp]
lemma offset_zero (source : String) : e.offset source 0 = 0 := by
  simpa using e.offset_append "" source

/-- Offsets keep their order. -/
lemma offset_strictMono (source : String) : StrictMono (e.offset source) := by
  intro m n hlt
  have hcount : (takeBytes m source.toList).count '\n' ≤ (takeBytes n source.toList).count '\n' :=
    (takeBytes_prefix_of_le hlt.le source.toList).sublist.count_le '\n'
  exact Nat.add_lt_add_of_lt_of_le hlt (Nat.mul_le_mul_right _ hcount)

/-! ### Tokens -/

@[simp]
lemma token_kind (t : Token) : (e.token t).kind = t.kind := by
  rw [token]
  split_ifs with h
  · exact h.symm
  · rfl

variable {e} in
lemma token_eq_self {t : Token} (h : t.kind ≠ .newline) : e.token t = t :=
  if_neg h

/-- Tokens without a terminator stay as they are. -/
lemma map_token_eq_self {ts : List Token} (h : ∀ t ∈ ts, t.kind ≠ .newline) :
    ts.map e.token = ts :=
  (List.map_congr_left fun t ht => token_eq_self (h t ht)).trans (List.map_id' ts)

/-- A terminator is scanned apart from what follows it, unless that completes it. -/
lemma scanFrom_text {ds : List Char} (hd : e = .carriageReturn → ds.head? ≠ some '\n') (b : Bool) :
    Token.scanFrom b 0 (e.text.toList ++ ds) = ⟨.newline, e.text⟩ :: Token.scanFrom true 0 ds := by
  have hend : endsWithBreak e.text.toList := by cases e <;> decide
  have hlast : e.text.toList.getLast? = some '\r' → e = .carriageReturn := by cases e <;> decide
  have htext : Token.scanFrom b 0 e.text.toList = [⟨.newline, e.text⟩] := by
    cases e <;> cases b <;> decide
  rw [Token.scanFrom_append b hend fun h => hd (hlast h), htext]
  rfl

/-- What stands in front of a terminator is scanned apart from it. -/
lemma scanFrom_line {cs ds : List Char} (hcs : '\r' ∉ cs)
    (hd : e = .carriageReturn → ds.head? ≠ some '\n') (b : Bool) :
    Token.scanFrom b 0 (cs ++ (e.text.toList ++ ds))
      = Token.scanFrom b 0 cs ++ ⟨.newline, e.text⟩ :: Token.scanFrom true 0 ds := by
  obtain ⟨x, xs, htext, hx⟩ : ∃ x xs, e.text.toList = x :: xs ∧ (x = '\n' ∨ x = '\r') := by
    cases e <;> simp [text]
  have hblank : x ≠ ' ' := by
    rintro rfl
    revert hx
    decide
  have hstop : ∀ c ∈ cs.getLast?, Token.Stops c x := fun c hc =>
    ⟨by tauto, fun h => hcs (h ▸ List.mem_of_getLast? hc), fun h => absurd h hblank⟩
  have hscan := e.scanFrom_text hd false
  rw [htext, List.cons_append] at hscan ⊢
  rw [Token.scanFrom_stop hstop (by tauto), hscan]

/-- **Recoded texts** give the same tokens but for their terminators. -/
lemma scanFrom_encode {cs : List Char} (h : '\r' ∉ cs) (b : Bool) :
    Token.scanFrom b 0 (e.encode cs) = (Token.scanFrom b 0 cs).map e.token := by
  induction hn : cs.length using Nat.strong_induction_on generalizing cs b with
  | _ n ih =>
      by_cases hfeed : '\n' ∈ cs
      · obtain ⟨as, bs, rfl, has⟩ := List.eq_append_cons_of_mem hfeed
        have hsplit := h
        simp only [List.mem_append, List.mem_cons, not_or] at hsplit
        have hline := Token.newline_of_oneLine (fun c hc =>
          ⟨fun h => has (h ▸ hc), fun h => hsplit.1 (h ▸ hc)⟩) b
        have hhead : e = .carriageReturn → (e.encode bs).head? ≠ some '\n' := by
          rintro rfl hmem
          exact not_mem_encode_carriageReturn bs (List.mem_of_head? hmem)
        have hplain : Token.scanFrom b 0 (as ++ '\n' :: bs)
            = Token.scanFrom b 0 as ++ ⟨.newline, "\n"⟩ :: Token.scanFrom true 0 bs :=
          lineFeed.scanFrom_line hsplit.1 (by simp) b
        rw [encode_append, encode_lineFeed, encode_eq_self e has, e.scanFrom_line hsplit.1 hhead,
          ih bs.length (by simp [← hn]; omega) hsplit.2.2 true rfl]
        rw [hplain, List.map_append, List.map_cons, map_token_eq_self e hline]
        rfl
      · rw [encode_eq_self e hfeed, map_token_eq_self e (Token.newline_of_oneLine
          (fun c hc => ⟨fun h => hfeed (h ▸ hc), fun hr => h (hr ▸ hc)⟩) b)]

/-- **Recoded sources** give the same tokens but for their terminators. -/
theorem scan_recode {source : String} (h : '\r' ∉ source.toList) :
    Token.scan (e.recode source) = (Token.scan source).map e.token := by
  rw [Token.scan, toList_recode, e.scanFrom_encode h, Token.scan]

/-- A token of a source without carriage returns is recoded like its text. -/
lemma text_token {source : String} (h : '\r' ∉ source.toList) :
    ∀ t ∈ Token.scan source, (e.token t).text = e.recode t.text := by
  intro t ht
  rw [token]
  split_ifs with hk
  · have hreturn : '\r' ∉ t.text.toList := fun hmem =>
      h ((Token.infix_of_mem_scanFrom ht).subset hmem)
    rw [Token.text_of_newline true source.toList t ht hk hreturn, recode_newline]
  · exact (e.recode_eq_self fun hmem =>
      hk (Token.kind_of_mem_break true source.toList t ht '\n' (Or.inl rfl) hmem)).symm

end Terminator

end RequestFile
