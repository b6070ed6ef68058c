import Mathlib.Tactic
import Mathlib.Computability.Language
import RequestFile.Parse.Cursor
import RequestFile.Proofs.Form
import RequestFile.Proofs.Lookahead
import RequestFile.Proofs.Scan

/-!
Runs of a cursor.

`Run e k L c c'` says that a production leads from `c` to `c'` in a parse without limits and keeps
all that productions promise to each other.

* **Text.** It takes some tokens off the front of those ahead (`Took`). The leaves it builds stand
  over these tokens, one block of tokens below each (`Tree.Over`), so they have exactly their text.
* **Shape.** These trees have the form `L`; with `e = false` this is claimed only if no error has
  been reported.
* **Faults.** It breaks no promise, provided that the cursor has the patience for `k` questions.
  After a token has been taken, at most `k` questions were asked.

Runs compose: the costs add up and the forms are put one after the other (`Run.trans`). A loop whose
turns take tokens costs twice as much as one turn (`Run.loop`). A production one level deeper runs
between a cursor that is `lowered` and one that is `raised` again, and costs nothing (`Run.raised`).
-/

namespace RequestFile

open scoped Computability

namespace Tree

/-! ### Leaves over tokens -/

/-- The tokens below one leaf: a token of its own, or some tokens of one line merged into text. -/
inductive Block : List Token → Kind × String → Prop
  | token (t : Token) : Block [t] (t.kind, t.text)
  | text {ts : List Token} : ts ≠ [] → (∀ t ∈ ts, t.kind ≠ .newline) →
      Block ts (.text, Token.textOf ts)

/-- Leaves over neighbouring tokens, with a block of tokens below each. -/
def Over (ts : List Token) (ls : List (Kind × String)) : Prop :=
  ∃ bs : List (List Token), ts = bs.flatten ∧ List.Forall₂ Block bs ls

variable {ts us : List Token} {ls ms : List (Kind × String)} {l : Kind × String} {w : List Tree}

lemma over_nil : Over [] [] :=
  ⟨[], rfl, .nil⟩

lemma Block.over (h : Block ts l) : Over ts [l] :=
  ⟨[ts], by simp, .cons h .nil⟩

lemma Over.append (h : Over ts ls) (h' : Over us ms) : Over (ts ++ us) (ls ++ ms) := by
  obtain ⟨bs, rfl, hbs⟩ := h
  obtain ⟨cs, rfl, hcs⟩ := h'
  exact ⟨bs ++ cs, List.flatten_append.symm, List.rel_append hbs hcs⟩

lemma Block.text_eq (h : Block ts l) : Token.textOf ts = l.2 := by
  cases h with
  | token t => rw [Token.textOf_cons, Token.textOf_nil, String.append_empty]
  | text => rfl

/-- Leaves have the text of the tokens below them. -/
lemma Over.join_eq (h : Over ts ls) : String.join (ls.map Prod.snd) = Token.textOf ts := by
  obtain ⟨bs, rfl, hbs⟩ := h
  induction hbs with
  | nil => rfl
  | cons hb _ ih =>
      rw [List.map_cons, String.join_cons, List.flatten_cons, Token.textOf_append, hb.text_eq, ih]

lemma Over.textOf_eq (h : Over ts (leavesOf w)) : textOf w = Token.textOf ts := by
  rw [textOf]
  exact h.join_eq

end Tree

namespace Cursor

/-! ### What holds between two productions -/

/-- Whether an error has been reported. -/
def failed (c : Cursor) : Bool :=
  c.reports.toList.any Diagnostic.isError

/-- The position after the last token. -/
def finish (c : Cursor) : Nat :=
  c.read + c.rest.length

/-- Whether the cursor stands where a line begins, or at the end. -/
def Aligned (c : Cursor) : Prop :=
  c.rest = [] ∨ c.lineStart = true

/-- A cursor in the course of a parse without limits. -/
structure Sound (c : Cursor) : Prop where
  exceeded : c.exceeded = none
  limits : c.budget.limits = .unlimited
  charged : c.budget.tokens = c.read
  lexed : Token.Lexed c.rest
  reported : ∀ o, c.lastReport = some o → o ≤ c.offset

/-- A report that was made where the cursor stands is an error or follows one, so a further report
that is left out here is no loss. -/
structure Live (c : Cursor) : Prop extends Sound c where
  backed : c.lastReport = some c.offset → c.failed

/-- A report where the cursor stands. -/
lemma Sound.report {c : Cursor} (hc : c.Sound) (d : Diagnostic) :
    Sound { c with reports := c.reports.push d, lastReport := some c.offset } :=
  ⟨hc.exceeded, hc.limits, hc.charged, hc.lexed, fun _ ho => (Option.some.inj ho).ge⟩

/-- The cursor moves over the tokens `ts`. -/
structure Took (ts : List Token) (c c' : Cursor) : Prop where
  rest : c.rest = ts ++ c'.rest
  read : c'.read = c.read + ts.length
  offset : c'.offset = c.offset + Token.sizeOf ts
  lineStart : c'.lineStart = (ts.getLast?.map fun t => decide (t.kind = .newline)).getD c.lineStart

lemma Took.refl (c : Cursor) : Took [] c c :=
  ⟨rfl, rfl, rfl, rfl⟩

lemma Took.trans {ts us : List Token} {c c' c'' : Cursor} (h : Took ts c c')
    (h' : Took us c' c'') : Took (ts ++ us) c c'' where
  rest := by rw [h.rest, h'.rest, List.append_assoc]
  read := by rw [h'.read, h.read, List.length_append, Nat.add_assoc]
  offset := by rw [h'.offset, h.offset, Token.sizeOf_append, Nat.add_assoc]
  lineStart := by
    rw [h'.lineStart, h.lineStart, List.getLast?_append]
    cases us.getLast? <;> rfl

/-- The tokens taken are the next ones. -/
lemma Took.eq_take {ts : List Token} {c c' : Cursor} {n : Nat} (h : Took ts c c')
    (hr : c'.read = c.read + n) : ts = c.rest.take n := by
  have hlen : ts.length = n := Nat.add_left_cancel (h.read.symm.trans hr)
  rw [h.rest, ← hlen, List.take_left]

/-- A production leads from `c` to `c'` and keeps its promises. -/
structure Run (e : Bool) (k : Nat) (L : TreeLanguage) (c c' : Cursor) : Prop where
  live : c'.Live
  grew : ∃ ts new, Took ts c c' ∧ c'.built.toList = c.built.toList ++ new ∧
    Tree.Over ts (Tree.leavesOf new) ∧ ((c'.failed → e) → new ∈ L)
  reports : c.reports.toList <+: c'.reports.toList
  safe : k ≤ min c.patience fullPatience → c.fault = none → c'.fault = none
  patient : min c.patience fullPatience ≤ c'.patience + k
  fresh : c.read < c'.read → fullPatience ≤ c'.patience + k

variable {e : Bool} {k l : Nat} {L M N : TreeLanguage} {c c' c'' : Cursor}

lemma failed_mono (h : c.reports.toList <+: c'.reports.toList) (hc : c.failed) :
    c'.failed := by
  obtain ⟨ds, hds⟩ := h
  rw [failed, ← hds, List.any_append, ← failed, hc, Bool.true_or]

@[simp]
lemma Live.stopped_eq (hc : c.Live) : c.stopped = c.atEnd := by
  rw [stopped, hc.exceeded, Option.isSome_none, Bool.or_false]

/-! ### Where a run ends -/

namespace Run

lemma rest_eq (h : Run e k L c c') : c'.rest = c.rest.drop (c'.read - c.read) := by
  obtain ⟨ts, _, ht, _⟩ := h.grew
  rw [ht.rest, ht.read, Nat.add_sub_cancel_left, List.drop_left]

lemma read_le (h : Run e k L c c') : c.read ≤ c'.read := by
  obtain ⟨ts, _, ht, _⟩ := h.grew
  rw [ht.read]
  exact Nat.le_add_right _ _

lemma finish_eq (h : Run e k L c c') : c'.finish = c.finish := by
  obtain ⟨ts, _, ht, _⟩ := h.grew
  rw [finish, finish, ht.read, ht.rest, List.length_append, Nat.add_assoc]

/-- A run that stays on the line leaves its end where it is. -/
lemma lineEnd_eq (h : Run e k L c c') (hl : c'.read ≤ c.lineEnd) : c'.lineEnd = c.lineEnd := by
  have hle := h.read_le
  rw [lineEnd] at hl
  rw [lineEnd, lineEnd, h.rest_eq, Lookahead.lineLength_drop (by omega)]
  omega

/-- Runs that stay on the line compose to one. -/
lemma stays (h : Run e k L c c') (hl : c'.read ≤ c.lineEnd) (hl' : c''.read ≤ c'.lineEnd) :
    c''.read ≤ c.lineEnd :=
  hl'.trans (h.lineEnd_eq hl).le

/-- A run that stays on the line and has taken something of it ends within the line. -/
lemma midline (h : Run e k L c c') (hl : c'.read ≤ c.lineEnd)
    (hm : c.lineStart = false ∨ c.read < c'.read) : c'.lineStart = false := by
  obtain ⟨ts, _, ht, _⟩ := h.grew
  have hread := ht.read
  rw [ht.lineStart]
  cases hlast : ts.getLast? with
  | none =>
      obtain rfl := List.getLast?_eq_none_iff.mp hlast
      exact hm.resolve_right (by simp [hread])
  | some t =>
      have hmem : t ∈ c.rest.take ts.length := by
        rw [ht.rest, List.take_left]
        exact List.mem_of_getLast? hlast
      have hkind := Lookahead.kind_of_mem_take (by rw [lineEnd] at hl; omega) hmem
      simpa using hkind

lemma still (h : Run e k L c c') (hr : c'.read = c.read) :
    c'.rest = c.rest ∧ c'.offset = c.offset ∧ c'.lineStart = c.lineStart := by
  obtain ⟨ts, _, ht, _⟩ := h.grew
  obtain rfl : ts = [] := by
    rw [← List.length_eq_zero_iff]
    have := ht.read
    omega
  exact ⟨ht.rest.symm, ht.offset, ht.lineStart⟩

lemma aligned_of_still (h : Run e k L c c') (hr : c'.read = c.read) (ha : c.Aligned) :
    c'.Aligned := by
  obtain ⟨hrest, _, hline⟩ := h.still hr
  rwa [Aligned, hrest, hline]

/-! ### Composition -/

lemma refl (hc : c.Live) : Run e 0 1 c c where
  live := hc
  grew := ⟨[], [], .refl c, (List.append_nil _).symm, Tree.over_nil, fun _ => Language.nil_mem_one⟩
  reports := List.prefix_rfl
  safe := fun _ h => h
  patient := min_le_left _ _
  fresh := fun h => absurd h (lt_irrefl _)

lemma weaken (h : Run e k L c c') (hk : k ≤ l) (hL : L ≤ M) : Run e l M c c' where
  live := h.live
  grew := by
    obtain ⟨ts, new, ht, hb, hx, hn⟩ := h.grew
    exact ⟨ts, new, ht, hb, hx, fun he => hL (hn he)⟩
  reports := h.reports
  safe := fun hp => h.safe (hk.trans hp)
  patient := h.patient.trans (by omega)
  fresh := fun hr => (h.fresh hr).trans (by omega)

/-- Runs compose. -/
lemma trans (h : Run e k L c c') (h' : Run e l M c' c'') : Run e (k + l) (L * M) c c'' where
  live := h'.live
  grew := by
    obtain ⟨ts, new, ht, hb, hx, hL⟩ := h.grew
    obtain ⟨ts', new', ht', hb', hx', hM⟩ := h'.grew
    refine ⟨ts ++ ts', new ++ new', ht.trans ht', ?_, ?_, fun he => ?_⟩
    · rw [hb', hb, List.append_assoc]
    · rw [Tree.leavesOf_append]
      exact hx.append hx'
    · exact Language.append_mem_mul (hL fun hf => he (failed_mono h'.reports hf)) (hM he)
  reports := h.reports.trans h'.reports
  safe := fun hk hf => by
    have hp := h.patient
    exact h'.safe (by omega) (h.safe (by omega) hf)
  patient := by
    have hp := h.patient
    have hp' := h'.patient
    omega
  fresh := fun hr => by
    have hp' := h'.patient
    rcases h'.read_le.lt_or_eq with hlt | heq
    · have := h'.fresh hlt
      omega
    · have := h.fresh (by omega)
      omega

/-- Only what was asked since the last token counts. -/
lemma trans_moved (h : Run e k L c c') (h' : Run e l M c' c'') (hm : c.read < c'.read)
    (hm' : c'.read < c''.read) (hkl : k ≤ l) (hf : k + l ≤ fullPatience) :
    Run e l (L * M) c c'' where
  live := h'.live
  grew := (h.trans h').grew
  reports := h.reports.trans h'.reports
  safe := fun hk hfault => by
    have := h.fresh hm
    exact h'.safe (by omega) (h.safe (by omega) hfault)
  patient := by
    have := h'.fresh hm'
    omega
  fresh := fun _ => h'.fresh hm'

/-- A run after a step that builds nothing. -/
lemma after (h' : Run e l M c' c'') (h : Run e k 1 c c') : Run e (k + l) M c c'' :=
  (h.trans h').weaken le_rfl (one_mul M).le

/-- A run with a step after it that builds nothing. -/
lemma quiet (h : Run e k L c c') (h' : Run e l 1 c' c'') : Run e (k + l) L c c'' :=
  (h.trans h').weaken le_rfl (mul_one L).le

lemma inl (h : Run e k L c c') : Run e k (L + M) c c' :=
  h.weaken le_rfl (fun _ hw => Or.inl hw)

lemma inr (h : Run e k M c c') : Run e k (L + M) c c' :=
  h.weaken le_rfl (fun _ hw => Or.inr hw)

lemma present (h : Run e k L c c') : Run e k (Form.opt L) c c' :=
  h.inr

lemma absent (h : Run e k 1 c c') : Run e k (Form.opt L) c c' :=
  h.inl

/-- A run that has reported an error may leave out what was required. -/
lemma lapse (h : Run e k 1 c c') (hf : c'.failed) : Run e k (Form.lapse e) c c' where
  live := h.live
  grew := by
    obtain ⟨ts, new, ht, hb, hx, hn⟩ := h.grew
    refine ⟨ts, new, ht, hb, hx, fun he => ?_⟩
    obtain rfl : new = [] := hn he
    exact Form.nil_mem_lapse (he hf)
  reports := h.reports
  safe := h.safe
  patient := h.patient
  fresh := h.fresh

end Run

/-- A run that takes some tokens and ends where a line begins. -/
structure LineRun (e : Bool) (k : Nat) (L : TreeLanguage) (c c' : Cursor) : Prop
    extends Run e k L c c' where
  moved : c.read < c'.read
  aligned : c'.Aligned

namespace LineRun

lemma weaken (h : LineRun e k L c c') (hk : k ≤ l) (hL : L ≤ M) : LineRun e l M c c' :=
  ⟨h.toRun.weaken hk hL, h.moved, h.aligned⟩

lemma after (h' : LineRun e l M c' c'') (h : Run e k 1 c c') : LineRun e (k + l) M c c'' :=
  ⟨h'.toRun.after h, h.read_le.trans_lt h'.moved, h'.aligned⟩

lemma inl (h : LineRun e k L c c') : LineRun e k (L + M) c c' :=
  ⟨h.toRun.inl, h.moved, h.aligned⟩

lemma inr (h : LineRun e k M c c') : LineRun e k (L + M) c c' :=
  ⟨h.toRun.inr, h.moved, h.aligned⟩

end LineRun

/-! ### Loops -/

/-- What a turn of a loop keeps: `I` holds before every turn and `J` after the last. -/
def Turning (e : Bool) (k : Nat) (L M : TreeLanguage) (I J : Cursor → Prop) (c : Cursor) :
    Turn → Prop
  | .again c' => Run e k L c c' ∧ c.read < c'.read ∧ I c'
  | .done c' => Run e k M c c' ∧ J c'

variable {I J : Cursor → Prop} {turn : Cursor → Turn}

/-- A loop that has gone on ends in its next turn or takes more tokens. -/
def Looped (e : Bool) (k : Nat) (L : TreeLanguage) (c c' : Cursor) : Prop :=
  Run e k L c c' ∨ Run e (2 * k) L c c' ∧ c.read < c'.read

/-- A loop behind a step that takes something. -/
lemma Looped.behind (h' : Looped e k M c' c'') (h : Run e k L c c') (hm : c.read < c'.read)
    (hk : 3 * k ≤ fullPatience) : Run e (2 * k) (L * M) c c'' ∧ c.read < c''.read := by
  rcases h' with hlast | ⟨hmore, hm'⟩
  · exact ⟨(h.trans hlast).weaken (by omega) le_rfl, hm.trans_le hlast.read_le⟩
  · exact ⟨h.trans_moved hmore hm hm' (by omega) (by omega), hm.trans hm'⟩

/-- A turn in front of a loop. -/
lemma Looped.again (h' : Looped e k (L∗ * M) c' c'') (h : Run e k L c c')
    (hm : c.read < c'.read) (hk : 3 * k ≤ fullPatience) :
    Run e (2 * k) (L∗ * M) c c'' ∧ c.read < c''.read := by
  obtain ⟨hrun, hm'⟩ := h'.behind h hm hk
  refine ⟨hrun.weaken le_rfl ?_, hm'⟩
  rw [← mul_assoc]
  exact mul_le_mul_left mul_kstar_le_kstar M

/-- A loop with enough fuel for the tokens ahead. -/
lemma Run.iterate (hk : 3 * k ≤ fullPatience)
    (h : ∀ c, c.Live → I c → Turning e k L M I J c (turn c)) (fuel : Nat) (hc : c.Live) (hi : I c)
    (hf : c.rest.length < fuel) :
    Looped e k (L∗ * M) c (Cursor.iterate turn fuel c) ∧ J (Cursor.iterate turn fuel c) := by
  induction fuel generalizing c with
  | zero => exact absurd hf (Nat.not_lt_zero _)
  | succ fuel ih =>
      have hturn := h c hc hi
      rw [Cursor.iterate]
      cases ht : turn c with
      | done c' =>
          rw [ht] at hturn
          obtain ⟨hr, hj⟩ := hturn
          refine ⟨Or.inl (hr.weaken le_rfl ?_), hj⟩
          calc M = 1 * M := (one_mul M).symm
            _ ≤ L∗ * M := mul_le_mul_left one_le_kstar M
      | again c' =>
          rw [ht] at hturn
          obtain ⟨hr, hm, hi'⟩ := hturn
          have hfin := hr.finish_eq
          obtain ⟨hrun, hj⟩ := ih hr.live hi' (by rw [finish, finish] at hfin; omega)
          exact ⟨Or.inr (hrun.again hr hm hk), hj⟩

/-- Fuel for more turns than there are tokens ahead changes nothing. -/
lemma iterate_of_fuel (h : ∀ c, c.Live → I c → Turning e k L M I J c (turn c)) {fuel fuel' : Nat}
    (hc : c.Live) (hi : I c) (hf : c.rest.length < fuel) (hle : fuel ≤ fuel') :
    iterate turn fuel' c = iterate turn fuel c := by
  induction fuel generalizing fuel' c with
  | zero => exact absurd hf (Nat.not_lt_zero _)
  | succ fuel ih =>
      obtain ⟨fuel', rfl⟩ : ∃ n, fuel' = n + 1 := ⟨fuel' - 1, by omega⟩
      have hturn := h c hc hi
      rw [iterate, iterate]
      cases ht : turn c with
      | done c' => rfl
      | again c' =>
          rw [ht] at hturn
          obtain ⟨hr, hm, hi'⟩ := hturn
          have hfin := hr.finish_eq
          rw [finish, finish] at hfin
          exact ih hr.live hi' (by omega) (by omega)

/-- A loop that has enough fuel keeps what its turns keep, at twice the cost. -/
lemma Looped.run (h : Looped e k L c c') : Run e (2 * k) L c c' := by
  rcases h with hlast | ⟨hmore, _⟩
  · exact hlast.weaken (by omega) le_rfl
  · exact hmore

/-- **Loops**: what every turn keeps, the loop keeps, at twice the cost. -/
lemma Run.loop (hk : 3 * k ≤ fullPatience)
    (h : ∀ c, c.Live → I c → Turning e k L M I J c (turn c)) (hc : c.Live) (hi : I c) :
    Run e (2 * k) (L∗ * M) c (c.loop turn) ∧ J (c.loop turn) := by
  obtain ⟨hrun, hj⟩ := Run.iterate hk h (c.rest.length + 1) hc hi (Nat.lt_succ_self _)
  exact ⟨hrun.run, hj⟩

/-- A loop whose first turn is known better than the others. -/
lemma Run.loop_of_first {L₀ M₀ : TreeLanguage} (hk : 3 * k ≤ fullPatience)
    (h : ∀ c, c.Live → I c → Turning e k L M I J c (turn c))
    (h₀ : Turning e k L₀ M₀ I J c (turn c)) :
    Run e (2 * k) (M₀ + L₀ * (L∗ * M)) c (c.loop turn) ∧ J (c.loop turn) := by
  rw [Cursor.loop, Cursor.iterate]
  cases ht : turn c with
  | done c' =>
      rw [ht] at h₀
      obtain ⟨hr, hj⟩ := h₀
      exact ⟨(hr.weaken (by omega) le_rfl).inl, hj⟩
  | again c' =>
      rw [ht] at h₀
      obtain ⟨hr, hm, hi⟩ := h₀
      have hfin := hr.finish_eq
      rw [finish, finish] at hfin
      obtain ⟨hrun, hj⟩ := Run.iterate hk h c.rest.length hr.live hi (by omega)
      exact ⟨(hrun.behind hr hm hk).1.inr, hj⟩

/-- A turn of a loop with a condition; the last one does nothing. -/
lemma turning_while {more : Cursor → Bool} {body : Cursor → Cursor}
    (h : ∀ c, c.Live → I c → more c →
      Run e k L c (body c) ∧ c.read < (body c).read ∧ I (body c))
    (c : Cursor) (hc : c.Live) (hi : I c) :
    Turning e k L 1 I (fun c => I c ∧ more c = false) c
      (if more c then .again (body c) else .done c) := by
  by_cases hm : more c
  · rw [if_pos hm]
    exact h c hc hi hm
  · rw [if_neg hm]
    exact ⟨(Run.refl hc).weaken (Nat.zero_le _) le_rfl, hi, by simpa using hm⟩

lemma Run.loopWhile {more : Cursor → Bool} {body : Cursor → Cursor} (hk : 3 * k ≤ fullPatience)
    (h : ∀ c, c.Live → I c → more c →
      Run e k L c (body c) ∧ c.read < (body c).read ∧ I (body c))
    (hc : c.Live) (hi : I c) :
    Run e (2 * k) L∗ c (loopWhile more body c) ∧ I (loopWhile more body c) ∧
      more (loopWhile more body c) = false := by
  obtain ⟨hrun, hj⟩ := Run.loop hk (turning_while h) hc hi
  exact ⟨hrun.weaken le_rfl (mul_one _).le, hj⟩

/-- A loop that goes on is a turn and the loop after it. -/
lemma loop_eq (h : ∀ c, c.Live → I c → Turning e k L M I J c (turn c)) (hc : c.Live) (hi : I c)
    (ht : turn c = .again c') : c.loop turn = c'.loop turn := by
  have hturn := h c hc hi
  rw [ht] at hturn
  obtain ⟨hr, hgt, hi'⟩ := hturn
  have hfin := hr.finish_eq
  rw [finish, finish] at hfin
  rw [Cursor.loop, iterate, ht]
  exact iterate_of_fuel h hr.live hi' (Nat.lt_succ_self _) (by omega)

/-- A loop whose first turn is its last. -/
lemma loop_of_done (h : turn c = .done c') : c.loop turn = c' := by
  rw [loop, iterate, h]

lemma loopWhile_eq {more : Cursor → Bool} {body : Cursor → Cursor}
    (h : ∀ c, c.Live → I c → more c →
      Run e k L c (body c) ∧ c.read < (body c).read ∧ I (body c)) (hc : c.Live) (hi : I c)
    (hm : more c) : c.loopWhile more body = (body c).loopWhile more body :=
  loop_eq (turning_while h) hc hi (if_pos hm)

/-! ### Nodes -/

lemma Sound.opened (hc : c.Sound) : c.opened.Sound :=
  ⟨hc.exceeded, hc.limits, hc.charged, hc.lexed, hc.reported⟩

lemma Sound.closed (hc : c.Sound) (K : Kind) (before : Array Tree) : (c.closed K before).Sound :=
  ⟨hc.exceeded, hc.limits, hc.charged, hc.lexed, hc.reported⟩

lemma Live.opened (hc : c.Live) : c.opened.Live :=
  ⟨hc.toSound.opened, hc.backed⟩

lemma Live.closed (hc : c.Live) (K : Kind) (before : Array Tree) : (c.closed K before).Live :=
  ⟨hc.toSound.closed K before, hc.backed⟩

/-- A node over what a production builds. -/
lemma Run.node {K : Kind} (h : Run e k L c.opened c') :
    Run e k (Form.node K L) c (c'.closed K c.built) where
  live := h.live.closed K c.built
  grew := by
    obtain ⟨ts, new, ht, hb, hx, hn⟩ := h.grew
    have hnew : c'.built.toList = new := by simpa [opened] using hb
    refine ⟨ts, [.node K new], ⟨ht.rest, ht.read, ht.offset, ht.lineStart⟩, ?_, ?_,
      fun he => ⟨new, hn he, rfl⟩⟩
    · rw [closed, Array.toList_push, hnew]
    · rwa [Tree.leavesOf, Tree.leaves, Tree.leavesOf, List.append_nil]
  reports := h.reports
  safe := h.safe
  patient := h.patient
  fresh := h.fresh

lemma LineRun.node {K : Kind} (h : LineRun e k L c.opened c') :
    LineRun e k (Form.node K L) c (c'.closed K c.built) :=
  ⟨h.toRun.node, h.moved, h.aligned⟩

/-! ### Levels -/

/-- The cursor one level deeper. -/
def lowered (c : Cursor) : Cursor :=
  { c with budget := c.budget.descend, patience := fullPatience }

/-- The cursor one level higher. -/
def raised (c : Cursor) : Cursor :=
  { c with budget := c.budget.ascend, patience := fullPatience }

/-- A production one level deeper, where the budget allows it. -/
lemma nested_of_room {body : Cursor → Cursor} (h : c.budget.atDepthLimit = false) :
    c.nested body = (body c.lowered).raised := by
  rw [nested, h]
  rfl

/-- A production one level deeper, where the budget does not allow it. -/
lemma nested_of_no_room {body : Cursor → Cursor} (h : c.budget.atDepthLimit = true) :
    c.nested body
      = { c with exceeded := c.exceeded <|> some .depth, patience := fullPatience } := by
  rw [nested, h]
  rfl

/-- What holds in both cases holds of a production one level deeper. -/
lemma nested_cases {P : Cursor → Prop} {body : Cursor → Cursor}
    (deep : c.budget.atDepthLimit = true →
      P { c with exceeded := c.exceeded <|> some .depth, patience := fullPatience })
    (room : c.budget.atDepthLimit = false → P (body c.lowered).raised) : P (c.nested body) := by
  cases h : c.budget.atDepthLimit with
  | true => exact nested_of_no_room h ▸ deep h
  | false => exact nested_of_room h ▸ room h

/-- Without limits there is always room for one level more. -/
lemma Sound.nested_eq (hc : c.Sound) (body : Cursor → Cursor) :
    c.nested body = (body c.lowered).raised := by
  refine nested_of_room ?_
  rw [Budget.atDepthLimit, hc.limits]
  rfl

lemma Live.lowered (hc : c.Live) : c.lowered.Live :=
  ⟨⟨hc.exceeded, hc.limits, hc.charged, hc.lexed, hc.reported⟩, hc.backed⟩

lemma Live.raised (hc : c.Live) : c.raised.Live :=
  ⟨⟨hc.exceeded, hc.limits, hc.charged, hc.lexed, hc.reported⟩, hc.backed⟩

/-- A production one level deeper starts with full patience and leaves it behind. -/
lemma Run.raised (h : Run e k L c.lowered c') (hk : k ≤ fullPatience) :
    Run e 0 L c c'.raised where
  live := h.live.raised
  grew := by
    obtain ⟨ts, new, ht, hb, hx, hn⟩ := h.grew
    exact ⟨ts, new, ⟨ht.rest, ht.read, ht.offset, ht.lineStart⟩, hb, hx, hn⟩
  reports := h.reports
  safe := fun _ hf => h.safe ((min_self fullPatience).symm ▸ hk) hf
  patient := min_le_right _ _
  fresh := fun _ => le_rfl

end Cursor

end RequestFile
