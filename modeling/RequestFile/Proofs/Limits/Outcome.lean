import RequestFile.Proofs.Boundaries
import RequestFile.Proofs.Limits.Section
import RequestFile.Proofs.LineStarts

/-!
How a parse ends that may nest so deep and no deeper.

Take a cursor under limits that has reached none of them, with tokens enough for all that is ahead
(`Fits`) and with room for exactly `r` levels more (`Room r`).

* **Where there is room** a production leads to such a cursor again (`Fits.step`).
* **Where there is none** it stops: it reaches the limit of depth, without a fault.

Which of the two happens is seen in the trees that the parse builds without limits: `Outcome X` says
that it stops if one of them has the property `X`, and goes on if none has. Outcomes compose
(`Outcome.trans`), and what holds of the turns of a loop holds of the loop (`Outcome.iterate`).
-/

namespace RequestFile

open scoped Computability

namespace Cursor

variable {n k r : Nat} {K : Kind} {L M : TreeLanguage} {f : Cursor → Cursor} {X Y : Placed → Prop}
variable {c c' d d₀ d' d₀' : Cursor}

/-! ### Room -/

/-- No limit has been reached, and the limit of tokens allows all tokens ahead. -/
structure Fits (c : Cursor) : Prop where
  live : c.freed.Live
  fault : c.fault = none
  tokens : ∀ l, c.budget.limits.tokens = some l → c.finish ≤ l

/-- There is room for `r` levels more, and for no more than that. -/
def Room (r : Nat) (c : Cursor) : Prop :=
  c.budget.limits.depth = some (c.budget.depth + r)

lemma Fits.exceeded (hc : c.Fits) : c.exceeded = none :=
  hc.live.exceeded

lemma Fits.opened (hc : c.Fits) : c.opened.Fits :=
  ⟨hc.live.opened, hc.fault, hc.tokens⟩

lemma Fits.lowered (hc : c.Fits) : c.lowered.Fits :=
  ⟨hc.live.lowered, hc.fault, hc.tokens⟩

lemma Room.lowered (hr : c.Room (r + 1)) : c.lowered.Room r :=
  hr.trans (congrArg some (by simp only [Cursor.lowered, Budget.descend]; omega))

lemma Room.no_room (hr : c.Room 0) : c.budget.atDepthLimit = true := by
  rw [Budget.atDepthLimit, hr]
  simp

lemma Room.room (hr : c.Room (r + 1)) : c.budget.atDepthLimit = false := by
  rw [Budget.atDepthLimit, hr]
  simp

/-- A production that keeps to its limits leaves the room as it is. -/
lemma Room.of_metered (hr : c.Room r) (hm : Metered n f) : (f c).Room r := by
  rw [Room, hm.limits, hm.depth]
  exact hr

/-- A production for which there is room does what it does without limits. -/
lemma Fits.step (hc : c.Fits) (hr : c.Room r) (hm : Metered n f) (hn : n ≤ r)
    (hrun : Run true k L c.freed (f c.freed)) (hk : k ≤ min c.patience fullPatience) :
    (f c).Fits ∧ f c.freed = (f c).freed := by
  -- a limit is not reached: the tokens are enough for the source, and the levels for the production
  have hx : (f c).exceeded = none := by
    cases h : (f c).exceeded with
    | none => rfl
    | some l =>
        have hover := hm.overrun c l hc.exceeded h
        cases l with
        | tokens =>
            obtain ⟨l, hl, hlt⟩ := hover
            have hle := hc.tokens l hl
            have hfin : (f c.freed).finish = c.finish := hrun.finish_eq
            rw [hrun.live.charged] at hlt
            rw [finish] at hfin
            omega
        | depth =>
            obtain ⟨r', hr', hlt⟩ := hover
            have := Option.some.inj (hr.symm.trans hr')
            omega
  have hfree := hm.freed c hx
  have hfin := hrun.finish_eq
  have hfault := hrun.safe hk hc.fault
  rw [hfree] at hfin hfault
  refine ⟨⟨hfree ▸ hrun.live, hfault, fun l hl => ?_⟩, hfree⟩
  rw [hm.limits] at hl
  exact hfin.le.trans (hc.tokens l hl)

/-! ### Outcomes -/

/-- From `c` a production leads to `d`, and to `d₀` without limits. There it builds trees of which
one has the property `X` if it stops at the limit of depth, and none if it reaches no limit. -/
inductive Outcome (X : Placed → Prop) (c d d₀ : Cursor) : Prop
  | passed (new : List Tree) (built : d₀.built.toList = c.built.toList ++ new)
      (fault : d.fault = none) (exceeded : d.exceeded = none)
      (all : ∀ y ∈ Placed.sequence c.offset new, ¬X y)
  | stopped (new : List Tree) (built : d₀.built.toList = c.built.toList ++ new)
      (fault : d.fault = none) (exceeded : d.exceeded = some .depth)
      (some : ∃ y ∈ Placed.sequence c.offset new, X y)

/-- The trees that a run builds cover what it takes. -/
lemma Run.offset_eq {new : List Tree} (h : Run true k L c c')
    (hb : c'.built.toList = c.built.toList ++ new) : c'.offset = c.offset + Tree.sizeOf new := by
  obtain ⟨ts, new', ht, hb', hx, _⟩ := h.grew
  obtain rfl : new' = new := List.append_cancel_left (hb'.symm.trans hb)
  rw [ht.offset, Tree.sizeOf_eq, hx.textOf_eq, ← Token.sizeOf_eq]

namespace Outcome

protected lemma refl (hc : c.Fits) : Outcome X c c c.freed :=
  .passed [] (List.append_nil _).symm hc.fault hc.exceeded fun _ h => absurd h List.not_mem_nil

/-- A production for which there is room, and whose trees do not have the property. -/
lemma of_step (hc : c.Fits) (hr : c.Room r) (hm : Metered n f) (hn : n ≤ r)
    (hrun : Run true k L c.freed (f c.freed)) (hk : k ≤ min c.patience fullPatience)
    (hX : ∀ w ∈ L, ∀ o, ∀ y ∈ Placed.sequence o w, ¬X y) :
    Outcome X c (f c) (f c.freed) := by
  obtain ⟨hfits, _⟩ := hc.step hr hm hn hrun hk
  obtain ⟨_, new, _, hb, _, hw⟩ := hrun.grew
  exact .passed new hb hfits.fault hfits.exceeded (hX new (hw fun _ => rfl) _)

/-- A production that has reached no limit, and what comes after it. -/
lemma trans (h : Outcome X c d d.freed) (hx : d.exceeded = none) (hrun : Run true k L c.freed d.freed)
    (h' : Outcome X d d' d₀') : Outcome X c d' d₀' := by
  cases h with
  | stopped _ _ _ hex => exact absurd (hex.symm.trans hx) (by simp)
  | passed new hb _ _ hall =>
      have hoff : d.offset = c.offset + Tree.sizeOf new := hrun.offset_eq hb
      have hrow : ∀ {new' : List Tree}, d₀'.built.toList = d.built.toList ++ new' →
          d₀'.built.toList = c.built.toList ++ (new ++ new') := fun h => by
        rw [h, ← List.append_assoc]
        exact congrArg (· ++ _) hb
      have hseq : ∀ new', Placed.sequence c.offset (new ++ new')
          = Placed.sequence c.offset new ++ Placed.sequence d.offset new' := fun new' => by
        rw [Placed.sequence_append, hoff]
      cases h' with
      | passed new' hb' hf' hx' hall' =>
          refine .passed _ (hrow hb') hf' hx' fun y hy => ?_
          rw [hseq, List.mem_append] at hy
          exact hy.elim (hall y) (hall' y)
      | stopped new' hb' hf' hx' hsome =>
          obtain ⟨y, hy, hX⟩ := hsome
          refine .stopped _ (hrow hb') hf' hx' ⟨y, ?_, hX⟩
          rw [hseq, List.mem_append]
          exact Or.inr hy

/-- What a parse without limits builds after a production that has stopped. -/
lemma extend {more : List Tree} (h : Outcome X c d d₀) (hx : d.exceeded ≠ none)
    (hb : d₀'.built.toList = d₀.built.toList ++ more) : Outcome X c d d₀' := by
  cases h with
  | passed _ _ _ hex => exact absurd hex hx
  | stopped new hb' hf hex hsome =>
      obtain ⟨y, hy, hX⟩ := hsome
      refine .stopped (new ++ more) (by rw [hb, hb', List.append_assoc]) hf hex ⟨y, ?_, hX⟩
      rw [Placed.sequence_append]
      exact List.mem_append_left _ hy

lemma fault_eq (h : Outcome X c d d₀) : d.fault = none := by
  cases h with
  | passed _ _ hf => exact hf
  | stopped _ _ hf => exact hf

/-! ### Nodes one level deeper -/

/-- A node for which there is no room. -/
lemma nested_of_no_room (hc : c.Fits) (hr : c.Room 0)
    (hrun : Run true k (Form.node K L) c.freed d₀) (hX : ∀ ts, X ⟨c.offset, .node K ts⟩) :
    Outcome X c (c.nested f) d₀ := by
  obtain ⟨_, new, _, hb, _, hw⟩ := hrun.grew
  obtain ⟨ts, _, rfl⟩ := hw fun _ => rfl
  rw [Cursor.nested_of_no_room hr.no_room]
  refine .stopped _ hb hc.fault ?_ ⟨⟨c.offset, .node K ts⟩, List.mem_singleton_self _, hX ts⟩
  simp [hc.exceeded]

/-- A node for which there is room. -/
lemma nested_of_room (hr : c.Room (r + 1))
    (h : Outcome Y c.lowered.opened (f c.lowered.opened) (f c.lowered.opened.freed))
    (hX : ∀ ts, X ⟨c.offset, .node K ts⟩ ↔ ∃ y ∈ Placed.sequence c.offset ts, Y y) :
    Outcome X c (c.nested (node K f)) (c.freed.nested (node K f)) := by
  rw [Cursor.nested_of_room hr.room, Cursor.nested_of_room (c := c.freed) rfl]
  have hrow : ∀ {new : List Tree}, (f c.lowered.opened.freed).built.toList
      = c.lowered.opened.built.toList ++ new →
      ((node K f) c.freed.lowered).raised.built.toList = c.built.toList ++ [.node K new] :=
    fun hb => by
      have hnew : (f c.lowered.opened.freed).built.toList = _ := hb.trans (List.nil_append _)
      rw [← hnew]
      exact Array.toList_push
  cases h with
  | passed new hb hf hx hall =>
      refine .passed _ (hrow hb) hf hx fun y hy hy' => ?_
      obtain rfl := List.mem_singleton.mp hy
      obtain ⟨z, hz, hY⟩ := (hX new).mp hy'
      exact hall z hz hY
  | stopped new hb hf hx hsome =>
      exact .stopped _ (hrow hb) hf hx ⟨_, List.mem_singleton_self _, (hX new).mpr hsome⟩

end Outcome

/-! ### Loops -/

section Loops

variable {turn : Cursor → Turn} {I J : Cursor → Prop}

lemma Turning.of_goesOn {t : Turn} (h : Turning true k L M I J c t) (ht : t.goesOn) :
    Run true k L c t.cursor ∧ c.read < t.cursor.read ∧ I t.cursor := by
  cases t with
  | again c' => exact h
  | done c' => cases ht

/-- What is left after a turn takes less fuel. -/
lemma Turning.length_rest_lt {t : Turn} {fuel : Nat} (h : Turning true k L M I J c t) (ht : t.goesOn)
    (hf : c.rest.length < fuel + 1) : t.cursor.rest.length < fuel := by
  obtain ⟨hrun, hmoved, _⟩ := h.of_goesOn ht
  have hfin := hrun.finish_eq
  rw [finish, finish] at hfin
  omega

/-- A loop that has reached a limit in its first turn is done in the next. -/
lemma iterate_of_exceeded (hstop : ∀ c : Cursor, c.stopped → turn c = .done c)
    (hx : (turn c).cursor.exceeded ≠ none) {fuel : Nat} (hf : c.rest.length < fuel + 1) :
    Cursor.iterate turn (fuel + 1) c = (turn c).cursor := by
  rw [iterate_succ]
  by_cases ht : (turn c).goesOn
  · obtain ⟨m, rfl⟩ : ∃ m, fuel = m + 1 := by
      refine Nat.exists_eq_succ_of_ne_zero fun h0 => ?_
      have hnil : c.rest = [] := List.length_eq_zero_iff.mp (by omega)
      rw [hstop c (by simp [Cursor.stopped, atEnd, hnil])] at ht
      cases ht
    have hstopped : (turn c).cursor.stopped := by
      rw [Cursor.stopped, Option.isSome_iff_ne_none.mpr hx]
      exact Bool.or_true _
    rw [if_pos ht, iterate_succ, hstop _ hstopped]
    rfl
  · rw [if_neg ht]

/-- **Loops**: what a turn finds, the loop finds. -/
lemma Outcome.iterate (hk : 3 * k ≤ fullPatience) (hm : MeteredTurn n turn)
    (hfree : ∀ c, c.Live → I c → Turning true k L M I J c (turn c))
    (hstop : ∀ c : Cursor, c.stopped → turn c = .done c)
    (hturn : ∀ c, c.Fits → c.Room r → I c.freed → k ≤ min c.patience fullPatience →
      Outcome X c (turn c).cursor (turn c.freed).cursor)
    (fuel : Nat) (hc : c.Fits) (hr : c.Room r) (hi : I c.freed)
    (hp : k ≤ min c.patience fullPatience) (hf : c.rest.length < fuel) :
    Outcome X c (Cursor.iterate turn fuel c) (Cursor.iterate turn fuel c.freed) := by
  -- the two loops run in step until the limit is reached, so that one fuel serves both
  induction fuel generalizing c with
  | zero => exact absurd hf (Nat.not_lt_zero _)
  | succ fuel ih =>
      have hout := hturn c hc hr hi hp
      have hturning := hfree c.freed hc.live hi
      by_cases hx : (turn c).cursor.exceeded = none
      · -- no limit so far: both loops go on, or both are done
        have hsame := hm.run.freed c hx
        rw [iterate_succ, iterate_succ, hm.same c hx, hsame]
        rw [hsame] at hout
        by_cases ht : (turn c).goesOn
        · have ht' : (turn c.freed).goesOn := (hm.same c hx).trans ht
          have hfuel := hturning.length_rest_lt ht' hf
          obtain ⟨hrun, hmoved, hi'⟩ := hturning.of_goesOn ht'
          rw [hsame] at hrun hmoved hi' hfuel
          have hfits : (turn c).cursor.Fits := by
            refine ⟨hrun.live, hout.fault_eq, fun l hl => ?_⟩
            rw [hm.run.limits] at hl
            exact hrun.finish_eq.le.trans (hc.tokens l hl)
          have hfresh : fullPatience ≤ (turn c).cursor.patience + k := hrun.fresh hmoved
          rw [if_pos ht, if_pos ht]
          exact hout.trans hx hrun (ih hfits (hr.of_metered hm.run) hi' (by omega) hfuel)
        · rw [if_neg ht, if_neg ht]
          exact hout
      · -- a limit has been reached: only the loop without limits may go on
        rw [iterate_of_exceeded hstop hx hf, iterate_succ]
        by_cases ht : (turn c.freed).goesOn
        · obtain ⟨hrun, _, hi'⟩ := hturning.of_goesOn ht
          have hmore := (Run.iterate hk hfree fuel hrun.live hi' (hturning.length_rest_lt ht hf)).1
          rw [if_pos ht]
          rcases hmore with hmore | ⟨hmore, _⟩
          · obtain ⟨_, more, _, hb, _⟩ := hmore.grew
            exact hout.extend hx hb
          · obtain ⟨_, more, _, hb, _⟩ := hmore.grew
            exact hout.extend hx hb
        · rw [if_neg ht]
          exact hout

end Loops

end Cursor

end RequestFile
