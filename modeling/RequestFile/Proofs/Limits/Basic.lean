import RequestFile.Proofs.Compositional
import RequestFile.Proofs.Run

/-!
Parsing under limits.

`Metered n f` says how a production that nests others at most `n` deep meets its limits.

* **Below the limits** it does what it does without them: the cursors it leads to differ in their
  limits only (`Cursor.freed`).
* **At a limit** it records the limit for good, and it does so only where the parse without limits
  takes more tokens than are allowed, or nests deeper (`Cursor.Overrun`).

Everything a production asks a cursor has the same answer on both sides, except in `take` and in
`nested`. So productions that are put together from metered ones are metered; for those that do not
nest this is an instance of `Compositional`.
-/

namespace RequestFile

namespace Cursor

/-- The cursor without its limits. -/
def freed (c : Cursor) : Cursor :=
  { c with budget := { c.budget with limits := .unlimited } }

/-- From `c`, under its limits, a parse that nests at most `n` deep and would lead to `d` without
limits goes beyond a limit. -/
def Overrun (n : Nat) (c d : Cursor) : Limit → Prop
  | .tokens => ∃ l, c.budget.limits.tokens = some l ∧ l < d.budget.tokens
  | .depth => ∃ r, c.budget.limits.depth = some r ∧ r < c.budget.depth + n

/-- The count of tokens is within its limit. -/
def Capped (c : Cursor) : Prop :=
  ∀ l, c.budget.limits.tokens = some l → c.budget.tokens ≤ l

/-- A production keeps to its limits and nests at most `n` deep. -/
structure Metered (n : Nat) (f : Cursor → Cursor) : Prop where
  limits : ∀ c, (f c).budget.limits = c.budget.limits
  depth : ∀ c, (f c).budget.depth = c.budget.depth
  tokens : ∀ c, c.budget.limits = .unlimited → c.budget.tokens ≤ (f c).budget.tokens
  capped : ∀ c, c.Capped → (f c).Capped
  sticky : ∀ c l, c.exceeded = some l → (f c).exceeded = some l
  freed : ∀ c, (f c).exceeded = none → f c.freed = (f c).freed
  overrun : ∀ c l, c.exceeded = none → (f c).exceeded = some l → Overrun n c (f c.freed) l

variable {m n : Nat} {k : Kind} {f g : Cursor → Cursor} {c d d' : Cursor} {l : Limit}

lemma Overrun.mono (h : Overrun m c d l) (hn : m ≤ n) (ht : d.budget.tokens ≤ d'.budget.tokens) :
    Overrun n c d' l := by
  cases l with
  | tokens =>
      obtain ⟨l, hl, hlt⟩ := h
      exact ⟨l, hl, hlt.trans_le ht⟩
  | depth =>
      obtain ⟨r, hr, hlt⟩ := h
      exact ⟨r, hr, by omega⟩

/-- The limits and the depth of a cursor decide what goes beyond them. -/
lemma Overrun.of_limits {c' : Cursor} (h : Overrun n c' d l)
    (hl : c'.budget.limits = c.budget.limits) (hd : c'.budget.depth = c.budget.depth) :
    Overrun n c d l := by
  cases l with
  | tokens => rwa [Overrun, hl] at h
  | depth => rwa [Overrun, hl, hd] at h

namespace Metered

/-! ### Putting productions together -/

/-- A production that neither takes tokens nor nests. -/
lemma of_plain (hb : ∀ c, (f c).budget = c.budget) (hx : ∀ c, (f c).exceeded = c.exceeded)
    (hf : ∀ c, f c.freed = (f c).freed) : Metered n f where
  limits := fun c => by rw [hb]
  depth := fun c => by rw [hb]
  tokens := fun c _ => by rw [hb]
  capped := fun c h => by rwa [Capped, hb]
  sticky := fun c l h => (hx c).trans h
  freed := fun c _ => hf c
  overrun := fun c l h h' => by
    rw [hx, h] at h'
    exact absurd h' (by simp)

protected lemma id : Metered n id :=
  of_plain (fun _ => rfl) (fun _ => rfl) fun _ => rfl

lemma mono (h : Metered m f) (hn : m ≤ n) : Metered n f :=
  ⟨h.limits, h.depth, h.tokens, h.capped, h.sticky, h.freed, fun c l hc hl =>
    (h.overrun c l hc hl).mono hn le_rfl⟩

/-- If a limit has not been reached at the end, it has not been reached before. -/
lemma exceeded_none (h : Metered n f) (hf : (f c).exceeded = none) : c.exceeded = none := by
  cases hc : c.exceeded with
  | none => rfl
  | some l =>
      rw [h.sticky c l hc] at hf
      exact absurd hf (by simp)

/-- Where a production reaches a limit, it also does so if more follows. -/
lemma overrun_of_more (h : Metered n f) (hc : c.exceeded = none) (hf : (f c).exceeded = some l)
    (ht : (f c.freed).budget.tokens ≤ d.budget.tokens) : Overrun n c d l :=
  (h.overrun c l hc hf).mono le_rfl ht

/-- Productions one after the other. -/
lemma andThen (h : Metered n f) (h' : Metered n g) : Metered n fun c => g (f c) where
  limits := fun c => (h'.limits _).trans (h.limits c)
  depth := fun c => (h'.depth _).trans (h.depth c)
  tokens := fun c hc => (h.tokens c hc).trans (h'.tokens _ ((h.limits c).trans hc))
  capped := fun c hc => h'.capped _ (h.capped c hc)
  sticky := fun c l hc => h'.sticky _ l (h.sticky c l hc)
  freed := fun c hc => by rw [h.freed c (h'.exceeded_none hc), h'.freed _ hc]
  overrun := fun c l hc hl => by
    cases hf : (f c).exceeded with
    | none =>
        rw [h.freed c hf]
        exact (h'.overrun _ l hf hl).of_limits (h.limits c) (h.depth c)
    | some l' =>
        obtain rfl : l' = l := Option.some.inj ((h'.sticky _ l' hf).symm.trans hl)
        exact h.overrun_of_more hc hf (h'.tokens _ (h.limits c.freed))

/-- A production that depends on something seen where it begins. -/
lemma seen {α : Type} {a : Cursor → α} {F : α → Cursor → Cursor} (ha : ∀ c, a c.freed = a c)
    (h : ∀ x, Metered n (F x)) : Metered n fun c => F (a c) c where
  limits := fun c => (h _).limits c
  depth := fun c => (h _).depth c
  tokens := fun c => (h _).tokens c
  capped := fun c => (h _).capped c
  sticky := fun c => (h _).sticky c
  freed := fun c hc => by
    rw [ha]
    exact (h _).freed c hc
  overrun := fun c l hc hl => by
    rw [ha]
    exact (h _).overrun c l hc hl

/-! ### Faults -/

lemma broken (x : Fault) : Metered n (broken x) :=
  of_plain (fun _ => rfl) (fun _ => rfl) fun _ => rfl

/-! ### Taking tokens -/

/-- Taking tokens under limits that allow them. -/
lemma take_freed (k : Kind) {i : Nat} (hc : (c.take k i).exceeded = none) :
    c.freed.take k i = (c.take k i).freed := by
  have hx : c.exceeded = none ∧ c.budget.overcharged (c.rest.take i).length = false := by
    simpa [Cursor.take] using hc
  have htokens : (c.budget.limits.tokens.elim (c.budget.tokens + (c.rest.take i).length) fun l =>
      min l (c.budget.tokens + (c.rest.take i).length))
        = c.budget.tokens + (c.rest.take i).length := by
    have hover := hx.2
    rw [Budget.overcharged] at hover
    cases hl : c.budget.limits.tokens with
    | none => rfl
    | some l =>
        rw [hl] at hover
        exact min_eq_right (by simpa using hover)
  simp only [Cursor.take, Cursor.freed, Budget.charge, htokens, hx.1, hx.2]
  rfl

lemma take (k : Kind) (i : Nat) : Metered n (take k i) where
  limits := fun c => rfl
  depth := fun c => rfl
  tokens := fun c hc => by
    simp [Cursor.take, Budget.charge, hc, Limits.unlimited]
  capped := fun c _ l hl => by
    have hl : c.budget.limits.tokens = some l := hl
    simp [Cursor.take, Budget.charge, hl]
  sticky := fun c l hc => by simp [Cursor.take, hc]
  freed := fun c hc => take_freed k hc
  overrun := fun c l hc hl => by
    have hl : (if c.budget.overcharged (c.rest.take i).length then some Limit.tokens else none)
        = some l := by simpa [Cursor.take, hc] using hl
    split_ifs at hl with hover
    obtain rfl := Option.some.inj hl
    rw [Budget.overcharged, Option.any_eq_true] at hover
    obtain ⟨l, hl, hlt⟩ := hover
    exact ⟨l, hl, of_decide_eq_true hlt⟩

/-! ### Grouping -/

lemma opened : Metered n opened :=
  of_plain (fun _ => rfl) (fun _ => rfl) fun _ => rfl

lemma closed (k : Kind) (b : Array Tree) : Metered n (closed k b) :=
  of_plain (fun _ => rfl) (fun _ => rfl) fun _ => rfl

/-! ### Reporting -/

lemma fileAt (o : Nat) (x : Diagnostic) : Metered n (fileAt o x) := by
  refine of_plain (fun c => ?_) (fun c => ?_) fun c => ?_
  · rw [Cursor.fileAt]
    split <;> rfl
  · rw [Cursor.fileAt]
    split <;> rfl
  · by_cases h : c.lastReport = some o
    · rw [Cursor.fileAt, Cursor.fileAt, if_pos h]
      exact if_pos h
    · rw [Cursor.fileAt, Cursor.fileAt, if_neg h]
      exact if_neg h

/-! ### Productions -/

instance : Compositional
    (fun c => ⟨c.reports, c.lastReport, { c.budget with limits := .unlimited }⟩) (Metered n) where
  skip := Metered.id
  andThen := andThen
  seen := seen
  broken := broken
  patience := fun _ => of_plain (fun _ => rfl) (fun _ => rfl) fun _ => rfl
  take := take
  opened := opened
  closed := closed
  fileAt := fileAt

lemma ite {p : Cursor → Prop} [DecidablePred p] (hp : ∀ c, p c.freed ↔ p c) (h : Metered n f)
    (h' : Metered n g) : Metered n fun c => if p c then f c else g c :=
  Compositional.ite (P := Metered n) hp h h'

lemma look : Metered n look :=
  Compositional.look

lemma on (h : Metered n f) (h' : Metered n g) : Metered n (on k f g) :=
  Compositional.on h h'

lemma demand : Metered n (demand k) :=
  Compositional.demand

lemma bump : Metered n bump :=
  Compositional.bump

lemma textUntil (stop : Nat) : Metered n (textUntil stop) :=
  Compositional.textUntil stop

lemma eat : Metered n (eat k) :=
  Compositional.eat

lemma eatBlank : Metered n eatBlank :=
  eat

lemma eatNewline : Metered n eatNewline :=
  eat

lemma eatBlankLine : Metered n eatBlankLine :=
  eatBlank.andThen eatNewline

lemma node (h : Metered n f) : Metered n (node k f) :=
  Compositional.node h

lemma leaf (k : Kind) (stop : Nat) : Metered n (leaf k stop) :=
  Compositional.leaf k stop

lemma operator : Metered n operator :=
  Compositional.operator

lemma errorUntil (stop : Nat) : Metered n (errorUntil stop) :=
  ite (p := fun c => stop ≤ c.read) (fun _ => Iff.rfl) .id (leaf .error stop)

lemma loopWhile {more : Cursor → Bool} (hm : ∀ c, more c.freed = more c) (h : Metered n f) :
    Metered n (loopWhile more f) :=
  Compositional.loopWhile (P := Metered n) hm h

/-! ### Nesting -/

/-- One level deeper. -/
lemma nested (h : Metered n f) : Metered (n + 1) (nested f) where
  limits := fun c => nested_cases (P := (·.budget.limits = c.budget.limits)) (fun _ => rfl)
    fun _ => h.limits c.lowered
  depth := fun c => nested_cases (P := (·.budget.depth = c.budget.depth)) (fun _ => rfl)
    fun _ => congrArg (· - 1) (h.depth c.lowered)
  tokens := fun c hc => nested_cases (P := (c.budget.tokens ≤ ·.budget.tokens))
    (fun _ => le_rfl) fun _ => h.tokens c.lowered hc
  capped := fun c hc => nested_cases (fun _ => hc) fun _ => h.capped c.lowered hc
  sticky := fun c l hc => nested_cases (P := (·.exceeded = some l)) (fun _ => by simp [hc])
    fun _ => h.sticky c.lowered l hc
  freed := fun c => by
    refine nested_cases (P := fun d => d.exceeded = none → c.freed.nested f = d.freed)
      (fun _ hd => ?_) fun _ hd => ?_
    · simp at hd
    · rw [nested_of_room (c := c.freed) rfl]
      exact congrArg raised (h.freed c.lowered hd)
  overrun := fun c l hc => by
    refine nested_cases
      (P := fun d => d.exceeded = some l → Overrun (n + 1) c (c.freed.nested f) l)
      (fun hroom hl => ?_) fun _ hl => ?_
    · rw [hc] at hl
      obtain rfl : Limit.depth = l := Option.some.inj hl
      rw [Budget.atDepthLimit, Option.any_eq_true] at hroom
      obtain ⟨r, hr, hle⟩ := hroom
      exact ⟨r, hr, by have := of_decide_eq_true hle; omega⟩
    · rw [nested_of_room (c := c.freed) rfl]
      have hover := h.overrun c.lowered l hc hl
      cases l with
      | tokens => exact hover
      | depth =>
          obtain ⟨r, hr, hlt⟩ := hover
          have hlt : r < c.budget.depth + 1 + n := hlt
          exact ⟨r, hr, by omega⟩

end Metered

/-! ### Loops -/

/-- The cursor after a turn. -/
def Turn.cursor : Turn → Cursor
  | .again c => c
  | .done c => c

/-- Whether the loop goes on after a turn. -/
def Turn.goesOn : Turn → Bool
  | .again _ => true
  | .done _ => false

lemma iterate_succ (turn : Cursor → Turn) (fuel : Nat) (c : Cursor) :
    iterate turn (fuel + 1) c
      = if (turn c).goesOn then iterate turn fuel (turn c).cursor else (turn c).cursor := by
  rw [iterate]
  cases turn c <;> rfl

/-- A turn of a loop keeps to its limits, and below them the loop goes on as it does without. -/
structure MeteredTurn (n : Nat) (turn : Cursor → Turn) : Prop where
  run : Metered n fun c => (turn c).cursor
  same : ∀ c, (turn c).cursor.exceeded = none → (turn c.freed).goesOn = (turn c).goesOn

namespace MeteredTurn

variable {turn turn' : Cursor → Turn}

/-- A turn after which the loop goes on. -/
lemma again (h : Metered n f) : MeteredTurn n fun c => .again (f c) :=
  ⟨h, fun _ _ => rfl⟩

/-- A turn after which the loop is done. -/
lemma done (h : Metered n f) : MeteredTurn n fun c => .done (f c) :=
  ⟨h, fun _ _ => rfl⟩

/-- A production in front of a turn. -/
lemma after (h : Metered n f) (h' : MeteredTurn n turn) : MeteredTurn n fun c => turn (f c) where
  run := h.andThen h'.run
  same := fun c hc => by
    rw [h.freed c (h'.run.exceeded_none hc)]
    exact h'.same _ hc

lemma seen {α : Type} {a : Cursor → α} {F : α → Cursor → Turn} (ha : ∀ c, a c.freed = a c)
    (h : ∀ x, MeteredTurn n (F x)) : MeteredTurn n fun c => F (a c) c where
  run := Metered.seen (F := fun x c => (F x c).cursor) ha fun x => (h x).run
  same := fun c hc => by
    rw [ha]
    exact (h _).same c hc

lemma ite {p : Cursor → Prop} [DecidablePred p] (hp : ∀ c, p c.freed ↔ p c)
    (h : MeteredTurn n turn) (h' : MeteredTurn n turn') :
    MeteredTurn n fun c => if p c then turn c else turn' c := by
  rw [ite_fun_eq]
  refine seen (a := fun c => decide (p c)) (F := fun b => if b then turn else turn')
    (fun c => by simp [hp c]) fun b => ?_
  cases b with
  | true => exact h
  | false => exact h'

/-- A loop that wants more turns than it has fuel for is stuck on both sides. -/
lemma iterate (h : MeteredTurn n turn) (fuel : Nat) : Metered n (iterate turn fuel) := by
  induction fuel with
  | zero => exact .broken .stuck
  | succ fuel ih =>
      -- the loop is one turn and then, if it goes on, the loop with less fuel
      have hrest : ∀ b : Bool, Metered n fun c : Cursor => if b then Cursor.iterate turn fuel c else c
        | true => ih
        | false => .id
      have heq := iterate_succ turn fuel
      have hsticky : ∀ c l, (turn c).cursor.exceeded = some l →
          (Cursor.iterate turn (fuel + 1) c).exceeded = some l := fun c l hl => by
        rw [heq]
        exact (hrest _).sticky _ l hl
      have hnone : ∀ c, (Cursor.iterate turn (fuel + 1) c).exceeded = none →
          (turn c).cursor.exceeded = none := fun c hc => by
        rw [heq] at hc
        exact (hrest _).exceeded_none hc
      refine ⟨fun c => ?_, fun c => ?_, fun c hc => ?_, fun c hc => ?_, fun c l hl => ?_,
        fun c hc => ?_, fun c l hc hl => ?_⟩
      · rw [heq]
        exact ((hrest _).limits _).trans (h.run.limits c)
      · rw [heq]
        exact ((hrest _).depth _).trans (h.run.depth c)
      · rw [heq]
        exact (h.run.tokens c hc).trans ((hrest _).tokens _ ((h.run.limits c).trans hc))
      · rw [heq]
        exact (hrest _).capped _ (h.run.capped c hc)
      · exact hsticky c l (h.run.sticky c l hl)
      · have hturn := hnone c hc
        rw [heq] at hc ⊢
        rw [heq, h.same c hturn, h.run.freed c hturn]
        exact (hrest _).freed _ hc
      · cases hturn : (turn c).cursor.exceeded with
        | none =>
            rw [heq] at hl ⊢
            rw [h.same c hturn, h.run.freed c hturn]
            exact ((hrest _).overrun _ l hturn hl).of_limits (h.run.limits c) (h.run.depth c)
        | some l' =>
            obtain rfl : l' = l := Option.some.inj ((hsticky c l' hturn).symm.trans hl)
            refine h.run.overrun_of_more hc hturn ?_
            rw [heq]
            exact (hrest _).tokens _ (h.run.limits c.freed)

end MeteredTurn

namespace Metered

/-- **Loops** keep to their limits. -/
lemma loop {turn : Cursor → Turn} (h : MeteredTurn n turn) : Metered n (loop turn) :=
  seen (a := fun c => c.rest.length + 1) (fun _ => rfl) fun fuel => h.iterate fuel

lemma eatNewlines : Metered n eatNewlines :=
  loop (.ite (p := fun c => c.atEnd = true) (fun _ => Iff.rfl) (.done .id)
    (.after .look (.ite (p := fun c => c.sees .newline = true) (fun _ => Iff.rfl) (.again bump)
      (.done .id))))

/-! ### Reporting -/

lemma file (x : Diagnostic) : Metered n (file x) :=
  fileAt _ x

lemma report (p : Problem) (span : Span) (detail : String) : Metered n (report p span detail) :=
  file _

lemma reportHere (p : Problem) (detail : String) : Metered n (reportHere p detail) :=
  Compositional.reportHere p detail

lemma rejectLine (p : Problem) (detail : String) : Metered n (rejectLine p detail) :=
  seen (a := lineEnd) (fun _ => rfl) fun stop =>
    (seen (a := fun c => if c.read < stop then c.spanTo stop else c.span) (fun _ => rfl)
      fun span => report p span detail).andThen (errorUntil stop)

lemma finishLine (detail : String) : Metered n (finishLine detail) :=
  ite (p := fun c => c.atEnd = true) (fun _ => Iff.rfl) .id (on .id (rejectLine _ _))

lemma reportUnclosed (p : Problem) (detail label : String) (opener : Span) :
    Metered n (reportUnclosed p detail label opener) :=
  Compositional.reportUnclosed p detail label opener

end Metered

end Cursor

end RequestFile
