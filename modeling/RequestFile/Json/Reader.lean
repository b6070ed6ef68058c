/-!
Readers of JSON texts.

A reader takes what it knows from the front of a text and leaves the rest; the first fault it meets,
from left to right, ends the reading.

* `Reader`: what to take, with the proof that a reader never leaves more than it was given.
* `Reader.loop`: repeats a step, each time after one more character, so the proof is all it needs to
  end.
* `Reader.look`: the next character that is not a space, left in place.
-/

namespace RequestFile.Json

/-- Why a text is not read. -/
inductive Fault where
  /-- The text is no JSON. -/
  | malformed
  /-- The text is JSON, but holds another thing than the one looked for. -/
  | mismatched
  /-- The text ends too early. -/
  | truncated
deriving DecidableEq, Repr

/-- A reader of a value at the front of a text. -/
structure Reader (α : Type) where
  /-- The value and the rest of the text. -/
  run : List Char → Except Fault (α × List Char)
  /-- What is left is no longer than what was given. -/
  shrinks : ∀ {cs a rest}, run cs = .ok (a, rest) → rest.length ≤ cs.length

namespace Reader

/-- Takes nothing. -/
def yield (a : α) : Reader α where
  run cs := .ok (a, cs)
  shrinks h := by cases h; exact Nat.le_refl _

/-- Reads one thing, then another on what is left. -/
def andThen (r : Reader α) (f : α → Reader β) : Reader β where
  run cs :=
    match r.run cs with
    | .error e => .error e
    | .ok (a, rest) => (f a).run rest
  shrinks {cs b rest} h := by
    split at h
    · cases h
    · next a mid hr => exact Nat.le_trans ((f a).shrinks h) (r.shrinks hr)

instance : Monad Reader where
  pure := yield
  bind := andThen

/-- Takes nothing and ends the reading. -/
def fail (e : Fault) : Reader α where
  run _ := .error e
  shrinks h := by cases h

/-- The next character, if there is one, left in place. -/
def peek? : Reader (Option Char) where
  run cs := .ok (cs.head?, cs)
  shrinks h := by cases h; exact Nat.le_refl _

/-- Takes the next character; `e` is the fault where there is none. -/
def next (e : Fault) : Reader Char where
  run
    | [] => .error e
    | c :: rest => .ok (c, rest)
  shrinks {cs a rest} h := by
    cases cs with
    | nil => cases h
    | cons c cs => cases h; exact Nat.le_succ _

/-- Takes the characters of a kind, as many as there are. -/
def takeWhile (p : Char → Bool) : Reader (List Char) where
  run cs := .ok (cs.takeWhile p, cs.dropWhile p)
  shrinks {cs a rest} h := by
    cases h
    exact (List.dropWhile_suffix p).length_le

/-- Passes over a number of characters. -/
def drop (n : Nat) : Reader Unit where
  run cs := .ok ((), cs.drop n)
  shrinks {cs a rest} h := by
    cases h
    rw [List.length_drop]
    exact Nat.sub_le _ _

/-- All that is left, in place. -/
def rest : Reader (List Char) where
  run cs := .ok (cs, cs)
  shrinks h := by cases h; exact Nat.le_refl _

/-- A space between the parts of a JSON text. -/
def isSpace (c : Char) : Bool :=
  c == ' ' || c == '\n' || c == '\t' || c == '\r'

/-- Passes over spaces; the next character is left in place. -/
def look : Reader Char where
  run cs :=
    match cs.dropWhile isSpace with
    | [] => .error .truncated
    | c :: rest => .ok (c, c :: rest)
  shrinks {cs a rest} h := by
    split at h
    · cases h
    · next c mid hc =>
      cases h
      rw [← hc]
      exact (List.dropWhile_suffix isSpace).length_le

/-- Takes the next character that is not a space, which has to be `c`. -/
def mark (c : Char) : Reader Unit := do
  if (← look) == c then
    drop 1
  else
    fail .malformed

/-- Takes the characters of a word one by one. -/
def word : List Char → Reader Unit
  | [] => pure ()
  | c :: w => do
    if (← next .truncated) == c then
      word w
    else
      fail .malformed

/-! ### Loops -/

/-- Takes characters, each followed by a step, until a step ends with a value. -/
def loopRun (step : σ → Char → Reader (σ ⊕ α)) (s : σ) : List Char → Except Fault (α × List Char)
  | [] => .error .truncated
  | c :: cs =>
    match h : (step s c).run cs with
    | .error e => .error e
    | .ok (.inr a, rest) => .ok (a, rest)
    | .ok (.inl t, rest) =>
      have : rest.length < (c :: cs).length := Nat.lt_succ_of_le ((step s c).shrinks h)
      loopRun step t rest
termination_by cs => cs.length
decreasing_by exact this

theorem length_loopRun_le (step : σ → Char → Reader (σ ⊕ α)) (s : σ) (cs : List Char) {a : α}
    {rest : List Char} (h : loopRun step s cs = .ok (a, rest)) : rest.length ≤ cs.length := by
  fun_induction loopRun step s cs with
  | case1 => cases h
  | case2 => cases h
  | case3 s c cs b mid hs =>
    cases h
    exact Nat.le_succ_of_le ((step s c).shrinks hs)
  | case4 s c cs t mid hs shorter ih => exact Nat.le_trans (ih h) (Nat.le_of_lt shorter)

/-- Repeats a step, each time after one more character, until it ends with a value. A text that ends
before is truncated. -/
def loop (step : σ → Char → Reader (σ ⊕ α)) (s : σ) : Reader α where
  run := loopRun step s
  shrinks := length_loopRun_le step s _

/-- A step that goes on. -/
def again (s : σ) : Reader (σ ⊕ α) :=
  pure (.inl s)

/-- A step that ends its loop. -/
def done (a : α) : Reader (σ ⊕ α) :=
  pure (.inr a)

end Reader

end RequestFile.Json
