/-!
Limits of a parse.

A parse may be limited in the tokens it takes and in how deep its productions nest. A `Budget` keeps
count: `Budget.charge` for tokens, `Budget.descend` and `Budget.ascend` for nesting.
-/

namespace RequestFile

/-- What a parse can run out of. -/
inductive Limit where
  | tokens
  | depth
deriving DecidableEq, Repr

/-- The message about a limit that was reached. -/
def Limit.message : Limit → String
  | .tokens => "execution limit exceeded"
  | .depth => "recursion limit exceeded"

/-- The limits of one parse; without a number there is no limit. -/
structure Limits where
  tokens : Option Nat
  depth : Option Nat
deriving DecidableEq, Repr

/-- No limits at all. -/
def Limits.unlimited : Limits :=
  ⟨none, none⟩

/-- How much of its limits a parse has used up. -/
structure Budget where
  limits : Limits
  tokens : Nat
  depth : Nat
deriving DecidableEq, Repr

namespace Budget

/-- The unused budget of a parse. -/
def start (limits : Limits) : Budget :=
  ⟨limits, 0, 0⟩

/-- Whether taking `n` more tokens goes beyond the limit. -/
def overcharged (b : Budget) (n : Nat) : Bool :=
  b.limits.tokens.any (· < b.tokens + n)

/-- The budget after `n` more tokens; the count stops at the limit. -/
def charge (b : Budget) (n : Nat) : Budget :=
  { b with tokens := (b.limits.tokens.elim (b.tokens + n) fun l => min l (b.tokens + n)) }

/-- Whether productions nest as deep as they may. -/
def atDepthLimit (b : Budget) : Bool :=
  b.limits.depth.any (· ≤ b.depth)

/-- The budget inside one more production. -/
def descend (b : Budget) : Budget :=
  { b with depth := b.depth + 1 }

/-- The budget after leaving a production. -/
def ascend (b : Budget) : Budget :=
  { b with depth := b.depth - 1 }

end Budget

end RequestFile
