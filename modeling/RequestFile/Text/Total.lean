/-!
Totals over a list.
-/

namespace RequestFile

/-- The total of a measure over a list. -/
def total (f : α → Nat) : List α → Nat
  | [] => 0
  | x :: xs => f x + total f xs

@[simp]
theorem total_nil (f : α → Nat) : total f [] = 0 :=
  rfl

@[simp]
theorem total_cons (f : α → Nat) (x : α) (xs : List α) : total f (x :: xs) = f x + total f xs :=
  rfl

@[simp]
theorem total_append (f : α → Nat) (xs ys : List α) :
    total f (xs ++ ys) = total f xs + total f ys := by
  induction xs with
  | nil => simp
  | cons x xs ih => simp [ih, Nat.add_assoc]

end RequestFile
