import Std.Data.HashSet

/-!
Repeated items of a list.

`firstRepeat?` gives the first item that has stood in a list before. Items that have been met are
kept by hash, so a long list is walked once. There is no repeated item just when all are distinct
(`firstRepeat?_eq_none_iff`), and the first one stands behind distinct items, among which it is
(`firstRepeat?_eq_some_iff`).
-/

namespace RequestFile

variable {α : Type} [BEq α] [Hashable α]

/-- The first item of a list that is in `seen` or has stood in the list before. -/
def repeatAfter? (seen : Std.HashSet α) : List α → Option α
  | [] => none
  | x :: xs => if seen.contains x then some x else repeatAfter? (seen.insert x) xs

/-- The first item of a list that has stood in it before. -/
def firstRepeat? (xs : List α) : Option α :=
  repeatAfter? ∅ xs

theorem repeatAfter?_eq_none_iff [LawfulBEq α] (seen : Std.HashSet α) (xs : List α) :
    repeatAfter? seen xs = none ↔ xs.Nodup ∧ ∀ x ∈ xs, seen.contains x = false := by
  induction xs generalizing seen with
  | nil => simp [repeatAfter?]
  | cons x xs ih =>
    rw [repeatAfter?, List.nodup_cons, List.forall_mem_cons]
    cases h : seen.contains x with
    | true => simp
    | false =>
      simp only [Bool.false_eq_true, if_false, ih, Std.HashSet.contains_insert,
        Bool.or_eq_false_iff, beq_eq_false_iff_ne, true_and]
      constructor
      · rintro ⟨hn, hs⟩
        exact ⟨⟨fun hx => (hs x hx).1 rfl, hn⟩, fun y hy => (hs y hy).2⟩
      · rintro ⟨⟨hx, hn⟩, hs⟩
        exact ⟨hn, fun y hy => ⟨fun hxy => hx (hxy ▸ hy), hs y hy⟩⟩

theorem repeatAfter?_eq_some_iff [LawfulBEq α] (seen : Std.HashSet α) (xs : List α) (x : α) :
    repeatAfter? seen xs = some x ↔ ∃ front back, xs = front ++ x :: back ∧
      repeatAfter? seen front = none ∧ (seen.contains x ∨ x ∈ front) := by
  induction xs generalizing seen with
  | nil => simp [repeatAfter?]
  | cons y ys ih =>
    rw [repeatAfter?]
    cases h : seen.contains y with
    | true =>
      rw [if_pos rfl, Option.some_inj]
      constructor
      · rintro rfl
        exact ⟨[], ys, rfl, rfl, .inl h⟩
      · rintro ⟨front, back, heq, hfront, -⟩
        cases front with
        | nil => exact (List.cons.inj heq).1
        | cons z zs =>
          obtain ⟨rfl, -⟩ := List.cons.inj heq
          simp [repeatAfter?, h] at hfront
    | false =>
      -- what counts as met behind `y` is what was met before, or `y`
      have hmet (zs : List α) : ((seen.insert y).contains x ∨ x ∈ zs) ↔
          (seen.contains x ∨ x ∈ y :: zs) := by
        rw [Std.HashSet.contains_insert, Bool.or_eq_true, beq_iff_eq, List.mem_cons, eq_comm,
          or_assoc, or_left_comm]
      rw [if_neg Bool.false_ne_true, ih]
      constructor
      · rintro ⟨front, back, rfl, hfront, hx⟩
        exact ⟨y :: front, back, rfl, by simpa [repeatAfter?, h] using hfront, (hmet front).mp hx⟩
      · rintro ⟨front, back, heq, hfront, hx⟩
        cases front with
        | nil =>
          obtain ⟨rfl, -⟩ := List.cons.inj heq
          simp [h] at hx
        | cons z zs =>
          obtain ⟨rfl, rfl⟩ := List.cons.inj heq
          exact ⟨zs, back, rfl, by simpa [repeatAfter?, h] using hfront, (hmet zs).mpr hx⟩

theorem firstRepeat?_eq_none_iff [LawfulBEq α] (xs : List α) :
    firstRepeat? xs = none ↔ xs.Nodup := by
  rw [firstRepeat?, repeatAfter?_eq_none_iff]
  simp

theorem firstRepeat?_eq_some_iff [LawfulBEq α] (xs : List α) (x : α) :
    firstRepeat? xs = some x ↔ ∃ front back, xs = front ++ x :: back ∧ front.Nodup ∧ x ∈ front := by
  simp [firstRepeat?, repeatAfter?_eq_some_iff, repeatAfter?_eq_none_iff]

end RequestFile
