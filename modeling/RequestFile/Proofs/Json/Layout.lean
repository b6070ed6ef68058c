import Mathlib.Tactic
import RequestFile.Proofs.Json.Reads

/-!
The written forms of a value.

A value is written on one line or over lines. Both ways only differ in the spaces that they put in
front of parts, behind the last part and behind colons (`Layout.gap`, `Layout.colonGap`). So the text
of a value is described once for both: `textIn_arr` and `textIn_obj` give it part by part.
-/

namespace RequestFile.Json

/-- How a value is laid out. -/
inductive Layout where
  | line
  | lines (depth : Nat)

namespace Layout

/-- The layout of what is inside of a value. -/
def inner : Layout → Layout
  | line => line
  | lines depth => lines (depth + 1)

/-- The spaces in front of a part. -/
def gap : Layout → List Char
  | line => []
  | lines depth => (newLine depth).toList

/-- The spaces behind a colon. -/
def colonGap : Layout → List Char
  | line => []
  | lines _ => [' ']

lemma gap_gap (l : Layout) : Reader.Gap l.gap := by
  intro c h
  cases l with
  | line => exact absurd h List.not_mem_nil
  | lines depth =>
      rw [gap, newLine, String.toList_append, List.mem_append] at h
      rcases h with h | h
      · obtain rfl : c = '\n' := List.mem_singleton.mp h
        rfl
      · rw [String.toList_ofList] at h
        obtain rfl := List.eq_of_mem_replicate h
        rfl

lemma gap_colonGap (l : Layout) : Reader.Gap l.colonGap := by
  intro c h
  cases l with
  | line => exact absurd h List.not_mem_nil
  | lines depth =>
      obtain rfl : c = ' ' := List.mem_singleton.mp h
      rfl

end Layout

/-- The text of a value in a layout. -/
def textIn (v : Json) : Layout → List Char
  | .line => v.compact.toList
  | .lines depth => (v.prettyAt depth).toList

/-- The text of a member of an object in a layout. -/
def memberIn (m : String × Json) (l : Layout) : List Char :=
  (encodeString m.1).toList ++ ':' :: (l.colonGap ++ m.2.textIn l)

/-- The texts of further parts, each behind a comma, up to the closing bracket. -/
def further (l : Layout) (closer : Char) : List (List Char) → List Char
  | [] => l.gap ++ [closer]
  | p :: ps => ',' :: (l.inner.gap ++ (p ++ further l closer ps))

/-- The texts of parts one behind the other, up to the closing bracket. -/
def listing (l : Layout) (closer : Char) : List (List Char) → List Char
  | [] => [closer]
  | p :: ps => l.inner.gap ++ (p ++ further l closer ps)

lemma further_eq (l : Layout) (closer : Char) (ps : List (List Char)) :
    further l closer ps
      = ps.flatMap (fun q => ',' :: (l.inner.gap ++ q)) ++ (l.gap ++ [closer]) := by
  induction ps with
  | nil => rfl
  | cons p ps ih => simp only [further, ih, List.flatMap_cons, List.cons_append, List.append_assoc]

lemma toList_intercalate_cons (sep p : String) (ps : List String) :
    (sep.intercalate (p :: ps)).toList
      = p.toList ++ ps.flatMap fun q => sep.toList ++ q.toList := by
  induction ps generalizing p with
  | nil => simp
  | cons q ps ih =>
      rw [String.intercalate_cons_cons, String.toList_append, String.toList_append, ih,
        List.flatMap_cons, List.append_assoc, List.append_assoc]

/-! ### The parts of a value -/

lemma compactItems_eq (vs : List Json) : compactItems vs = vs.map compact := by
  induction vs with
  | nil => rfl
  | cons v vs ih => rw [compactItems, ih, List.map_cons]

lemma prettyItems_eq (depth : Nat) (vs : List Json) :
    prettyItems depth vs = vs.map (prettyAt depth) := by
  induction vs with
  | nil => rfl
  | cons v vs ih => rw [prettyItems, ih, List.map_cons]

lemma compactMembers_eq (ms : List (String × Json)) :
    compactMembers ms = ms.map fun m => encodeString m.1 ++ ":" ++ m.2.compact := by
  induction ms with
  | nil => rfl
  | cons m ms ih => rw [compactMembers, ih, List.map_cons]

lemma prettyMembers_eq (depth : Nat) (ms : List (String × Json)) :
    prettyMembers depth ms = ms.map fun m => encodeString m.1 ++ ": " ++ m.2.prettyAt depth := by
  induction ms with
  | nil => rfl
  | cons m ms ih => rw [prettyMembers, ih, List.map_cons]

/-- Parts on one line. -/
lemma toList_line (closer : Char) (ps : List String) :
    (",".intercalate ps).toList ++ [closer] = listing .line closer (ps.map String.toList) := by
  cases ps with
  | nil => rfl
  | cons p ps =>
      rw [toList_intercalate_cons, List.map_cons, listing, further_eq, List.flatMap_map,
        List.append_assoc]
      rfl

/-- Parts over lines. -/
lemma toList_block (opener closer : String) (c : Char) (hc : closer.toList = [c]) (depth : Nat)
    (ps : List String) :
    (block opener closer depth ps).toList
      = opener.toList ++ listing (.lines depth) c (ps.map String.toList) := by
  cases ps with
  | nil => rw [block, List.isEmpty_nil, if_pos rfl, String.toList_append, hc]; rfl
  | cons p ps =>
      rw [block, List.isEmpty_cons, if_neg Bool.false_ne_true, List.map_cons, listing, further_eq,
        List.flatMap_map]
      simp only [String.toList_append, toList_intercalate_cons, Layout.inner, Layout.gap,
        List.append_assoc, hc]
      rfl

lemma textIn_arr (l : Layout) (vs : List Json) :
    (arr vs).textIn l = '[' :: listing l ']' (vs.map fun v => v.textIn l.inner) := by
  cases l with
  | line =>
      rw [textIn, compact, compactItems_eq, String.toList_append, String.toList_append,
        List.append_assoc]
      change '[' :: (_ ++ [']']) = _
      rw [toList_line, List.map_map]
      rfl
  | lines depth =>
      rw [textIn, prettyAt, prettyItems_eq, toList_block _ _ ']' rfl, List.map_map]
      rfl

lemma textIn_obj (l : Layout) (ms : List (String × Json)) :
    (obj ms).textIn l = '{' :: listing l '}' (ms.map fun m => memberIn m l.inner) := by
  cases l with
  | line =>
      rw [textIn, compact, compactMembers_eq, String.toList_append, String.toList_append,
        List.append_assoc]
      change '{' :: (_ ++ ['}']) = _
      rw [toList_line, List.map_map]
      simp only [Function.comp_def, String.toList_append, List.append_assoc]
      rfl
  | lines depth =>
      rw [textIn, prettyAt, prettyMembers_eq, toList_block _ _ '}' rfl, List.map_map]
      simp only [Function.comp_def, String.toList_append, List.append_assoc]
      rfl

lemma toList_encodeString (s : String) :
    (encodeString s).toList = '"' :: (s.toList.flatMap encodeChar ++ ['"']) := by
  rw [encodeString, String.toList_ofList, List.cons_append]

lemma textIn_str (l : Layout) (s : String) :
    (str s).textIn l = '"' :: (s.toList.flatMap encodeChar ++ ['"']) := by
  cases l with
  | line => rw [textIn, compact, toList_encodeString]
  | lines depth => rw [textIn, prettyAt, toList_encodeString]

lemma textIn_bool (l : Layout) (b : Bool) :
    (bool b).textIn l = if b then ['t', 'r', 'u', 'e'] else ['f', 'a', 'l', 's', 'e'] := by
  cases l with
  | line => cases b <;> rfl
  | lines depth =>
      rw [textIn, prettyAt]
      cases b <;> rfl

lemma textIn_null (l : Layout) : null.textIn l = ['n', 'u', 'l', 'l'] := by
  cases l with
  | line => rfl
  | lines depth => rw [textIn, prettyAt]; rfl

lemma textIn_num (l : Layout) (n : Nat) : (num n).textIn l = Nat.toDigits 10 n := by
  cases l with
  | line => exact Nat.toList_repr
  | lines depth => rw [textIn, prettyAt]; exact Nat.toList_repr

/-- The text of a value begins with a character that is neither a space nor the end of an array. -/
lemma exists_head_textIn (v : Json) (l : Layout) :
    ∃ c w, v.textIn l = c :: w ∧ Reader.isSpace c = false ∧ c ≠ ']' := by
  cases v with
  | null => exact ⟨'n', _, textIn_null l, by decide⟩
  | bool b =>
      rw [textIn_bool]
      cases b with
      | true => exact ⟨'t', _, rfl, by decide⟩
      | false => exact ⟨'f', _, rfl, by decide⟩
  | num n =>
      obtain ⟨c, w, hw⟩ := List.exists_cons_of_ne_nil (Nat.toDigits_ne_nil (n := n) (b := 10))
      have hdigit : c.isDigit := Nat.isDigit_of_mem_toDigits (by decide) (by decide)
        (hw ▸ List.mem_cons_self : c ∈ Nat.toDigits 10 n)
      refine ⟨c, w, (textIn_num l n).trans hw, ?_, ?_⟩
      · simp only [Reader.isSpace, Bool.or_eq_false_iff, beq_eq_false_iff_ne]
        refine ⟨⟨⟨?_, ?_⟩, ?_⟩, ?_⟩ <;> exact ne_of_apply_ne Char.isDigit (by simp [hdigit])
      · exact ne_of_apply_ne Char.isDigit (by simp [hdigit])
  | str s => exact ⟨'"', _, textIn_str l s, by decide⟩
  | arr vs => exact ⟨'[', _, textIn_arr l vs, by decide⟩
  | obj ms => exact ⟨'{', _, textIn_obj l ms, by decide⟩

end RequestFile.Json
