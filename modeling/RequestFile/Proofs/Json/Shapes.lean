import Mathlib.Tactic
import RequestFile.Json.Shape
import RequestFile.Proofs.Json.Layout

/-!
What readers of a shape find in written values.

* **Decoding.** `r.Decodes v a`: in what is written for `v`, in any layout and behind any spaces, the
  reader `r` finds `a`. There is one lemma for each shape; that of an array or an object asks for
  its parts only.
* **Rows.** Items and members are taken by loops of one form, so what stands behind the first part is
  dealt with once (`Turns.reads`).
* **Members.** What an object makes of its members is a chain of states (`Handles`). For a record the
  states are its drafts (`Fills`), and no member is refused if all keys differ (`Fills.handles`).
-/

namespace RequestFile.Json.Reader

variable {α β σ δ : Type}

/-- A reader finds a value in what is written, in any layout and behind any spaces. -/
def Decodes (r : Reader α) (v : Json) (a : α) : Prop :=
  ∀ l gap, Gap gap → r.Reads (gap ++ v.textIn l) a

/-- A reader finds a value in what is written behind the key of a member. -/
def DecodesMember (r : Reader α) (v : Json) (a : α) : Prop :=
  ∀ l gap, Gap gap → r.Reads (':' :: (gap ++ v.textIn l)) a

variable {r : Reader α} {v : Json} {a : α}

lemma Decodes.map (h : r.Decodes v a) (g : α → β) :
    (r >>= fun x => Pure.pure (g x)).Decodes v (g a) :=
  fun l gap hgap => (h l gap hgap).map g

lemma DecodesMember.map (h : r.DecodesMember v a) (g : α → β) :
    (r >>= fun x => Pure.pure (g x)).DecodesMember v (g a) :=
  fun l gap hgap => (h l gap hgap).map g

lemma Decodes.memberValue (h : r.Decodes v a) : (memberValue r).DecodesMember v a :=
  fun l gap hgap => (Reads.mark gap_nil rfl).bind (h l gap hgap)

/-! ### Words and strings -/

lemma decodes_string (s : String) : string.Decodes (.str s) s := by
  intro l gap hgap
  rw [textIn_str]
  exact Reads.look hgap rfl ((Reads.drop ['"']).bind (reads_stringBody s))

lemma decodes_bool (b : Bool) : bool.Decodes (.bool b) b := by
  intro l gap hgap
  rw [textIn_bool]
  cases b with
  | true => exact Reads.look hgap rfl ((Reads.word ['t', 'r', 'u', 'e']).map fun _ => true)
  | false => exact Reads.look hgap rfl ((Reads.word ['f', 'a', 'l', 's', 'e']).map fun _ => false)

/-- An object is never taken for the word `null`. -/
lemma Decodes.optional {ms : List (String × Json)} (h : r.Decodes (.obj ms) a) :
    (optional r).Decodes (.obj ms) (some a) := by
  intro l gap hgap
  have hobj := (h l [] gap_nil).map some
  rw [List.nil_append, textIn_obj] at hobj
  rw [textIn_obj]
  exact Reads.look hgap rfl hobj

/-! ### Rows of parts -/

/-- Parts that the turns of a loop take one after the other, each behind a comma and spaces. -/
inductive Turns (step : σ → Char → Reader (σ ⊕ σ)) : σ → List (List Char) → σ → Prop
  | nil (s : σ) : Turns step s [] s
  | cons {s t u : σ} {p : List Char} {ps : List (List Char)}
      (first : ∀ gap, Gap gap → (step s ',').Reads (gap ++ p) (.inl t)) (rest : Turns step t ps u) :
      Turns step s (p :: ps) u

/-- A loop that passes over spaces takes what stands behind the first part, up to the end. -/
lemma Turns.reads {step : σ → Char → Reader (σ ⊕ σ)} {s t : σ} {ps : List (List Char)}
    (h : Turns step s ps t) (l : Layout) (closer : Char)
    (hspace : ∀ s c, isSpace c → step s c = again s) (hdone : ∀ s, step s closer = done s) :
    (loop step s).Reads (further l closer ps) t := by
  induction h with
  | nil s =>
      refine Reads.gap l.gap_gap (hspace s) (Reads.done ?_)
      rw [hdone]
      exact Reads.pure _
  | cons first _ ih =>
      rw [further, ← List.append_assoc]
      exact (first l.inner.gap l.inner.gap_gap).again ih

/-! ### Arrays -/

/-- The step of the reader of items. -/
def itemStep (item : Reader α) (items : List α) (c : Char) : Reader (List α ⊕ List α) :=
  if isSpace c then again items
  else if c == ']' then done items
  else if c == ',' then do
    again (items ++ [← item])
  else fail .malformed

lemma turns_itemStep {item : Reader α} {vs : List Json} {as : List α}
    (h : List.Forall₂ item.Decodes vs as) (l : Layout) (items : List α) :
    Turns (itemStep item) items (vs.map fun v => v.textIn l) (items ++ as) := by
  induction h generalizing items with
  | nil =>
      rw [List.append_nil]
      exact .nil items
  | @cons v a vs as hv _ ih =>
      have hfirst : ∀ gap, Gap gap →
          (itemStep item items ',').Reads (gap ++ v.textIn l) (.inl (items ++ [a])) := by
        intro gap hgap
        exact (hv l gap hgap).map fun x => Sum.inl (items ++ [x])
      have hrest := ih (items ++ [a])
      rw [List.append_assoc] at hrest
      exact .cons hfirst hrest

lemma decodes_array {item : Reader α} {vs : List Json} {as : List α}
    (h : List.Forall₂ item.Decodes vs as) : (array item).Decodes (.arr vs) as := by
  intro l gap hgap
  rw [textIn_arr]
  cases h with
  | nil =>
      refine Reads.look hgap rfl ((Reads.drop ['[']).bind ?_)
      exact Reads.look gap_nil rfl ((Reads.drop [']']).map fun _ => [])
  | @cons v a vs as hv hvs =>
      have hitems : (item >>= fun a => moreItems item a).Reads
          (v.textIn l.inner ++ further l ']' (vs.map fun v => v.textIn l.inner)) (a :: as) := by
        refine (hv l.inner [] gap_nil).bind ?_
        exact (turns_itemStep hvs l.inner [a]).reads l ']' (fun s c hc => if_pos hc) fun s => rfl
      -- The reader looks for the end of the array first, and an item never begins like it.
      obtain ⟨c, w, hw, hspace, hc⟩ := exists_head_textIn v l.inner
      rw [hw, List.cons_append] at hitems
      rw [List.map_cons, listing, hw, List.cons_append]
      refine Reads.look hgap rfl ((Reads.drop ['[']).bind ?_)
      refine Reads.look l.inner.gap_gap hspace ?_
      split
      · exact absurd rfl hc
      · exact hitems

/-- An array of written values is read item by item. -/
lemma decodes_array_map {item : Reader α} {f : α → Json} (h : ∀ a, item.Decodes (f a) a)
    (as : List α) : (array item).Decodes (.arr (as.map f)) as := by
  refine decodes_array ?_
  rw [List.forall₂_map_left_iff, List.forall₂_same]
  exact fun a _ => h a

/-! ### Objects -/

/-- What a reader that goes on after keys makes of members, one after the other. -/
inductive Handles (onKey : σ → String → Reader σ) : σ → List (String × Json) → σ → Prop
  | nil (s : σ) : Handles onKey s [] s
  | cons {s t u : σ} {m : String × Json} {ms : List (String × Json)}
      (first : (onKey s m.1).DecodesMember m.2 t) (rest : Handles onKey t ms u) :
      Handles onKey s (m :: ms) u

variable {onKey : σ → String → Reader σ} {s t : σ} {m : String × Json} {ms : List (String × Json)}

lemma reads_member (h : (onKey s m.1).DecodesMember m.2 t) (l : Layout) {gap : List Char}
    (hgap : Gap gap) : (members.member onKey s).Reads (gap ++ memberIn m l) t := by
  have hkey := (reads_stringBody m.1).bind (f := onKey s) (h l l.colonGap l.gap_colonGap)
  have hmark : (members.member onKey s).Reads _ t :=
    (Reads.mark hgap rfl).bind (f := fun _ => stringBody >>= onKey s) hkey
  rw [memberIn, toList_encodeString]
  rwa [List.append_assoc] at hmark

/-- The step of the reader of members. -/
def memberStep (onKey : σ → String → Reader σ) (s : σ) (c : Char) : Reader (σ ⊕ σ) :=
  if isSpace c then again s
  else if c == '}' then done s
  else if c == ',' then do
    again (← members.member onKey s)
  else fail .malformed

lemma Handles.turns (h : Handles onKey s ms t) (l : Layout) :
    Turns (memberStep onKey) s (ms.map fun m => memberIn m l) t := by
  induction h with
  | nil s => exact .nil s
  | cons first _ ih => exact .cons (fun gap hgap => (reads_member first l hgap).map Sum.inl) ih

lemma reads_members (h : Handles onKey s ms t) (l : Layout) :
    (members onKey s).Reads (listing l '}' (ms.map fun m => memberIn m l.inner)) t := by
  cases h with
  | nil => exact Reads.look gap_nil rfl ((Reads.drop ['}']).map fun _ => s)
  | @cons _ _ _ m ms first rest =>
      have hmember := reads_member first l.inner gap_nil
      rw [List.nil_append] at hmember
      have hmembers : (members.member onKey s >>= fun s => loop (memberStep onKey) s).Reads
          (memberIn m l.inner ++ further l '}' (ms.map fun m => memberIn m l.inner)) t :=
        hmember.bind ((rest.turns l.inner).reads l '}' (fun s c hc => if_pos hc) fun s => rfl)
      rw [memberIn, toList_encodeString] at hmembers
      rw [List.map_cons, listing, memberIn, toList_encodeString]
      exact Reads.look l.inner.gap_gap rfl hmembers

lemma decodes_object (h : Handles onKey s ms t) : (object onKey s).Decodes (.obj ms) t := by
  intro l gap hgap
  rw [textIn_obj]
  exact Reads.look hgap rfl ((Reads.drop ['{']).bind (reads_members h l))

/-! ### Records -/

/-- What the fields of a record make of members: each member is read into the draft by its field. -/
inductive Fills (fields : List (Field δ)) : δ → List (String × Json) → δ → Prop
  | nil (d : δ) : Fills fields d [] d
  | cons {key : String} {f : Field δ} {d e u : δ} {v : Json} {ms : List (String × Json)}
      (known : fields.find? (·.key == key) = some f) (first : (f.read d).Decodes v e)
      (rest : Fills fields e ms u) : Fills fields d ((key, v) :: ms) u

variable {fields : List (Field δ)} {d e u : δ}

lemma Fills.append {ms ms' : List (String × Json)} (h : Fills fields d ms e)
    (h' : Fills fields e ms' u) : Fills fields d (ms ++ ms') u := by
  induction h with
  | nil d => exact h'
  | cons known first _ ih => exact .cons known first (ih h')

/-- No member is refused if all keys differ. -/
lemma Fills.handles (h : Fills fields d ms e) {seen : List String}
    (hkeys : (ms.map Prod.fst ++ seen).Nodup) :
    ∃ seen', Handles (onFieldKey fields) (seen, d) ms (seen', e) := by
  induction h generalizing seen with
  | nil d => exact ⟨seen, .nil _⟩
  | @cons key f d e u v ms known first rest ih =>
      obtain ⟨hnew, -⟩ := List.nodup_cons.mp hkeys
      have hseen : seen.contains key = false := by
        have hnotMem : key ∉ seen := fun h => hnew (List.mem_append_right _ h)
        simpa using hnotMem
      have hrest : (ms.map Prod.fst ++ key :: seen).Nodup := List.nodup_middle.mpr hkeys
      obtain ⟨seen', hms⟩ := ih hrest
      refine ⟨seen', .cons (t := (key :: seen, e)) ?_ hms⟩
      simp only [onFieldKey, known, hseen]
      exact first.memberValue.map fun e => (key :: seen, e)

lemma decodes_record {finish : δ → Option α} (h : Fills fields d ms e)
    (hkeys : (ms.map Prod.fst).Nodup) (ha : finish e = some a) :
    (record fields d finish).Decodes (.obj ms) a := by
  rw [← List.append_nil (ms.map Prod.fst)] at hkeys
  obtain ⟨seen, hms⟩ := h.handles hkeys
  have hfields : (recordFields fields d).Decodes (.obj ms) e := by
    intro l gap hgap
    rw [textIn_obj]
    exact Reads.look hgap rfl ((Reads.drop ['{']).bind ((reads_members hms l).map Prod.snd))
  intro l gap hgap rest
  change (andThen (recordFields fields d) _).run _ = _
  rw [andThen]
  simp only [hfields l gap hgap rest, ha]
  rfl

end RequestFile.Json.Reader
