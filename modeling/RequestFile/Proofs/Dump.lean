import RequestFile.Dump
import RequestFile.Proofs.Conformance

/-!
Full dumps lose nothing.

* **Quoted text.** Every character is written so that its written form shows where it ends, whatever
  comes behind it, and none begins with a quote (`Quoted.Written.unique`, `Quoted.Written.head_ne`). So
  a quoted text ends at its closing quote and is read back from what stands in front
  (`Quoted.eq_of_flatMap`).
* **Lines.** A line of a dump is an indentation and a label: the name of a kind, and the quoted text of
  a token behind a space (`Dump.label`). A label is read back, too (`Dump.eq_of_label`).
* **Nesting.** The lines below a node are indented deeper than its own, and what follows them is not
  (`Dump.Outdented`). So a list of trees is read back from its lines (`Dump.eq_of_trees`).
* **Documents.** The tree of a document holds its source, so its full dump tells both
  (`Document.eq_of_dump_full`).
-/

namespace RequestFile

/-- What ends a run is found from the left. -/
lemma eq_of_append_cons {α : Type} {p : α → Prop} [DecidablePred p] {xs ys as bs : List α} {x y : α}
    (hxs : ∀ a ∈ xs, p a) (hys : ∀ a ∈ ys, p a) (hx : ¬p x) (hy : ¬p y)
    (h : xs ++ x :: as = ys ++ y :: bs) : xs = ys ∧ x = y ∧ as = bs := by
  have hrun : ∀ {zs cs : List α} {z : α}, (∀ a ∈ zs, p a) → ¬p z →
      (zs ++ z :: cs).takeWhile p = zs := by
    intro zs cs z hzs hz
    rw [List.takeWhile_append_of_pos (by simpa using hzs), List.takeWhile_cons_of_neg (by simpa using hz),
      List.append_nil]
  have heq := congrArg (List.takeWhile fun a => decide (p a)) h
  rw [hrun hxs hx, hrun hys hy] at heq
  subst heq
  simpa using List.append_cancel_left h

/-! ### Hexadecimal digits -/

/-- A digit in base 16 is that of a number. -/
lemma exists_digitChar_of_mem {n : Nat} {c : Char} (h : c ∈ Nat.toDigits 16 n) :
    ∃ d, c = Nat.digitChar d := by
  induction n using Nat.strong_induction_on with
  | _ n ih =>
      rw [Nat.toDigits_eq_if (by decide)] at h
      split_ifs at h with hn
      · exact ⟨n, List.mem_singleton.mp h⟩
      · rcases List.mem_append.mp h with h | h
        · exact ih (n / 16) (by omega) h
        · exact ⟨n % 16, List.mem_singleton.mp h⟩

lemma digitChar_injective_of_lt : ∀ m < 16, ∀ n < 16, Nat.digitChar m = Nat.digitChar n → m = n := by
  decide

/-- Numbers are told by their digits in base 16. -/
lemma toDigits_injective : Function.Injective (Nat.toDigits 16) := by
  intro m n h
  induction m using Nat.strong_induction_on generalizing n with
  | _ m ih =>
      rw [Nat.toDigits_eq_if (by decide), Nat.toDigits_eq_if (n := n) (by decide)] at h
      split_ifs at h with hm hn hn
      · exact digitChar_injective_of_lt m hm n hn (List.singleton_inj.mp h)
      · have hlength := congrArg List.length h
        simp at hlength
      · have hlength := congrArg List.length h
        simp at hlength
      · obtain ⟨hfront, hlast⟩ := List.append_inj' h rfl
        have hquot := ih (m / 16) (by omega) hfront
        have hrem := digitChar_injective_of_lt _ (Nat.mod_lt m (by decide)) _ (Nat.mod_lt n (by decide))
          (List.singleton_inj.mp hlast)
        omega

/-! ### Quoted text -/

namespace Quoted

/-- Characters with an escape of their own, each with the letter of its escape. -/
def shortEscapes : List (Char × Char) :=
  [('\x00', '0'), ('\t', 't'), ('\r', 'r'), ('\n', 'n'), ('"', '"'), ('\\', '\\')]

/-- The forms in which a character may be written. -/
inductive Written (c : Char) : List Char → Prop
  | shown : c ≠ '\\' → c ≠ '"' → Written c [c]
  | short (letter : Char) : (c, letter) ∈ shortEscapes → Written c ['\\', letter]
  | hex : Written c (hexEscape c)

variable {c d : Char} {v w a b : List Char}

lemma written_encodeChar (c : Char) : Written c (encodeChar c) := by
  fun_cases encodeChar c
  case case7 hquote hbackslash _ => exact .shown hbackslash hquote
  case case8 => exact .hex
  all_goals exact .short _ (by decide)

/-- No written character is taken for the closing quote. -/
lemma Written.head_ne (h : Written c w) : w ++ a ≠ '"' :: b := by
  cases h with
  | shown _ hquote => simp [hquote]
  | short => simp
  | hex => simp [hexEscape]

/-- **A written character** is read back, whatever comes behind it. -/
lemma Written.unique (h : Written c v) (h' : Written d w) (heq : v ++ a = w ++ b) :
    c = d ∧ a = b := by
  have hletters : ∀ x ∈ shortEscapes, ∀ y ∈ shortEscapes, x.2 = y.2 → x.1 = y.1 := by decide
  have hhex : ∀ x ∈ shortEscapes, x.2 ≠ 'u' := by decide
  cases h with
  | shown hc _ =>
      cases h' with
      | shown => simpa using heq
      | short => exact absurd (List.cons.inj heq).1 hc
      | hex => exact absurd (List.cons.inj heq).1 hc
  | short l hl =>
      cases h' with
      | shown hd _ => exact absurd (List.cons.inj heq).1.symm hd
      | short l' hl' =>
          simp only [List.cons_append, List.nil_append, List.cons.injEq, true_and] at heq
          exact ⟨hletters _ hl _ hl' heq.1, heq.2⟩
      | hex =>
          simp only [hexEscape, List.cons_append, List.nil_append, List.cons.injEq, true_and] at heq
          exact absurd heq.1 (hhex _ hl)
  | hex =>
      cases h' with
      | shown hd _ => exact absurd (List.cons.inj heq).1.symm hd
      | short l' hl' =>
          simp only [hexEscape, List.cons_append, List.nil_append, List.cons.injEq, true_and] at heq
          exact absurd heq.1.symm (hhex _ hl')
      | hex =>
          -- the closing brace is no digit, so both numbers end at it
          have hdigit : ∀ {n : Nat}, ∀ x ∈ Nat.toDigits 16 n, x ≠ '\x7d' := fun x hx => by
            obtain ⟨k, rfl⟩ := exists_digitChar_of_mem hx
            exact Nat.digitChar_ne _ (by decide)
          simp only [hexEscape, List.cons_append, List.nil_append, List.append_assoc,
            List.cons.injEq, true_and] at heq
          obtain ⟨hdigits, _, hrest⟩ := eq_of_append_cons (p := (· ≠ '\x7d')) hdigit hdigit
            (by simp) (by simp) heq
          exact ⟨Char.toNat_inj.mp (toDigits_injective hdigits), hrest⟩

/-- **A quoted text** is read back, whatever comes behind the closing quote. -/
lemma eq_of_flatMap {cs ds : List Char}
    (h : cs.flatMap encodeChar ++ '"' :: a = ds.flatMap encodeChar ++ '"' :: b) :
    cs = ds ∧ a = b := by
  induction cs generalizing ds with
  | nil =>
      cases ds with
      | nil => exact ⟨rfl, (List.cons.inj h).2⟩
      | cons d ds =>
          rw [List.flatMap_cons, List.append_assoc] at h
          exact absurd h.symm (written_encodeChar d).head_ne
  | cons c cs ih =>
      cases ds with
      | nil =>
          rw [List.flatMap_cons, List.append_assoc] at h
          exact absurd h (written_encodeChar c).head_ne
      | cons d ds =>
          rw [List.flatMap_cons, List.flatMap_cons, List.append_assoc, List.append_assoc] at h
          obtain ⟨rfl, hrest⟩ := (written_encodeChar c).unique (written_encodeChar d) h
          obtain ⟨rfl, hbehind⟩ := ih hrest
          exact ⟨rfl, hbehind⟩

end Quoted

/-! ### Lines -/

namespace Kind

lemma name_injective : Function.Injective name := by
  have hnodup : (all.map name).Nodup := by decide +kernel
  exact fun k k' h => List.inj_on_of_nodup_map hnodup (mem_all k) (mem_all k') h

lemma alphanum_of_mem_name {k : Kind} : ∀ c ∈ k.name.toList, c.isAlphanum := by
  have hall : ∀ k ∈ all, ∀ c ∈ k.name.toList, c.isAlphanum := by decide +kernel
  exact hall k (mem_all k)

lemma exists_name_eq (k : Kind) : ∃ c cs, k.name.toList = c :: cs ∧ c ≠ ' ' := by
  have hall : ∀ k ∈ all, k.name.toList.head?.any (· != ' ') := by decide +kernel
  obtain ⟨c, hc, hspace⟩ := (Option.any_eq_true ..).mp (hall k (mem_all k))
  obtain ⟨cs, hcs⟩ := List.head?_eq_some_iff.mp hc
  exact ⟨c, cs, hcs, by simpa using hspace⟩

end Kind

namespace Dump

variable {d n n' : Nat} {t t' : Tree} {ts ts' : List Tree} {a b r r' : List Char}

/-- The line of a tree behind its indentation. -/
def label : Tree → List Char
  | .leaf k s => k.name.toList ++ ' ' :: '"' :: (s.toList.flatMap Quoted.encodeChar ++ '"' :: ['\n'])
  | .node k _ => k.name.toList ++ ['\n']

/-- A tree is a line and the lines of the trees below. -/
lemma toList_tree (d n : Nat) (t : Tree) : (tree .full d n t).toList
    = List.replicate (2 * d) ' ' ++ (label t ++ (trees .full (d + 1) n t.children).toList) := by
  cases t with
  | leaf k s => simp [tree, trees, tokenLine, label, indent, Tree.children, DumpStyle.full,
      DumpStyle.brief, DumpStyle.spanText, Palette.plain, Quoted.encode]
  | node k ts => simp [tree, nodeLine, label, indent, Tree.children, DumpStyle.full,
      DumpStyle.brief, DumpStyle.spanText, Palette.plain]

lemma toList_trees_cons : (trees .full d n (t :: ts)).toList
    = (tree .full d n t).toList ++ (trees .full d (n + t.size) ts).toList := by
  rw [trees, String.toList_append]

/-- **A label** is read back, whatever comes behind it, but for the trees below a node. -/
lemma eq_of_label (h : label t ++ a = label t' ++ b) :
    a = b ∧ ((∃ k s, t = .leaf k s ∧ t' = .leaf k s) ∨ ∃ k ts ts', t = .node k ts ∧ t' = .node k ts') := by
  -- a name is read back with whatever character behind it that is no part of names
  have hname : ∀ {k k' : Kind} {x y : Char} {as bs : List Char}, x.isAlphanum = false →
      y.isAlphanum = false → k.name.toList ++ x :: as = k'.name.toList ++ y :: bs →
      k = k' ∧ x = y ∧ as = bs := by
    intro k k' x y as bs hx hy heq
    obtain ⟨hk, hrest⟩ := eq_of_append_cons (p := fun c => c.isAlphanum) Kind.alphanum_of_mem_name
      Kind.alphanum_of_mem_name (by simp [hx]) (by simp [hy]) heq
    exact ⟨Kind.name_injective (String.toList_injective hk), hrest⟩
  cases t with
  | leaf k s =>
      cases t' with
      | leaf k' s' =>
          simp only [label, List.append_assoc, List.cons_append] at h
          obtain ⟨rfl, _, hquoted⟩ := hname (by decide) (by decide) h
          obtain ⟨hs, hrest⟩ := Quoted.eq_of_flatMap (List.cons.inj hquoted).2
          obtain rfl := String.toList_injective hs
          exact ⟨(List.cons.inj hrest).2, .inl ⟨k, s, rfl, rfl⟩⟩
      | node k' ts' =>
          simp only [label, List.append_assoc, List.cons_append] at h
          exact absurd (hname (by decide) (by decide) h).2.1 (by decide)
  | node k ts =>
      cases t' with
      | leaf k' s' =>
          simp only [label, List.append_assoc, List.cons_append] at h
          exact absurd (hname (by decide) (by decide) h).2.1 (by decide)
      | node k' ts' =>
          simp only [label, List.append_assoc, List.cons_append] at h
          obtain ⟨rfl, _, hrest⟩ := hname (by decide) (by decide) h
          exact ⟨hrest, .inr ⟨k, ts, ts', rfl, rfl⟩⟩

/-! ### Nesting -/

/-- The text begins with a line above depth `d`. -/
def Outdented (d : Nat) (r : List Char) : Prop :=
  (r.takeWhile (· = ' ')).length < 2 * d

/-- A tree begins with as many spaces as its depth asks for. -/
lemma takeWhile_tree (d n : Nat) (t : Tree) (r : List Char) :
    ((tree .full d n t).toList ++ r).takeWhile (· = ' ') = List.replicate (2 * d) ' ' := by
  have hlabel : ∃ c cs, label t = c :: cs ∧ c ≠ ' ' := by
    cases t with
    | leaf k s =>
        obtain ⟨c, cs, hcs, hc⟩ := k.exists_name_eq
        exact ⟨c, _, by rw [label, hcs, List.cons_append], hc⟩
    | node k ts =>
        obtain ⟨c, cs, hcs, hc⟩ := k.exists_name_eq
        exact ⟨c, _, by rw [label, hcs, List.cons_append], hc⟩
  obtain ⟨c, cs, hcs, hc⟩ := hlabel
  rw [toList_tree, hcs, List.append_assoc, List.cons_append, List.cons_append,
    List.takeWhile_append_of_pos (by simp), List.takeWhile_cons_of_neg (by simpa using hc),
    List.append_nil]

/-- What follows a tree begins above the trees below it. -/
lemma outdented_trees (hr : Outdented d r) (n : Nat) (ts : List Tree) :
    Outdented (d + 1) ((trees .full d n ts).toList ++ r) := by
  cases ts with
  | nil =>
      rw [Outdented] at hr
      rw [trees, String.toList_empty, List.nil_append, Outdented]
      omega
  | cons t ts =>
      rw [toList_trees_cons, List.append_assoc, Outdented, takeWhile_tree, List.length_replicate]
      omega

/-- Lines at depth `d` do not begin above it. -/
lemma not_outdented_tree : ¬Outdented d ((tree .full d n t).toList ++ r) := by
  rw [Outdented, takeWhile_tree, List.length_replicate]
  exact lt_irrefl _

mutual

/-- **A tree** is read back from its lines, if what comes behind them begins above the trees below. -/
lemma eq_of_tree : ∀ {t t' : Tree} {d n n' : Nat} {r r' : List Char}, Outdented (d + 1) r →
    Outdented (d + 1) r' → (tree .full d n t).toList ++ r = (tree .full d n' t').toList ++ r' →
    t = t' ∧ r = r'
  | .leaf _ _, t', d, n, n', r, r', _, _, h => by
      rw [toList_tree, toList_tree, List.append_assoc, List.append_assoc, List.append_assoc,
        List.append_assoc] at h
      obtain ⟨hrest, ⟨k, s, ht, rfl⟩ | ⟨_, _, _, ht, _⟩⟩ := eq_of_label (List.append_cancel_left h)
      · exact ⟨ht, by simpa [Tree.children, trees] using hrest⟩
      · cases ht
  | .node _ ts, t', d, n, n', r, r', hr, hr', h => by
      rw [toList_tree, toList_tree, List.append_assoc, List.append_assoc, List.append_assoc,
        List.append_assoc] at h
      obtain ⟨hrest, ⟨_, _, ht, _⟩ | ⟨k, _, ts', ht, rfl⟩⟩ := eq_of_label (List.append_cancel_left h)
      · cases ht
      · obtain ⟨rfl, rfl⟩ := Tree.node.inj ht
        obtain ⟨rfl, hbehind⟩ := eq_of_trees hr hr' hrest
        exact ⟨rfl, hbehind⟩

/-- **Neighbouring trees** are read back from their lines, if what comes behind them begins above. -/
lemma eq_of_trees : ∀ {ts ts' : List Tree} {d n n' : Nat} {r r' : List Char}, Outdented d r →
    Outdented d r' → (trees .full d n ts).toList ++ r = (trees .full d n' ts').toList ++ r' →
    ts = ts' ∧ r = r'
  | [], [], _, _, _, _, _, _, _, h => ⟨rfl, by simpa [trees] using h⟩
  | [], t' :: ts', d, n, n', r, r', hr, _, h => by
      rw [toList_trees_cons, List.append_assoc, trees, String.toList_empty, List.nil_append] at h
      exact absurd (h ▸ hr) not_outdented_tree
  | t :: ts, [], d, n, n', r, r', _, hr', h => by
      rw [toList_trees_cons, List.append_assoc, trees, String.toList_empty, List.nil_append] at h
      exact absurd (h ▸ hr') not_outdented_tree
  | t :: ts, t' :: ts', d, n, n', r, r', hr, hr', h => by
      rw [toList_trees_cons, toList_trees_cons, List.append_assoc, List.append_assoc] at h
      obtain ⟨rfl, hrest⟩ := eq_of_tree (outdented_trees hr _ ts) (outdented_trees hr' _ ts') h
      obtain ⟨rfl, hbehind⟩ := eq_of_trees hr hr' hrest
      exact ⟨rfl, hbehind⟩

end

end Dump

/-- **Full dumps** of different trees are different. -/
lemma Tree.dump_full_injective : Function.Injective (Tree.dump .full) := by
  intro t t' h
  have hend : Dump.Outdented 1 [] := by simp [Dump.Outdented]
  have hlines : (Dump.tree .full 0 0 t).toList ++ [] = (Dump.tree .full 0 0 t').toList ++ [] := by
    rw [← Tree.dump, h, Tree.dump]
  exact (Dump.eq_of_tree hend hend hlines).1

/-- The tree of a document holds its source. -/
lemma Document.text_tree {limits : Limits} {source : String} {d : Document}
    (h : parse limits source = .ok d) : d.tree.text = source := by
  obtain ⟨p, hp, htree, _⟩ := exists_of_parse h
  rw [htree]
  exact (Parsed.complete_of_ok hp).lossless

/-- **Full dumps lose nothing**: documents with the same full dump have the same tree and come from the
same source, whatever limits they were parsed with. -/
theorem Document.eq_of_dump_full {limits limits' : Limits} {source source' : String}
    {d d' : Document} (h : parse limits source = .ok d) (h' : parse limits' source' = .ok d')
    (hdump : d.tree.dump .full = d'.tree.dump .full) : d.tree = d'.tree ∧ source = source' := by
  have htree := Tree.dump_full_injective hdump
  exact ⟨htree, by rw [← Document.text_tree h, htree, Document.text_tree h']⟩

/-- A tabulator, a quote and a line terminator of two characters, parsed with limits and without. -/
theorem Document.eq_of_dump_full_escapes : ∃ d d',
    parse defaultLimits "GET\t/\"\r\n" = .ok d ∧ parse .unlimited "GET\t/\"\r\n" = .ok d' ∧
    d.tree.dump .full = d'.tree.dump .full ∧ d.tree = d'.tree := by
  let lines := "Document\n  Section\n    Request\n      Method\n        Text \"GET\"\n" ++
    "      Whitespace \"\\t\"\n      TargetUrl\n        Text \"/\\\"\"\n      Newline \"\\r\\n\"\n"
  obtain ⟨d, hd, hlines⟩ := exists_ok_of_any (α := ParseError)
    (q := fun d => d.tree.dump .full == lines)
    (x := parse defaultLimits "GET\t/\"\r\n") (by decide +kernel)
  obtain ⟨d', hd', hlines'⟩ := exists_ok_of_any (α := ParseError)
    (q := fun d => d.tree.dump .full == lines)
    (x := parse .unlimited "GET\t/\"\r\n") (by decide +kernel)
  have hsame := (eq_of_beq hlines).trans (eq_of_beq hlines').symm
  exact ⟨d, d', hd, hd', hsame, (Document.eq_of_dump_full hd hd' hsame).1⟩

end RequestFile
