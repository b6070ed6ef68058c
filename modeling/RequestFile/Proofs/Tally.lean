import RequestFile.Proofs.Nodes

/-!
How many child nodes a form gives.

A tally bounds a number from below and, if it can, from above. `Tallied p L` computes one for the
nodes whose kind has the property `p` in the rows of the form `L`: forms that follow each other add
up, alternatives are joined, and what is repeated has no bound unless there is nothing to count.

* **Bounds.** `Tally.Holds`, and how it is kept by `add`, `join` and `repeated`.
* **Forms.** `Tallied` follows the way a form is put together. A form without any row has no tally,
  so what may not lapse adds nothing to its alternatives.
* **Nodes.** `Form.covers_of_node` reads the tally at the children of a node.
-/

namespace RequestFile

open scoped Computability

/-- A lower bound of a number and, perhaps, an upper bound. -/
structure Tally where
  least : Nat
  most : Option Nat
deriving DecidableEq, Repr

namespace Tally

/-- The bounds of one number. -/
def exactly (n : Nat) : Tally :=
  ⟨n, some n⟩

/-- The bounds of a sum. -/
def add (a b : Tally) : Tally :=
  ⟨a.least + b.least, Option.map₂ (· + ·) a.most b.most⟩

/-- The bounds of a number that keeps to either. -/
def join (a b : Tally) : Tally :=
  ⟨min a.least b.least, Option.map₂ max a.most b.most⟩

/-- The bounds of a sum of any length. -/
def repeated (a : Tally) : Tally :=
  ⟨0, if a.most = some 0 then some 0 else none⟩

/-- Whether a number keeps to the bounds. -/
def Holds (a : Tally) (n : Nat) : Prop :=
  a.least ≤ n ∧ ∀ m ∈ a.most, n ≤ m

variable {a b : Tally} {m n : Nat}

lemma holds_exactly (n : Nat) : (exactly n).Holds n :=
  ⟨le_rfl, fun _ h => (Option.some.inj h).le⟩

lemma Holds.add (ha : a.Holds m) (hb : b.Holds n) : (a.add b).Holds (m + n) := by
  refine ⟨Nat.add_le_add ha.1 hb.1, fun k hk => ?_⟩
  obtain ⟨i, j, hi, hj, rfl⟩ := Option.mem_map₂_iff.mp hk
  exact Nat.add_le_add (ha.2 i hi) (hb.2 j hj)

lemma Holds.join_left (b : Tally) (ha : a.Holds n) : (a.join b).Holds n := by
  refine ⟨(min_le_left _ _).trans ha.1, fun k hk => ?_⟩
  obtain ⟨i, j, hi, _, rfl⟩ := Option.mem_map₂_iff.mp hk
  exact (ha.2 i hi).trans (le_max_left i j)

lemma Holds.join_right (a : Tally) (hb : b.Holds n) : (a.join b).Holds n := by
  refine ⟨(min_le_right _ _).trans hb.1, fun k hk => ?_⟩
  obtain ⟨i, j, _, hj, rfl⟩ := Option.mem_map₂_iff.mp hk
  exact (hb.2 j hj).trans (le_max_right i j)

lemma holds_repeated_zero (a : Tally) : a.repeated.Holds 0 :=
  ⟨le_rfl, fun k _ => Nat.zero_le k⟩

/-- One summand more keeps to the bounds of a sum of any length. -/
lemma Holds.repeated_add (ha : a.Holds m) (hs : a.repeated.Holds n) : a.repeated.Holds (m + n) := by
  refine ⟨Nat.zero_le _, fun k hk => ?_⟩
  have hn := hs.2 k hk
  rw [repeated] at hk
  split_ifs at hk with hzero
  · obtain rfl := Option.some.inj hk
    have hm := ha.2 0 hzero
    omega
  · cases hk

end Tally

namespace Form

variable {p : Kind → Bool} {L M : TreeLanguage}

/-- The number of nodes of a row whose kind has a property. -/
def countNodes (p : Kind → Bool) (ts : List Tree) : Nat :=
  ts.countP fun t => t.isNode && p t.kind

/-- Whether a tally, which a form without rows does not have, bounds a number. -/
def Covers (x : Option Tally) (n : Nat) : Prop :=
  ∃ a ∈ x, a.Holds n

/-- A form with a tally of the nodes whose kind has a property. -/
class Tallied (p : Kind → Bool) (L : TreeLanguage) where
  tally : Option Tally
  covers : ∀ w ∈ L, Covers tally (countNodes p w)

/-! ### Building blocks -/

instance : Tallied p 0 :=
  ⟨none, fun _ h => absurd h (Language.notMem_zero _)⟩

instance : Tallied p 1 :=
  ⟨some (.exactly 0), fun _ h => by
    obtain rfl := (Language.mem_one _).mp h
    exact ⟨_, rfl, Tally.holds_exactly 0⟩⟩

instance [hL : Tallied p L] [hM : Tallied p M] : Tallied p (L + M) :=
  ⟨Option.merge Tally.join hL.tally hM.tally, fun w h => by
    rcases h with h | h
    · obtain ⟨a, ha, hw⟩ := hL.covers w h
      rw [Option.mem_def.mp ha]
      cases hM.tally with
      | none => exact ⟨a, rfl, hw⟩
      | some b => exact ⟨_, rfl, hw.join_left b⟩
    · obtain ⟨b, hb, hw⟩ := hM.covers w h
      rw [Option.mem_def.mp hb]
      cases hL.tally with
      | none => exact ⟨b, rfl, hw⟩
      | some a => exact ⟨_, rfl, hw.join_right a⟩⟩

instance [hL : Tallied p L] [hM : Tallied p M] : Tallied p (L * M) :=
  ⟨Option.map₂ Tally.add hL.tally hM.tally, fun _ h => by
    obtain ⟨u, hu, v, hv, rfl⟩ := Language.mem_mul.mp h
    obtain ⟨a, ha, hua⟩ := hL.covers u hu
    obtain ⟨b, hb, hvb⟩ := hM.covers v hv
    refine ⟨a.add b, Option.mem_map₂_iff.mpr ⟨a, b, ha, hb, rfl⟩, ?_⟩
    rw [countNodes, List.countP_append]
    exact hua.add hvb⟩

instance [hL : Tallied p L] : Tallied p L∗ :=
  ⟨some ((hL.tally.map Tally.repeated).getD (.exactly 0)), fun _ h => by
    obtain ⟨ws, rfl, hws⟩ := Language.mem_kstar.mp h
    refine ⟨_, rfl, ?_⟩
    clear h
    induction ws with
    | nil =>
        cases hL.tally with
        | none => exact Tally.holds_exactly 0
        | some a => exact a.holds_repeated_zero
    | cons w ws ih =>
        obtain ⟨a, ha, hw⟩ := hL.covers w (hws w List.mem_cons_self)
        have hmore := ih fun v hv => hws v (List.mem_cons_of_mem w hv)
        rw [Option.mem_def.mp ha] at hmore ⊢
        rw [List.flatten_cons, countNodes, List.countP_append]
        exact hw.repeated_add hmore⟩

instance [Tallied p L] : Tallied p (opt L) :=
  inferInstanceAs (Tallied p (1 + L))

instance (x : Bool) : Tallied p (lapse x) :=
  ⟨if x then some (.exactly 0) else none, fun w h => by
    cases x with
    | true =>
        obtain rfl := (Language.mem_one w).mp h
        exact ⟨_, rfl, Tally.holds_exactly 0⟩
    | false => exact absurd h (Language.notMem_zero w)⟩

instance (k : Kind) : Tallied p (leaf k) :=
  ⟨some (.exactly 0), fun _ h => by
    obtain ⟨t, _, rfl⟩ := h
    exact ⟨_, rfl, Tally.holds_exactly 0⟩⟩

instance : Tallied p text :=
  ⟨some (.exactly 0), fun _ h => by
    obtain ⟨ts, _, _, rfl⟩ := h
    exact ⟨_, rfl, Tally.holds_exactly 0⟩⟩

/-- A node counts as one, whatever is below it. -/
instance (k : Kind) : Tallied p (node k L) :=
  ⟨some (.exactly (if p k then 1 else 0)), fun _ h => by
    obtain ⟨ts, _, rfl⟩ := h
    refine ⟨_, rfl, ?_⟩
    have hone : countNodes p [.node k ts] = if p k then 1 else 0 := by
      simp [countNodes, List.countP_singleton, Tree.isNode, Tree.kind]
    rw [hone]
    exact Tally.holds_exactly _⟩

variable {e : Bool}

/-! ### Blanks, line ends and errors -/

instance : Tallied p blank :=
  inferInstanceAs (Tallied p (opt (leaf .whitespace)))

instance : Tallied p lineEnd :=
  inferInstanceAs (Tallied p (opt (leaf .newline)))

instance : Tallied p (rejected e) :=
  inferInstanceAs (Tallied p (lapse e * opt (node .error text)))

instance : Tallied p (rest e) :=
  inferInstanceAs (Tallied p (opt (rejected e)))

/-! ### Values and scripts -/

instance : Tallied p (identifier e) :=
  inferInstanceAs (Tallied p (node .identifier text + lapse e))

instance : Tallied p (reference e) :=
  inferInstanceAs (Tallied p (node .variable _))

instance : Tallied p (content e) :=
  inferInstanceAs (Tallied p (text + reference e)∗)

instance : Tallied p (value e) :=
  inferInstanceAs (Tallied p (node .value _))

instance : Tallied p (path e) :=
  inferInstanceAs (Tallied p (node .path (content e) + lapse e))

instance : Tallied p (scriptOrPath e) :=
  inferInstanceAs (Tallied p (node .script _ + path e))

instance : Tallied p (scriptEnd e) :=
  inferInstanceAs (Tallied p (opt (blank * rest e * (leaf .newline)∗)))

/-! ### Lines in front of a request -/

instance : Tallied p (separator e) :=
  inferInstanceAs (Tallied p (node .requestSeparator _))

instance : Tallied p commentMarker :=
  inferInstanceAs (Tallied p (leaf .hash + leaf .doubleSlash))

instance : Tallied p comment :=
  inferInstanceAs (Tallied p (node .comment _))

instance : Tallied p (metadataValue e) :=
  inferInstanceAs (Tallied p (opt (blank * opt (leaf .equals * blank) * opt (value e))))

instance : Tallied p (metadata e) :=
  inferInstanceAs (Tallied p (node .metadata _))

instance : Tallied p name :=
  inferInstanceAs (Tallied p (node .identifier _))

instance : Tallied p (assigned e) :=
  inferInstanceAs (Tallied p (leaf .equals * blank * (value e + lapse e) + rejected e))

instance : Tallied p (assignment e) :=
  inferInstanceAs (Tallied p (leaf .at * identifier e * blank * assigned e))

instance : Tallied p (variableDeclaration e) :=
  inferInstanceAs (Tallied p (node .variableDeclaration _))

instance : Tallied p (argument e) :=
  inferInstanceAs (Tallied p (node .variableDeclarationInline _))

instance : Tallied p (arguments e) :=
  inferInstanceAs (Tallied p (leaf .parenOpen * blank
    * ((argument e * blank * leaf .comma * blank)∗ * opt (argument e * blank))
    * (leaf .parenClose + lapse e)))

instance : Tallied p (command e) :=
  inferInstanceAs (Tallied p (node .command _))

instance : Tallied p (preRequestScript e) :=
  inferInstanceAs (Tallied p (node .preRequestScript _))

instance : Tallied p (preambleLine e) :=
  inferInstanceAs (Tallied p (blank * (lineEnd + comment + metadata e + variableDeclaration e
    + command e + preRequestScript e)))

/-! ### Request and response lines -/

instance (k : Kind) : Tallied p (operator k) :=
  inferInstanceAs (Tallied p (node .operator _))

instance (k : Kind) : Tallied p (part e k) :=
  inferInstanceAs (Tallied p (node k _))

instance : Tallied p (queryValue e) :=
  inferInstanceAs (Tallied p (operator .equals * opt (part e .queryParamValue)))

instance : Tallied p (queryParam e) :=
  inferInstanceAs (Tallied p (node .queryParam _))

instance (k mark : Kind) : Tallied p (queryPart e k mark) :=
  inferInstanceAs (Tallied p (node k _))

instance : Tallied p fragment :=
  inferInstanceAs (Tallied p (node .fragment _))

instance : Tallied p (urlPiece e) :=
  inferInstanceAs (Tallied p (queryPart e .queryString .question
    + queryPart e .queryParamContinuation .ampersand + fragment + reference e + text))

instance : Tallied p (urlNextLine e) :=
  inferInstanceAs (Tallied p (blank * leaf .newline * blank * (urlPiece e)∗))

instance : Tallied p (targetUrl e) :=
  inferInstanceAs (Tallied p (node .targetUrl _))

instance : Tallied p method :=
  inferInstanceAs (Tallied p (opt (node .method text * blank)))

instance : Tallied p version :=
  inferInstanceAs (Tallied p (node .httpVersion _))

instance : Tallied p (requestLine e) :=
  inferInstanceAs (Tallied p (method * targetUrl e * opt (blank * opt version)
    * (blank * rest e * lineEnd)))

instance : Tallied p (status e) :=
  inferInstanceAs (Tallied p (node .statusCode text * blank
    * (opt (node .statusText text) * blank) + rejected e))

instance : Tallied p (responseLine e) :=
  inferInstanceAs (Tallied p (version * blank * status e * lineEnd))

/-! ### Headers -/

instance : Tallied p (headerValue e) :=
  inferInstanceAs (Tallied p (leaf .colon * blank * (opt (value e) * blank) + rejected e))

instance : Tallied p (header e) :=
  inferInstanceAs (Tallied p (node .header _))

instance : Tallied p (headerLine e) :=
  inferInstanceAs (Tallied p (comment + header e + rejected e * lineEnd))

/-! ### Bodies -/

instance : Tallied p blankLine :=
  inferInstanceAs (Tallied p (blank * lineEnd))

instance : Tallied p lines :=
  inferInstanceAs (Tallied p (opt text * lineEnd)∗)

instance (k : Kind) : Tallied p (textBody k) :=
  inferInstanceAs (Tallied p (node k _))

instance : Tallied p (pathEnd e) :=
  inferInstanceAs (Tallied p (blank * rest e * lineEnd))

instance : Tallied p (external e) :=
  inferInstanceAs (Tallied p (leaf .angleOpen * opt (leaf .at) * blank * path e))

instance : Tallied p (externalBody e) :=
  inferInstanceAs (Tallied p (node .externalBody _ * pathEnd e))

instance : Tallied p (multipartExternal e) :=
  inferInstanceAs (Tallied p (node .multipartExternalBody _))

instance : Tallied p (firstBoundary e) :=
  inferInstanceAs (Tallied p (node .multipartBoundaryFirst _))

instance : Tallied p (innerBoundary e) :=
  inferInstanceAs (Tallied p (node .multipartBoundary _))

instance : Tallied p (lastBoundary e) :=
  inferInstanceAs (Tallied p (node .multipartBoundaryLast _))

instance : Tallied p multipartContent :=
  inferInstanceAs (Tallied p (node .multipartContentLine _))

instance : Tallied p (multipartLine e) :=
  inferInstanceAs (Tallied p (blankLine + innerBoundary e + multipartExternal e + header e
    + multipartContent))

instance : Tallied p (multipart e) :=
  inferInstanceAs (Tallied p (node .multipartFormData _))

instance : Tallied p (formValue e) :=
  inferInstanceAs (Tallied p (operator .equals * blank * opt (part e .formParamValue)))

instance : Tallied p (namedParam e) :=
  inferInstanceAs (Tallied p (node .formParam _))

instance : Tallied p (formParam e) :=
  inferInstanceAs (Tallied p (namedParam e + node .formParam _))

instance : Tallied p (formParams e) :=
  inferInstanceAs (Tallied p ((opt (formParam e) * operator .ampersand * lineEnd)∗
    * opt (formParam e)))

instance : Tallied p (formBody e) :=
  inferInstanceAs (Tallied p (node .formUrlencodedBody _))

instance : Tallied p (graphqlBody e) :=
  inferInstanceAs (Tallied p (node .graphqlBody _))

instance : Tallied p (responseHandler e) :=
  inferInstanceAs (Tallied p (node .resHandlerScript _))

instance : Tallied p (responseRedirect e) :=
  inferInstanceAs (Tallied p (node .resRedirect _))

instance : Tallied p (bodyItem e) :=
  inferInstanceAs (Tallied p (blankLine + comment + responseHandler e + responseRedirect e
    + multipart e + externalBody e + textBody .xmlBody + textBody .jsonBody + graphqlBody e
    + formBody e + textBody .rawBody))

/-! ### Sections -/

instance : Tallied p (message e) :=
  inferInstanceAs (Tallied p ((headerLine e)∗ * (bodyItem e)∗))

instance : Tallied p (request e) :=
  inferInstanceAs (Tallied p (node .request _))

instance : Tallied p (response e) :=
  inferInstanceAs (Tallied p (node .response _))

instance : Tallied p (sections e) :=
  inferInstanceAs (Tallied p (node .section _)∗)

/-! ### Nodes -/

/-- Rows of a form that has none of the nodes counted. -/
lemma none_of_tally [hL : Tallied p L] (hx : hL.tally.all (·.most = some 0)) {w : List Tree}
    (h : w ∈ L) : ∀ t ∈ w, t.isNode → p t.kind = false := by
  obtain ⟨a, ha, hcount⟩ := hL.covers w h
  rw [Option.mem_def.mp ha] at hx
  have hzero := Nat.le_zero.mp (hcount.2 0 (by simpa using hx))
  rw [countNodes, List.countP_eq_zero] at hzero
  intro t ht hnode
  simpa [hnode] using hzero t ht

/-- The tally of what stands below a node. -/
lemma covers_of_node {k : Kind} {t : Tree} [hL : Tallied p L] (h : [t] ∈ node k L) :
    Covers hL.tally (countNodes p t.children) := by
  obtain ⟨ts, hts, heq⟩ := h
  obtain rfl : t = .node k ts := List.singleton_inj.mp heq
  exact hL.covers ts hts

end Form

end RequestFile
