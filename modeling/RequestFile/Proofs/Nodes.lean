import RequestFile.Proofs.Section

/-!
The nodes of a tree, each under its production.

A form says what the trees of a production look like from the root down. Read at every node, it is a
local grammar: `Form.production k` is the form of the nodes of kind `k`, wherever they stand.

* **From forms to nodes.** `Whole L` says that every node in the trees of the form `L` has the form of
  its kind. The building blocks of forms keep this, so it is found for each production by looking at
  how the form is put together.
* **Documents.** In a tree of the form `document` every node has the form of its kind
  (`Form.production_of_mem_nodesOf`).
* **Parts.** `Form.Asks p L` says that every row of trees of the form `L` has a tree with the property
  `p`, and `Form.Bars p L` that none has. Both follow the way a form is put together.
-/

namespace RequestFile

open scoped Computability

namespace Tree

mutual

/-- Whether something holds for every node of a tree, the root included. -/
def Every (P : Tree → Prop) : Tree → Prop
  | leaf _ _ => True
  | node k ts => P (node k ts) ∧ EveryOf P ts

/-- Whether something holds for every node of neighbouring trees. -/
def EveryOf (P : Tree → Prop) : List Tree → Prop
  | [] => True
  | t :: ts => Every P t ∧ EveryOf P ts

end

/-- A node of a kind. -/
def IsNodeOf (k : Kind) (t : Tree) : Prop :=
  t.isNode = true ∧ t.kind = k

/-- A leaf of a kind. -/
def IsLeafOf (k : Kind) (t : Tree) : Prop :=
  t.isNode = false ∧ t.kind = k

variable {P : Tree → Prop} {k : Kind}

lemma everyOf_append {ts us : List Tree} (h : EveryOf P ts) (h' : EveryOf P us) :
    EveryOf P (ts ++ us) := by
  induction ts with
  | nil => exact h'
  | cons t ts ih => exact ⟨h.1, ih h.2⟩

lemma EveryOf.of_mem {ts : List Tree} {t : Tree} (h : EveryOf P ts) (ht : t ∈ ts) : Every P t := by
  induction ts with
  | nil => exact absurd ht List.not_mem_nil
  | cons u ts ih =>
      rcases List.mem_cons.mp ht with rfl | ht
      · exact h.1
      · exact ih h.2 ht

lemma Every.of_isNode {t : Tree} (h : Every P t) (ht : t.isNode) : P t := by
  cases t with
  | leaf _ _ => cases ht
  | node _ _ => exact h.1

lemma Every.children {t : Tree} (h : Every P t) : EveryOf P t.children := by
  cases t with
  | leaf _ _ => trivial
  | node _ _ => exact h.2

mutual

/-- What holds for every node holds for those of a kind. -/
lemma Every.of_mem_nodesOf : ∀ {t u : Tree}, Every P t → u ∈ t.nodesOf k → P u ∧ u.kind = k
  | leaf _ _, _, _, hu => by simp [nodesOf] at hu
  | node k' ts, u, h, hu => by
      rw [nodesOf] at hu
      split_ifs at hu with hk
      · rcases List.mem_cons.mp hu with rfl | hu
        · exact ⟨h.1, eq_of_beq hk⟩
        · exact EveryOf.of_mem_nodesOfAll h.2 hu
      · exact EveryOf.of_mem_nodesOfAll h.2 hu

lemma EveryOf.of_mem_nodesOfAll :
    ∀ {ts : List Tree} {u : Tree}, EveryOf P ts → u ∈ nodesOfAll k ts → P u ∧ u.kind = k
  | [], _, _, hu => by simp [nodesOfAll] at hu
  | t :: ts, u, h, hu => by
      rw [nodesOfAll, List.mem_append] at hu
      rcases hu with hu | hu
      · exact Every.of_mem_nodesOf h.1 hu
      · exact EveryOf.of_mem_nodesOfAll h.2 hu

end

end Tree

namespace Form

/-! ### Productions -/

/-- The form of the nodes of a kind. With `m = false` requests and responses, and what holds them,
are left out. -/
def production (e m : Bool) : Kind → TreeLanguage
  | .document => if m then document e else 0
  | .section => if m then fullSection e else 0
  | .requestSeparator => separator e
  | .comment => comment
  | .metadata => metadata e
  | .variableDeclaration => variableDeclaration e
  | .variableDeclarationInline => argument e
  | .command => command e
  | .commandName => node .commandName text
  | .preRequestScript => preRequestScript e
  | .resHandlerScript => responseHandler e
  | .resRedirect => responseRedirect e
  | .script => script e
  | .path => node .path (content e)
  | .request => if m then request e else 0
  | .response => if m then response e else 0
  | .method => node .method text
  | .targetUrl => targetUrl e
  | .httpVersion => version
  | .statusCode => node .statusCode text
  | .statusText => node .statusText text
  | .queryString => queryPart e .queryString .question
  | .queryParamContinuation => queryPart e .queryParamContinuation .ampersand
  | .queryParam => queryParam e
  | .queryParamName => part e .queryParamName
  | .queryParamValue => part e .queryParamValue
  | .fragment => fragment
  | .operator => operator .question + operator .ampersand + operator .hash + operator .equals
  | .header => header e
  | .headerEntity => node .headerEntity text
  | .value => value e
  | .variable => reference e
  | .identifier => name
  | .xmlBody => textBody .xmlBody
  | .jsonBody => textBody .jsonBody
  | .graphqlBody => graphqlBody e
  | .graphqlData => textBody .graphqlData
  | .formUrlencodedBody => formBody e
  | .formParam => formParam e
  | .formParamName => part e .formParamName
  | .formParamValue => part e .formParamValue
  | .externalBody => node .externalBody (external e)
  | .multipartFormData => multipart e
  | .multipartBoundaryFirst => firstBoundary e
  | .multipartBoundary => innerBoundary e
  | .multipartBoundaryLast => lastBoundary e
  | .boundaryValue => part e .boundaryValue
  | .multipartContentLine => multipartContent
  | .multipartExternalBody => multipartExternal e
  | .rawBody => textBody .rawBody
  | .error => rejected e
  | _ => 0

/-- Every node in trees of a form has the form of its kind. -/
class Whole (e m : Bool) (L : TreeLanguage) : Prop where
  every : ∀ w ∈ L, Tree.EveryOf (fun t => [t] ∈ production e m t.kind) w

variable {e m : Bool} {k : Kind} {L M : TreeLanguage}

/-! ### Building blocks -/

instance : Whole e m 0 :=
  ⟨fun _ h => absurd h (Language.notMem_zero _)⟩

instance : Whole e m 1 :=
  ⟨fun _ h => by
    obtain rfl := (Language.mem_one _).mp h
    trivial⟩

instance [hL : Whole e m L] [hM : Whole e m M] : Whole e m (L + M) :=
  ⟨fun w h => h.elim (hL.every w) (hM.every w)⟩

instance [hL : Whole e m L] [hM : Whole e m M] : Whole e m (L * M) :=
  ⟨fun _ h => by
    obtain ⟨a, ha, b, hb, rfl⟩ := Language.mem_mul.mp h
    exact Tree.everyOf_append (hL.every a ha) (hM.every b hb)⟩

instance [hL : Whole e m L] : Whole e m L∗ :=
  ⟨fun _ h => by
    obtain ⟨ws, rfl, hws⟩ := Language.mem_kstar.mp h
    clear h
    induction ws with
    | nil => trivial
    | cons a ws ih =>
        rw [List.flatten_cons]
        exact Tree.everyOf_append (hL.every a (hws a List.mem_cons_self))
          (ih fun b hb => hws b (List.mem_cons_of_mem a hb))⟩

instance [Whole e m L] : Whole e m (opt L) :=
  inferInstanceAs (Whole e m (1 + L))

instance (x : Bool) : Whole e m (lapse x) := by
  cases x with
  | true => exact inferInstanceAs (Whole e m 1)
  | false => exact inferInstanceAs (Whole e m 0)

instance (k : Kind) : Whole e m (leaf k) :=
  ⟨fun _ h => by
    obtain ⟨t, _, rfl⟩ := h
    exact ⟨trivial, trivial⟩⟩

instance : Whole e m text :=
  ⟨fun _ h => by
    obtain ⟨ts, _, _, rfl⟩ := h
    exact ⟨trivial, trivial⟩⟩

/-- A node whose own form is that of its kind. -/
lemma whole_node [hL : Whole e m L] (h : node k L ≤ production e m k) : Whole e m (node k L) :=
  ⟨fun _ hw => by
    obtain ⟨ts, hts, rfl⟩ := hw
    exact ⟨⟨h ⟨ts, hts, rfl⟩, hL.every ts hts⟩, trivial⟩⟩

/-! ### Blanks, line ends and errors -/

instance : Whole e m blank :=
  inferInstanceAs (Whole e m (opt (leaf .whitespace)))

instance : Whole e m lineEnd :=
  inferInstanceAs (Whole e m (opt (leaf .newline)))

/-- An error node stands for something rejected. -/
instance : Whole e m (rejected e) :=
  ⟨fun w h => by
    obtain ⟨a, ha, b, hb, rfl⟩ := Language.mem_mul.mp h
    have hnil : a = [] := by
      cases e with
      | true => exact (Language.mem_one a).mp ha
      | false => exact absurd ha (Language.notMem_zero a)
    subst hnil
    rcases hb with hb | ⟨ts, ⟨us, hne, hus, rfl⟩, rfl⟩
    · obtain rfl := (Language.mem_one b).mp hb
      trivial
    · exact ⟨⟨h, ⟨trivial, trivial⟩⟩, trivial⟩⟩

instance : Whole e m (rest e) :=
  inferInstanceAs (Whole e m (opt (rejected e)))

/-! ### Values and scripts -/

instance : Whole e m name :=
  whole_node le_rfl

instance : Whole e m (identifier e) :=
  inferInstanceAs (Whole e m (name + lapse e))

instance : Whole e m (reference e) :=
  whole_node le_rfl

instance : Whole e m (content e) :=
  inferInstanceAs (Whole e m (text + reference e)∗)

instance : Whole e m (value e) :=
  whole_node le_rfl

instance : Whole e m (node .path (content e)) :=
  whole_node le_rfl

instance : Whole e m (path e) :=
  inferInstanceAs (Whole e m (node .path (content e) + lapse e))

instance : Whole e m (script e) :=
  whole_node le_rfl

instance : Whole e m (scriptOrPath e) :=
  inferInstanceAs (Whole e m (script e + path e))

instance : Whole e m (scriptEnd e) :=
  inferInstanceAs (Whole e m (opt (blank * rest e * (leaf .newline)∗)))

/-! ### Lines in front of a request -/

instance : Whole e m (separator e) :=
  whole_node le_rfl

instance : Whole e m commentMarker :=
  inferInstanceAs (Whole e m (leaf .hash + leaf .doubleSlash))

instance : Whole e m comment :=
  whole_node le_rfl

instance : Whole e m (metadataValue e) :=
  inferInstanceAs (Whole e m (opt (blank * opt (leaf .equals * blank) * opt (value e))))

instance : Whole e m (metadata e) :=
  whole_node le_rfl

instance : Whole e m (assigned e) :=
  inferInstanceAs (Whole e m (leaf .equals * blank * (value e + lapse e) + rejected e))

instance : Whole e m (assignment e) :=
  inferInstanceAs (Whole e m (leaf .at * identifier e * blank * assigned e))

instance : Whole e m (variableDeclaration e) :=
  whole_node le_rfl

instance : Whole e m (argument e) :=
  whole_node le_rfl

instance : Whole e m (arguments e) :=
  inferInstanceAs (Whole e m (leaf .parenOpen * blank
    * ((argument e * blank * leaf .comma * blank)∗ * opt (argument e * blank))
    * (leaf .parenClose + lapse e)))

instance : Whole e m (node .commandName text) :=
  whole_node le_rfl

instance : Whole e m (command e) :=
  whole_node le_rfl

instance : Whole e m (preRequestScript e) :=
  whole_node le_rfl

instance : Whole e m (preambleLine e) :=
  inferInstanceAs (Whole e m (blank * (lineEnd + comment + metadata e + variableDeclaration e
    + command e + preRequestScript e)))

/-! ### Request and response lines -/

/-- The tokens below operators. -/
lemma whole_operator (h : operator k ≤ production e m .operator) : Whole e m (operator k) :=
  whole_node h

instance : Whole e m (operator .question) :=
  whole_operator fun _ h => Or.inl (Or.inl (Or.inl h))

instance : Whole e m (operator .ampersand) :=
  whole_operator fun _ h => Or.inl (Or.inl (Or.inr h))

instance : Whole e m (operator .hash) :=
  whole_operator fun _ h => Or.inl (Or.inr h)

instance : Whole e m (operator .equals) :=
  whole_operator fun _ h => Or.inr h

instance : Whole e m (part e .queryParamName) :=
  whole_node le_rfl

instance : Whole e m (part e .queryParamValue) :=
  whole_node le_rfl

instance : Whole e m (queryValue e) :=
  inferInstanceAs (Whole e m (operator .equals * opt (part e .queryParamValue)))

instance : Whole e m (queryParam e) :=
  whole_node le_rfl

instance : Whole e m (queryPart e .queryString .question) :=
  whole_node le_rfl

instance : Whole e m (queryPart e .queryParamContinuation .ampersand) :=
  whole_node le_rfl

instance : Whole e m fragment :=
  whole_node le_rfl

instance : Whole e m (urlPiece e) :=
  inferInstanceAs (Whole e m (queryPart e .queryString .question
    + queryPart e .queryParamContinuation .ampersand + fragment + reference e + text))

instance : Whole e m (urlNextLine e) :=
  inferInstanceAs (Whole e m (blank * leaf .newline * blank * (urlPiece e)∗))

instance : Whole e m (targetUrl e) :=
  whole_node le_rfl

instance : Whole e m (node .method text) :=
  whole_node le_rfl

instance : Whole e m method :=
  inferInstanceAs (Whole e m (opt (node .method text * blank)))

instance : Whole e m version :=
  whole_node le_rfl

instance : Whole e m (requestLine e) :=
  inferInstanceAs (Whole e m (method * targetUrl e * opt (blank * opt version)
    * (blank * rest e * lineEnd)))

instance : Whole e m (node .statusCode text) :=
  whole_node le_rfl

instance : Whole e m (node .statusText text) :=
  whole_node le_rfl

instance : Whole e m (status e) :=
  inferInstanceAs (Whole e m (node .statusCode text * blank * (opt (node .statusText text) * blank)
    + rejected e))

instance : Whole e m (responseLine e) :=
  inferInstanceAs (Whole e m (version * blank * status e * lineEnd))

/-! ### Headers -/

instance : Whole e m (headerValue e) :=
  inferInstanceAs (Whole e m (leaf .colon * blank * (opt (value e) * blank) + rejected e))

instance : Whole e m (node .headerEntity text) :=
  whole_node le_rfl

instance : Whole e m (header e) :=
  whole_node le_rfl

instance : Whole e m (headerLine e) :=
  inferInstanceAs (Whole e m (comment + header e + rejected e * lineEnd))

/-! ### Bodies -/

instance : Whole e m blankLine :=
  inferInstanceAs (Whole e m (blank * lineEnd))

instance : Whole e m lines :=
  inferInstanceAs (Whole e m (opt text * lineEnd)∗)

instance : Whole e m (textBody .xmlBody) :=
  whole_node le_rfl

instance : Whole e m (textBody .jsonBody) :=
  whole_node le_rfl

instance : Whole e m (textBody .graphqlData) :=
  whole_node le_rfl

instance : Whole e m (textBody .rawBody) :=
  whole_node le_rfl

instance : Whole e m (pathEnd e) :=
  inferInstanceAs (Whole e m (blank * rest e * lineEnd))

instance : Whole e m (external e) :=
  inferInstanceAs (Whole e m (leaf .angleOpen * opt (leaf .at) * blank * path e))

instance : Whole e m (node .externalBody (external e)) :=
  whole_node le_rfl

instance : Whole e m (externalBody e) :=
  inferInstanceAs (Whole e m (node .externalBody (external e) * pathEnd e))

instance : Whole e m (multipartExternal e) :=
  whole_node le_rfl

instance : Whole e m (part e .boundaryValue) :=
  whole_node le_rfl

instance : Whole e m (firstBoundary e) :=
  whole_node le_rfl

instance : Whole e m (innerBoundary e) :=
  whole_node le_rfl

instance : Whole e m (lastBoundary e) :=
  whole_node le_rfl

instance : Whole e m multipartContent :=
  whole_node le_rfl

instance : Whole e m (multipartLine e) :=
  inferInstanceAs (Whole e m (blankLine + innerBoundary e + multipartExternal e + header e
    + multipartContent))

instance : Whole e m (multipart e) :=
  whole_node le_rfl

instance : Whole e m (part e .formParamName) :=
  whole_node le_rfl

instance : Whole e m (part e .formParamValue) :=
  whole_node le_rfl

instance : Whole e m (formValue e) :=
  inferInstanceAs (Whole e m (operator .equals * blank * opt (part e .formParamValue)))

instance : Whole e m (namedParam e) :=
  whole_node fun _ h => Or.inl h

instance : Whole e m (valuedParam e) :=
  whole_node fun _ h => Or.inl (valuedParam_le e h)

instance : Whole e m (namelessParam e) :=
  whole_node fun _ h => Or.inr h

instance : Whole e m (formParam e) :=
  inferInstanceAs (Whole e m (namedParam e + namelessParam e))

instance : Whole e m (formParams e) :=
  inferInstanceAs (Whole e m ((opt (formParam e) * operator .ampersand * lineEnd)∗
    * opt (formParam e)))

instance : Whole e m (formBody e) :=
  whole_node le_rfl

instance : Whole e m (formBodyFrom e (valuedParam e)) :=
  whole_node (node_mono (mul_le_mul_left (mul_le_mul_left (valuedParam_le e) _) _))

instance : Whole e m (graphqlBody e) :=
  whole_node le_rfl

instance : Whole e m (responseHandler e) :=
  whole_node le_rfl

instance : Whole e m (responseRedirect e) :=
  whole_node le_rfl

instance : Whole e m (bodyItem e) :=
  inferInstanceAs (Whole e m (blankLine + comment + responseHandler e + responseRedirect e
    + multipart e + externalBody e + textBody .xmlBody + textBody .jsonBody + graphqlBody e
    + formBody e + textBody .rawBody))

/-! ### Sections -/

instance : Whole e m (message e) :=
  inferInstanceAs (Whole e m ((headerLine e)∗ * (bodyItem e)∗))

instance : Whole e true (request e) :=
  whole_node le_rfl

instance : Whole e true (response e) :=
  whole_node le_rfl

instance : Whole e true (fullSection e) :=
  whole_node le_rfl

instance : Whole e true (sections e) :=
  inferInstanceAs (Whole e true (fullSection e)∗)

instance : Whole e true (document e) :=
  whole_node le_rfl

/-- **Every node of a document** has the form of its kind. -/
lemma production_of_mem_nodesOf {t u : Tree} (h : [t] ∈ document e) (hu : u ∈ t.nodesOf k) :
    [u] ∈ production e true k := by
  have hevery := (Whole.every (e := e) (m := true) [t] h).1
  obtain ⟨hform, hkind⟩ := hevery.of_mem_nodesOf hu
  rwa [hkind] at hform

/-! ### Parts that a form asks for -/

/-- Every row of trees of a form has one with a property. -/
def Asks (p : Tree → Prop) (L : TreeLanguage) : Prop :=
  ∀ w ∈ L, ∃ t ∈ w, p t

/-- No row of trees of a form has one with a property. -/
def Bars (p : Tree → Prop) (L : TreeLanguage) : Prop :=
  ∀ w ∈ L, ∀ t ∈ w, ¬p t

variable {p : Tree → Prop} {k K : Kind} {L M : TreeLanguage} {w : List Tree} {t : Tree}

lemma Asks.mul_left (h : Asks p M) (L : TreeLanguage) : Asks p (L * M) := by
  intro w hw
  obtain ⟨a, _, b, hb, rfl⟩ := Language.mem_mul.mp hw
  obtain ⟨t, ht, hp⟩ := h b hb
  exact ⟨t, List.mem_append_right a ht, hp⟩

lemma Asks.mul_right (h : Asks p L) (M : TreeLanguage) : Asks p (L * M) := by
  intro w hw
  obtain ⟨a, ha, b, _, rfl⟩ := Language.mem_mul.mp hw
  obtain ⟨t, ht, hp⟩ := h a ha
  exact ⟨t, List.mem_append_left b ht, hp⟩

lemma Asks.add (h : Asks p L) (h' : Asks p M) : Asks p (L + M) :=
  fun w hw => hw.elim (h w) (h' w)

/-- What is required may not lapse. -/
lemma Asks.add_lapse (h : Asks p L) : Asks p (L + lapse false) :=
  h.add fun _ hw => absurd hw (Language.notMem_zero _)

lemma asks_node (k : Kind) (L : TreeLanguage) : Asks (Tree.IsNodeOf k) (node k L) := by
  rintro _ ⟨ts, _, rfl⟩
  exact ⟨_, List.mem_singleton_self _, rfl, rfl⟩

lemma asks_leaf (k : Kind) : Asks (Tree.IsLeafOf k) (leaf k) := by
  rintro _ ⟨t, _, rfl⟩
  exact ⟨_, List.mem_singleton_self _, rfl, rfl⟩

lemma Bars.add (h : Bars p L) (h' : Bars p M) : Bars p (L + M) :=
  fun w hw => hw.elim (h w) (h' w)

lemma Bars.mul (h : Bars p L) (h' : Bars p M) : Bars p (L * M) := by
  intro w hw t ht
  obtain ⟨a, ha, b, hb, rfl⟩ := Language.mem_mul.mp hw
  rcases List.mem_append.mp ht with ht | ht
  · exact h a ha t ht
  · exact h' b hb t ht

lemma bars_one : Bars p 1 := by
  intro w hw t ht
  obtain rfl := (Language.mem_one w).mp hw
  exact absurd ht List.not_mem_nil

lemma bars_lapse {p : Tree → Prop} (x : Bool) : Bars p (lapse x) := by
  cases x with
  | true => exact bars_one
  | false => exact fun w hw => absurd hw (Language.notMem_zero w)

lemma Bars.opt (h : Bars p L) : Bars p (opt L) :=
  bars_one.add h

lemma bars_node : Bars (Tree.IsLeafOf k) (node K L) := by
  rintro _ ⟨ts, _, rfl⟩ t ht ⟨hnode, _⟩
  rw [List.mem_singleton.mp ht] at hnode
  cases hnode

lemma bars_leaf (h : K ≠ k) : Bars (Tree.IsLeafOf k) (leaf K) := by
  rintro _ ⟨u, _, rfl⟩ t ht ⟨_, hk⟩
  rw [List.mem_singleton.mp ht] at hk
  exact h hk

end Form

end RequestFile
