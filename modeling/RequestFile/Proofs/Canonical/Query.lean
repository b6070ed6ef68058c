import RequestFile.Proofs.Canonical.Marked
import RequestFile.Proofs.Canonical.Reference
import RequestFile.Proofs.Canonical.Url
import RequestFile.Proofs.Sites

/-!
Parsing queries back.

A `QueryModel` is a URL with parameters and, perhaps, a fragment. The names and the values of the
parameters are texts or references, and the name in a reference may hold the characters that join
parameters. The document of a request for the URL has no diagnostics, and its parameters are those of
the model (`QueryModel.parse_query`).

* **Tokens.** A parameter is scanned apart from the marks around it (`Token.scanFrom_params`), and a
  search for the end of a name or a value passes over it (`QueryText.skips`).
* **Pieces.** The base, each parameter with the mark in front of it and the fragment are one piece of
  the URL each (`Cursor.exact_queryPart`, `Cursor.exact_fragmentPart`), and the URL is read by
  induction on the parameters (`Cursor.exact_queryLine`).
-/

namespace RequestFile

open Lookahead (IsName)

/-! ### URLs -/

/-- The characters in front of a query besides letters and digits. -/
def urlBaseMarks : List Char :=
  [':', '/', '.', '_', '-']

/-- The characters of names and values of parameters besides letters and digits. -/
def queryMarks : List Char :=
  ['_', '.', '%', '+', '-']

/-- The characters of fragments besides letters and digits. -/
def fragmentMarks : List Char :=
  ['_', '.', '-']

/-- A name or a value: text, or a reference to a name that is accepted as a whole. -/
inductive QueryText
  | plain (s : String) (nonempty : s ≠ "") (chars : MarkedText queryMarks s)
  | reference (id : String) (name : IsName (Token.scanFrom false 0 id.toList))
      (unclosed : ¬['\x7d', '\x7d'] <:+: id.toList)

namespace QueryText

/-- The text that is written. -/
def text : QueryText → String
  | plain s _ _ => s
  | reference id _ _ => "\x7b\x7b" ++ id ++ "\x7d\x7d"

/-- The tokens of the text. -/
def tokens : QueryText → List Token
  | plain s _ _ => Token.scanFrom false 0 s.toList
  | reference id _ _ => Token.varOpen :: (Token.scanFrom false 0 id.toList ++ [Token.varClose])

/-- The trees of the text. -/
def trees : QueryText → List Tree
  | plain s _ _ => [.leaf .text s]
  | reference id _ _ => [Cursor.referenceTree id]

end QueryText

/-- A parameter of a query. The value may be missing. -/
structure QueryParamModel where
  name : QueryText
  value : Option QueryText

namespace QueryParamModel

variable (p : QueryParamModel)

/-- The name and the value, joined by an equals sign. -/
def text : String :=
  p.name.text ++ p.value.elim "" ("=" ++ ·.text)

/-- The parameter that is read. -/
def param : Param :=
  ⟨some p.name.text, p.value.map QueryText.text⟩

/-- The tokens of the value with the equals sign in front of it. -/
def valueTokens : List Token :=
  p.value.elim [] fun v => Token.joint '=' .equals :: v.tokens

/-- The tokens of the parameter. -/
def tokens : List Token :=
  p.name.tokens ++ p.valueTokens

/-- The trees of the value with the equals sign in front of it. -/
def valueTrees : List Tree :=
  p.value.elim [] fun v => [.node .operator [.leaf .equals "="], .node .queryParamValue v.trees]

/-- The tree of the parameter. -/
def tree : Tree :=
  .node .queryParam (.node .queryParamName p.name.trees :: p.valueTrees)

end QueryParamModel

/-- What stands in front of a parameter: a question mark in front of the first, an ampersand in front
of the others. -/
inductive QueryMark
  | question
  | ampersand

namespace QueryMark

/-- The character. -/
def char : QueryMark → Char
  | question => '?'
  | ampersand => '&'

/-- The kind of its token. -/
def kind : QueryMark → Kind
  | question => .question
  | ampersand => .ampersand

/-- The kind of the node over it and the parameter. -/
def part : QueryMark → Kind
  | question => .queryString
  | ampersand => .queryParamContinuation

/-- Its token. -/
def token (m : QueryMark) : Token :=
  Token.joint m.char m.kind

end QueryMark

/-- A URL with a query. The line may lack its terminator. -/
structure QueryModel where
  base : String
  params : List QueryParamModel
  fragment : Option String
  terminated : Bool
  base_ne : base ≠ ""
  base_chars : MarkedText urlBaseMarks base
  params_ne : params ≠ []
  fragment_ne : ∀ f ∈ fragment, f ≠ ""
  fragment_chars : ∀ f ∈ fragment, MarkedText fragmentMarks f

namespace QueryModel

/-- The text of parameters, the first with a given mark in front of it. -/
def paramsText : QueryMark → List QueryParamModel → String
  | _, [] => ""
  | m, p :: ps => String.singleton m.char ++ p.text ++ paramsText .ampersand ps

/-- The tokens of parameters. -/
def paramsTokens : QueryMark → List QueryParamModel → List Token
  | _, [] => []
  | m, p :: ps => m.token :: p.tokens ++ paramsTokens .ampersand ps

/-- The trees of parameters. -/
def paramsTrees : QueryMark → List QueryParamModel → List Tree
  | _, [] => []
  | m, p :: ps => .node m.part [.node .operator [.leaf m.kind (String.singleton m.char)], p.tree] ::
      paramsTrees .ampersand ps

variable (m : QueryModel)

/-- The text of the fragment. -/
def fragmentText : String :=
  m.fragment.elim "" ("#" ++ ·)

/-- The tokens of the fragment. -/
def fragmentTokens : List Token :=
  m.fragment.elim [] fun f => ⟨.hash, "#"⟩ :: Token.scanFrom false 0 f.toList

/-- The trees of the fragment. -/
def fragmentTrees : List Tree :=
  m.fragment.elim [] fun f => [.node .fragment [.node .operator [.leaf .hash "#"], .leaf .text f]]

/-- The text of the URL. -/
def url : String :=
  m.base ++ (paramsText .question m.params ++ m.fragmentText)

/-- The tokens in front of the query. -/
def baseTokens : List Token :=
  Token.scanFrom false 0 m.base.toList

/-- The tokens of the URL. -/
def urlTokens : List Token :=
  m.baseTokens ++ (paramsTokens .question m.params ++ m.fragmentTokens)

/-- The trees of the URL. -/
def urlTrees : List Tree :=
  .leaf .text m.base :: (paramsTrees .question m.params ++ m.fragmentTrees)

/-- A request for the URL. -/
def source : String :=
  "GET " ++ (m.url ++ endText m.terminated)

end QueryModel

/-! ### Texts -/

namespace QueryText

variable {set : KindSet} {stop : Nat} {us : List Token} {c : Cursor} (x : QueryText)

lemma scanFrom_text : Token.scanFrom false 0 x.text.toList = x.tokens := by
  cases x with
  | plain s hne hs => rfl
  | reference id hid hopen =>
      have htext : (reference id hid hopen).text.toList
          = '\x7b' :: '\x7b' :: (id.toList ++ '\x7d' :: '\x7d' :: []) := by
        simp [text]
      rw [htext, Token.scanFrom_reference hid]
      rfl

/-- A text ends with a character that goes on with neither a hash nor a terminator. -/
lemma last_text : ∀ c ∈ x.text.toList.getLast?, c ≠ '#' ∧ c ≠ '\r' := by
  cases x with
  | plain s hne hs =>
      intro c hc
      have hmem := List.mem_of_getLast? hc
      exact ⟨hs.ne (by decide) c hmem, hs.ne (by decide) c hmem⟩
  | reference id hid hopen =>
      intro c hc
      have htext : (reference id hid hopen).text.toList
          = '\x7b' :: '\x7b' :: (id.toList ++ ['\x7d']) ++ ['\x7d'] := by
        simp [text]
      rw [htext, List.getLast?_concat] at hc
      obtain rfl := Option.some.inj hc
      decide

/-- The closer of the reference is the first in it. -/
lemma kind_of_reference {id : List Char} (hid : IsName (Token.scanFrom false 0 id))
    (hopen : ¬['\x7d', '\x7d'] <:+: id) :
    ∀ t ∈ Token.scanFrom false 0 id, t.kind ≠ .varClose ∧ t.kind ≠ .newline := by
  refine fun t ht => ⟨fun hk => hopen ?_, hid.newline t ht⟩
  have htext : t.text = "\x7d\x7d" :=
    (Token.lexeme_of_mem_scanFrom false id t ht).text_eq hk (by decide) (by decide)
  have hinfix := Token.infix_of_mem_scanFrom ht
  rw [htext] at hinfix
  exact hinfix

lemma tokens_ne_nil : x.tokens ≠ [] := by
  cases x with
  | plain s hne hs => simpa [tokens, Token.scanFrom_eq_nil] using hne
  | reference id hid hopen => exact List.cons_ne_nil _ _

/-- A text stands on one line. -/
lemma newline_of_tokens : ∀ t ∈ x.tokens, t.kind ≠ .newline := by
  cases x with
  | plain s hne hs => exact Token.kind_of_marked hs (by decide) false
  | reference id hid hopen =>
      rw [tokens, List.forall_mem_cons, List.forall_mem_append, List.forall_mem_singleton]
      exact ⟨by decide, hid.newline, by decide⟩

/-- **Searches** for what no text holds outside of references pass over it. -/
lemma skips (hset : ∀ k ∈ Kind.varOpen :: set.members, Token.Foreign queryMarks k) :
    Lookahead.Skips set x.tokens := by
  cases x with
  | plain s hne hs =>
      exact Lookahead.skips_of_kinds fun k hk => Token.kind_of_marked hs (hset k hk) false
  | reference id hid hopen => exact Lookahead.skips_reference (kind_of_reference hid hopen)

/-- A URL does not end with a version where it ends with such a text behind a mark. -/
lemma splitVersion_of_last {t : Token} (ht : t.kind ≠ .slash) (front : List Token) :
    Lookahead.splitVersion (front ++ t :: x.tokens) = ((front ++ t :: x.tokens).length, none) := by
  have hpos := List.length_pos_of_ne_nil x.tokens_ne_nil
  have hlen : 2 ≤ (t :: x.tokens).length := by
    rw [List.length_cons]
    omega
  have hlast : (t :: x.tokens).getLast? = x.tokens.getLast? :=
    List.getLast?_append_of_ne_nil [t] x.tokens_ne_nil
  refine Lookahead.splitVersion_of_suffix (List.suffix_append _ _) hlen ?_ ?_
  · rw [hlast]
    cases x with
    | plain s hne hs =>
        exact fun u hu => Token.kind_of_marked hs (by decide) false u (List.mem_of_getLast? hu)
    | reference id hid hopen =>
        rw [tokens, ← List.cons_append, List.getLast?_concat]
        simp [Token.varClose]
  · rw [hlast]
    cases x with
    | plain s hne hs =>
        exact .inl (List.forall_mem_cons.mpr ⟨ht, Token.kind_of_marked hs (by decide) false⟩)
    | reference id hid hopen =>
        rw [tokens, ← List.cons_append, List.getLast?_concat]
        simp [Token.varClose]

/-- **Texts** are read as their trees. -/
lemma exact_interpolated (hc : c.Live) (hr : c.rest = x.tokens ++ us)
    (hs : stop = c.read + x.tokens.length) :
    Cursor.Exact x.tokens x.trees c (c.interpolated stop) := by
  have htext : ∀ s : String, Token.textOf (Token.scanFrom false 0 s.toList) = s := fun s =>
    Token.textOf_scanFrom_toList false s
  have hne := x.tokens_ne_nil
  have hnewline := x.newline_of_tokens
  cases x with
  | plain s hempty hmarked =>
      have hexact := Cursor.exact_interpolated hc hr hne hnewline
        (Token.kind_of_marked hmarked (by decide) false) hs
      rw [tokens, htext] at hexact
      exact hexact
  | reference id hid hopen =>
      have hexact := Cursor.exact_interpolated_reference hc hr hid (by simpa [tokens] using hs)
      rw [htext] at hexact
      exact hexact

lemma textOf_trees : Tree.textOf x.trees = x.text := by
  cases x with
  | plain s hne hs => exact Tree.textOf_leaf _ _
  | reference id hid hopen =>
      have hleaf : ∀ (k : Kind) (s : String), (Tree.leaf k s).text = s := fun k s =>
        (Tree.textOf_singleton _).symm.trans (Tree.textOf_leaf k s)
      simp [trees, text, Cursor.referenceTree, Tree.text_node, Tree.textOf_cons, hleaf,
        String.append_assoc]

end QueryText

/-! ### Tokens -/

namespace Token

variable (p : QueryParamModel) (m : QueryModel)

lemma scanFrom_queryParam : scanFrom false 0 p.text.toList = p.tokens := by
  rw [QueryParamModel.text, QueryParamModel.tokens, QueryParamModel.valueTokens, String.toList_append]
  cases p.value with
  | none => simp [p.name.scanFrom_text]
  | some v =>
      have hvalue : ("=" ++ v.text).toList = '=' :: v.text.toList := by simp
      rw [Option.elim_some, Option.elim_some, hvalue, scanFrom_joint (k := .equals) (by decide),
        p.name.scanFrom_text, v.scanFrom_text]

/-- A parameter ends as its name or its value does. -/
lemma last_queryParam : ∀ c ∈ p.text.toList.getLast?, c ≠ '#' ∧ c ≠ '\r' := by
  rw [QueryParamModel.text, String.toList_append]
  cases p.value with
  | none => simpa using p.name.last_text
  | some v =>
      intro c hc
      have hne : v.text.toList ≠ [] := fun hnil =>
        v.tokens_ne_nil (by rw [← v.scanFrom_text, hnil]; rfl)
      rw [Option.elim_some, String.toList_append, ← List.append_assoc,
        List.getLast?_append_of_ne_nil _ hne] at hc
      exact v.last_text c hc

/-- **Fragments** are scanned apart from what stands in front of them. -/
lemma scanFrom_fragment {cs : List Char} (hcs : ∀ c ∈ cs.getLast?, c ≠ '#' ∧ c ≠ '\r') (b : Bool) :
    scanFrom b 0 (cs ++ (m.fragmentText ++ endText m.terminated).toList)
      = scanFrom b 0 cs ++ (m.fragmentTokens ++ ending m.terminated) := by
  rw [QueryModel.fragmentText, QueryModel.fragmentTokens]
  cases hf : m.fragment with
  | none => simpa using scanFrom_ending (fun c hc => (hcs c hc).2) m.terminated b
  | some f =>
      have hne : f.toList ≠ [] := by simpa using m.fragment_ne f hf
      have hchars := m.fragment_chars f hf
      have htext : ("#" ++ f ++ endText m.terminated).toList
          = List.replicate (0 + 1) '#' ++ (f.toList ++ (endText m.terminated).toList) := by
        simp
      have hborders : Borders cs (List.replicate (0 + 1) '#'
          ++ (f.toList ++ (endText m.terminated).toList)) := by
        intro x hx y hy
        obtain rfl : '#' = y := Option.some.inj hy
        exact parted_of_mark (by decide) (fun _ => (hcs x hx).1) (by decide)
          fun q hq hqy => absurd hqy ((by decide : ∀ q ∈ pairs, q.1.2 ≠ '#') q hq)
      have hhead : ∀ d ∈ (f.toList ++ (endText m.terminated).toList).head?, d ≠ '#' := fun d hd => by
        rw [List.head?_append_of_ne_nil _ hne] at hd
        exact hchars.ne (by decide) d (List.mem_of_head? hd)
      rw [Option.elim_some, Option.elim_some, htext, scanFrom_append_of_borders hborders,
        scanFrom_hashes hhead,
        scanFrom_ending fun d hd => hchars.ne (by decide) d (List.mem_of_getLast? hd)]
      rfl

/-- **Parameters** are scanned apart, up to the end of the line. -/
lemma scanFrom_params (ps : List QueryParamModel) (q : QueryMark) {cs : List Char}
    (hcs : ∀ c ∈ cs.getLast?, c ≠ '#' ∧ c ≠ '\r') (b : Bool) :
    scanFrom b 0 (cs ++ (QueryModel.paramsText q ps ++ m.fragmentText ++ endText m.terminated).toList)
      = scanFrom b 0 cs ++ (QueryModel.paramsTokens q ps ++ m.fragmentTokens
        ++ ending m.terminated) := by
  induction ps generalizing q cs b with
  | nil => simpa [QueryModel.paramsText, QueryModel.paramsTokens] using scanFrom_fragment m hcs b
  | cons p ps ih =>
      have hjoint : (q.char, q.kind) ∈ joints := by cases q <;> decide
      have htext : (QueryModel.paramsText q (p :: ps) ++ m.fragmentText
            ++ endText m.terminated).toList
          = q.char :: (p.text.toList ++ (QueryModel.paramsText .ampersand ps ++ m.fragmentText
            ++ endText m.terminated).toList) := by
        simp [QueryModel.paramsText]
      rw [htext, scanFrom_joint hjoint, ih .ampersand (last_queryParam p) false,
        scanFrom_queryParam]
      simp [QueryModel.paramsTokens, QueryMark.token]

lemma kind_of_base {k : Kind} (hk : Foreign urlBaseMarks k) : ∀ t ∈ m.baseTokens, t.kind ≠ k :=
  kind_of_marked m.base_chars hk false

lemma baseTokens_ne_nil : m.baseTokens ≠ [] := by
  simpa [QueryModel.baseTokens, scanFrom_eq_nil] using m.base_ne

/-- The tokens of a request for a URL. -/
lemma scan_query : scan m.source
    = ⟨.word, "GET"⟩ :: blank :: (m.urlTokens ++ ending m.terminated) := by
  have hlast : ∀ c ∈ m.base.toList.getLast?, c ≠ '#' ∧ c ≠ '\r' := fun c hc =>
    ⟨m.base_chars.ne (by decide) c (List.mem_of_getLast? hc),
      m.base_chars.ne (by decide) c (List.mem_of_getLast? hc)⟩
  have hblank : ∀ d ∈ (m.url ++ endText m.terminated).toList.head?, isBlank d = false := by
    intro d hd
    have hne : m.base.toList ≠ [] := by simpa using m.base_ne
    rw [QueryModel.url, String.append_assoc, String.toList_append,
      List.head?_append_of_ne_nil _ hne] at hd
    exact m.base_chars.not_blank (by decide) d (List.mem_of_head? hd)
  have htext : m.source.toList
      = ['G', 'E', 'T'] ++ ' ' :: (m.url ++ endText m.terminated).toList := by
    simp [QueryModel.source]
  have hurl : (m.url ++ endText m.terminated).toList = m.base.toList
      ++ (QueryModel.paramsText .question m.params ++ m.fragmentText
        ++ endText m.terminated).toList := by
    simp [QueryModel.url]
  have hstop : ∀ c ∈ ['G', 'E', 'T'].getLast?, Stops c ' ' := fun c hc => by
    obtain rfl := Option.some.inj hc
    exact ⟨by decide, by decide, by decide⟩
  have hmethod : scanFrom true 0 ['G', 'E', 'T'] = [⟨.word, "GET"⟩] := by decide
  rw [scan, htext, scanFrom_stop hstop (by decide), scanFrom_space _ _ hblank, hurl,
    scanFrom_params m m.params .question hlast, hmethod, QueryModel.urlTokens, QueryModel.baseTokens]
  simp

end Token

/-! ### Pieces -/

namespace Cursor

variable {stop : Nat} {us : List Token} {c : Cursor} (p : QueryParamModel) (q : QueryMark)

/-- A part of a query ends here: where a URL ends, or in front of the next part. -/
def AtPartEnd (stop n : Nat) (us : List Token) : Prop :=
  stop = n ∨ ∀ t ∈ us.head?, t.kind = .ampersand ∨ t.kind = .hash

/-- The search for the end of a name or a value ends at the end of its part. -/
lemma AtPartEnd.head {n : Nat} {set : KindSet} (h : AtPartEnd stop n us)
    (hset : set.contains .ampersand ∧ set.contains .hash) :
    stop = n ∨ ∀ t ∈ us.head?, set.contains t.kind :=
  h.imp_right fun hus t ht => by
    rcases hus t ht with hk | hk
    · rw [hk]
      exact hset.1
    · rw [hk]
      exact hset.2

/-- **Values.** -/
lemma exact_queryValue (v : QueryText) (hc : c.Live)
    (hr : c.rest = Token.joint '=' .equals :: (v.tokens ++ us))
    (hle : c.read + 1 + v.tokens.length ≤ stop)
    (hend : AtPartEnd stop (c.read + 1 + v.tokens.length) us) :
    Exact (Token.joint '=' .equals :: v.tokens)
      [.node .operator [.leaf .equals "="], .node .queryParamValue v.trees] c (c.queryValue stop) := by
  have hlook := exact_look hc
  have hop := exact_operator hlook.live ((look_rest c).trans hr)
  have hrest : c.look.operator.rest = v.tokens ++ us := hop.rest_eq ((look_rest c).trans hr)
  have hread : c.look.operator.read = c.read + 1 := hop.read.trans (by rw [look_read]; rfl)
  rw [← hread] at hle hend
  have hstop : c.look.operator.outsideVariables paramValueEndKinds stop
      = c.look.operator.read + v.tokens.length :=
    outsideVariables_eq hrest (v.skips (by decide)) (by decide) hle (hend.head (by decide))
  have hvalue := exact_part (K := .queryParamValue) v.tokens_ne_nil rfl
    (v.exact_interpolated hop.live.opened hrest rfl)
  rw [queryValue, if_pos (by omega), on_pos (by rw [sees, hr]; rfl)]
  dsimp only
  rw [hstop]
  exact hlook.trans (hop.trans hvalue)

/-- A value, if there is one. -/
lemma exact_optQueryValue (hc : c.Live) (hr : c.rest = p.valueTokens ++ us)
    (hle : c.read + p.valueTokens.length ≤ stop)
    (hend : AtPartEnd stop (c.read + p.valueTokens.length) us) :
    Exact p.valueTokens p.valueTrees c (c.queryValue stop) := by
  rw [QueryParamModel.valueTokens] at hr hle hend ⊢
  rw [QueryParamModel.valueTrees]
  cases hv : p.value with
  | none =>
      rw [hv, Option.elim_none] at hr hend
      rw [queryValue]
      split_ifs with hlt
      · rw [on_neg fun hs => ?_]
        · exact exact_look hc
        obtain ⟨t, ts, ht, hk⟩ := exists_of_sees hs
        rcases hend with rfl | hend
        · exact absurd hlt (by simp)
        · rcases hend t (by rw [← List.nil_append us, ← hr, ht]; rfl) with h | h <;>
            rw [hk] at h <;> cases h
      · exact .refl hc
  | some v =>
      rw [hv, Option.elim_some] at hr hle hend
      rw [List.length_cons, Nat.add_comm _ 1, ← Nat.add_assoc] at hle hend
      exact exact_queryValue v hc hr hle hend

/-- **Parameters.** -/
lemma exact_queryParam (hc : c.Live) (hr : c.rest = p.tokens ++ us)
    (hle : c.read + p.tokens.length ≤ stop) (hend : AtPartEnd stop (c.read + p.tokens.length) us) :
    Exact p.tokens [p.tree] c (c.queryParam stop) := by
  rw [QueryParamModel.tokens, List.length_append] at hle hend
  rw [QueryParamModel.tokens, List.append_assoc] at hr
  have hpos := List.length_pos_of_ne_nil p.name.tokens_ne_nil
  have hnext : stop = c.read + p.name.tokens.length ∨
      ∀ t ∈ (p.valueTokens ++ us).head?, queryNameEndKinds.contains t.kind := by
    rw [QueryParamModel.valueTokens] at hend ⊢
    cases hv : p.value with
    | none =>
        rw [hv] at hend
        exact AtPartEnd.head hend (by decide)
    | some v =>
        refine .inr fun t ht => ?_
        obtain rfl := Option.some.inj ht
        rfl
  have hstop := outsideVariables_eq hr (p.name.skips (by decide)) (by decide)
    (show c.read + p.name.tokens.length ≤ stop by omega) hnext
  have hname := exact_part (c := c.opened) (K := .queryParamName) p.name.tokens_ne_nil rfl
    (p.name.exact_interpolated hc.opened.opened hr rfl)
  have hread := hname.read
  have hvalue : Exact p.valueTokens p.valueTrees _ (queryValue stop _) :=
    exact_optQueryValue p hname.live (hname.rest_eq hr)
      (by rw [hread]; exact (Nat.add_assoc ..).trans_le hle) (by rw [hread, Nat.add_assoc]; exact hend)
  simp only [queryParam, hstop]
  rw [if_neg (by omega)]
  exact (hname.trans hvalue).node

/-- **Parts**: a parameter with the mark in front of it. -/
lemma exact_queryPart (hc : c.Live) (hr : c.rest = q.token :: p.tokens ++ us)
    (hle : c.read + (q.token :: p.tokens).length ≤ stop)
    (hend : AtPartEnd stop (c.read + (q.token :: p.tokens).length) us) :
    Exact (q.token :: p.tokens)
      [.node q.part [.node .operator [.leaf q.kind (String.singleton q.char)], p.tree]] c
      (c.urlPiece stop) := by
  have hlook := exact_look hc
  have hrest : c.look.opened.rest = q.token :: (p.tokens ++ us) := (look_rest c).trans hr
  have hop := exact_operator hlook.live.opened hrest
  have hread : c.look.opened.operator.read = c.read + 1 :=
    hop.read.trans (congrArg (· + 1) (look_read c))
  rw [List.length_cons] at hle hend
  have hparam : Exact p.tokens [p.tree] _ (c.look.opened.operator.queryParam stop) :=
    exact_queryParam p hop.live (hop.rest_eq hrest) (by omega)
      (by rwa [hread, Nat.add_assoc, Nat.add_comm 1])
  have hpiece : c.urlPiece stop = c.look.queryPart q.part stop := by
    simp only [urlPiece]
    cases q with
    | question => rw [if_pos (by rw [sees, look_rest, hr]; rfl)]; rfl
    | ampersand =>
        rw [if_neg (by rw [sees, look_rest, hr]; exact Bool.false_ne_true),
          if_pos (by rw [sees, look_rest, hr]; rfl)]
        rfl
  have hpos : 0 < p.tokens.length := by
    rw [QueryParamModel.tokens, List.length_append]
    exact Nat.add_pos_left (List.length_pos_of_ne_nil p.name.tokens_ne_nil) _
  rw [hpiece, queryPart, node, if_pos (by omega)]
  exact hlook.trans ((hop.trans hparam).node)

variable (m : QueryModel)

/-- **Fragments** go on to the end of a URL. -/
lemma exact_fragmentPart {f : String} (hf : f ∈ m.fragment) (hc : c.Live)
    (hr : c.rest = ⟨.hash, "#"⟩ :: Token.scanFrom false 0 f.toList ++ us)
    (hs : stop = c.read + (Token.scanFrom false 0 f.toList).length + 1) :
    Exact (⟨.hash, "#"⟩ :: Token.scanFrom false 0 f.toList)
      [.node .fragment [.node .operator [.leaf .hash "#"], .leaf .text f]] c (c.urlPiece stop) := by
  have hkind := Token.kind_of_marked (m.fragment_chars f hf) (k := .whitespace) (by decide) false
  have hblank : ∀ t ∈ Token.scanFrom false 0 f.toList, blankKinds.contains t.kind = false :=
    fun t ht => KindSet.contains_eq_false fun k hk => List.mem_singleton.mp hk ▸ hkind t ht
  have hne : Token.scanFrom false 0 f.toList ≠ [] := by
    simpa [Token.scanFrom_eq_nil] using m.fragment_ne f hf
  have htext : Token.textOf (Token.scanFrom false 0 f.toList) = f :=
    Token.textOf_scanFrom_toList false f
  generalize Token.scanFrom false 0 f.toList = ts at *
  have hlook := exact_look hc
  have hr' : c.look.opened.rest = ⟨.hash, "#"⟩ :: (ts ++ us) := (look_rest c).trans hr
  have hop := exact_operator hlook.live.opened hr'
  have hread : c.look.opened.operator.read = c.read + 1 :=
    hop.read.trans (congrArg (· + 1) (look_read c))
  have hrest : c.look.opened.operator.rest = ts ++ us := hop.rest_eq hr'
  have hstop : c.look.opened.operator.before blankKinds stop
      = c.look.opened.operator.read + ts.length :=
    before_eq hrest hblank (by omega) (.inl (by omega))
  have hfragment := exact_textUntil hop.live hrest hne hstop
  rw [htext] at hfragment
  -- a hash is none of the other pieces
  have hpiece : c.urlPiece stop = c.look.fragment stop := by
    simp only [urlPiece]
    rw [if_neg (by rw [sees, look_rest, hr]; exact Bool.false_ne_true),
      if_neg (by rw [sees, look_rest, hr]; exact Bool.false_ne_true),
      if_pos (by rw [sees, look_rest, hr]; rfl)]
  rw [hpiece, fragment, node]
  exact hlook.trans ((hop.trans hfragment).node)

/-! ### Lines -/

lemma newline_of_params (ps : List QueryParamModel) :
    ∀ t ∈ QueryModel.paramsTokens q ps, t.kind ≠ .newline := by
  induction ps generalizing q with
  | nil => simp [QueryModel.paramsTokens]
  | cons p ps ih =>
      have hvalue : ∀ t ∈ p.valueTokens, t.kind ≠ .newline := by
        rw [QueryParamModel.valueTokens]
        cases p.value with
        | none => simp
        | some v => exact List.forall_mem_cons.mpr ⟨by decide, v.newline_of_tokens⟩
      have hmark : q.token.kind ≠ .newline := by cases q <;> decide
      rw [QueryModel.paramsTokens, QueryParamModel.tokens, List.cons_append, List.forall_mem_cons,
        List.forall_mem_append, List.forall_mem_append]
      exact ⟨hmark, ⟨p.name.newline_of_tokens, hvalue⟩, ih .ampersand⟩

lemma newline_of_fragment : ∀ t ∈ m.fragmentTokens, t.kind ≠ .newline := by
  rw [QueryModel.fragmentTokens]
  cases hf : m.fragment with
  | none => simp
  | some f =>
      exact List.forall_mem_cons.mpr
        ⟨by decide, Token.kind_of_marked (m.fragment_chars f hf) (by decide) false⟩

lemma newline_of_query : ∀ t ∈ m.urlTokens, t.kind ≠ .newline := by
  rw [QueryModel.urlTokens, List.forall_mem_append, List.forall_mem_append]
  exact ⟨Token.kind_of_base m (by decide), newline_of_params .question _, newline_of_fragment m⟩

/-- **The fragment**, if there is one, is all that is left of a URL behind its parameters. -/
lemma exact_fragmentLine (hc : c.Live) (hr : c.rest = m.fragmentTokens ++ us)
    (hs : stop = c.read + m.fragmentTokens.length) :
    Exact m.fragmentTokens m.fragmentTrees c (c.urlLine stop) := by
  have hline : stop ≤ c.lineEnd := hs ▸ le_lineEnd hr (newline_of_fragment m)
  rw [QueryModel.fragmentTokens] at hr hs ⊢
  rw [QueryModel.fragmentTrees]
  cases hf : m.fragment with
  | none =>
      rw [hf] at hs
      rw [urlLine_of_le hs.le]
      exact .refl hc
  | some f =>
      rw [hf] at hr hs
      exact exact_urlLine_last hc (List.cons_ne_nil _ _) hs hline (exact_fragmentPart m hf hc hr hs)

/-- Behind a parameter the URL ends, or the next part begins. -/
lemma atPartEnd_params {n : Nat} (ps : List QueryParamModel)
    (hs : stop = n + (QueryModel.paramsTokens .ampersand ps ++ m.fragmentTokens).length) :
    AtPartEnd stop n (QueryModel.paramsTokens .ampersand ps ++ m.fragmentTokens ++ us) := by
  cases ps with
  | cons p ps =>
      refine .inr fun t ht => ?_
      obtain rfl := Option.some.inj ht
      exact .inl rfl
  | nil =>
      rw [QueryModel.paramsTokens, List.nil_append, QueryModel.fragmentTokens] at hs ⊢
      cases hf : m.fragment with
      | none =>
          rw [hf] at hs
          exact .inl hs
      | some f =>
          refine .inr fun t ht => ?_
          obtain rfl := Option.some.inj ht
          exact .inr rfl

/-- **Parameters** up to the end of a URL. -/
lemma exact_queryLine (ps : List QueryParamModel) (hc : c.Live)
    (hr : c.rest = QueryModel.paramsTokens q ps ++ m.fragmentTokens ++ us)
    (hs : stop = c.read + (QueryModel.paramsTokens q ps ++ m.fragmentTokens).length) :
    Exact (QueryModel.paramsTokens q ps ++ m.fragmentTokens)
      (QueryModel.paramsTrees q ps ++ m.fragmentTrees) c (c.urlLine stop) := by
  induction ps generalizing q c with
  | nil => exact exact_fragmentLine m hc hr hs
  | cons p ps ih =>
      have hline : stop ≤ c.lineEnd := hs ▸ le_lineEnd hr
        (List.forall_mem_append.mpr ⟨newline_of_params q _, newline_of_fragment m⟩)
      have htokens : QueryModel.paramsTokens q (p :: ps) ++ m.fragmentTokens = (q.token :: p.tokens)
          ++ (QueryModel.paramsTokens .ampersand ps ++ m.fragmentTokens) := by
        rw [QueryModel.paramsTokens, List.append_assoc]
      rw [htokens] at hs ⊢
      rw [htokens, List.append_assoc] at hr
      rw [List.length_append, ← Nat.add_assoc] at hs
      have hpart := exact_queryPart p q hc hr (by omega) (atPartEnd_params m ps hs)
      have hrest := ih .ampersand hpart.live (hpart.rest_eq hr) (by rw [hpart.read]; exact hs)
      have htrees : QueryModel.paramsTrees q (p :: ps) ++ m.fragmentTrees
          = [.node q.part [.node .operator [.leaf q.kind (String.singleton q.char)], p.tree]]
            ++ (QueryModel.paramsTrees .ampersand ps ++ m.fragmentTrees) := rfl
      rw [htrees]
      exact exact_urlLine_cons hc (by rw [List.length_cons] at hs; omega) hline hpart hrest

/-- A URL with a query does not end with a version. -/
lemma exists_last_params {ps : List QueryParamModel} (hps : ps ≠ []) : ∃ front t, ∃ x : QueryText,
    QueryModel.paramsTokens q ps = front ++ t :: x.tokens ∧ t.kind ≠ .slash := by
  induction ps generalizing q with
  | nil => exact absurd rfl hps
  | cons p ps ih =>
      by_cases hnil : ps = []
      · subst hnil
        rw [QueryModel.paramsTokens, QueryModel.paramsTokens, List.append_nil, QueryParamModel.tokens,
          QueryParamModel.valueTokens]
        cases p.value with
        | none => exact ⟨[], q.token, p.name, by simp, by cases q <;> decide⟩
        | some v => exact ⟨q.token :: p.name.tokens, Token.joint '=' .equals, v, rfl, by decide⟩
      · obtain ⟨front, t, x, heq, ht⟩ := ih .ampersand hnil
        exact ⟨q.token :: p.tokens ++ front, t, x, by rw [QueryModel.paramsTokens, heq]; simp, ht⟩

lemma splitVersion_query : Lookahead.splitVersion m.urlTokens = (m.urlTokens.length, none) := by
  obtain ⟨front, t, x, heq, ht⟩ :
      ∃ front t, ∃ x : QueryText, m.urlTokens = front ++ t :: x.tokens ∧ t.kind ≠ .slash := by
    rw [QueryModel.urlTokens, QueryModel.fragmentTokens]
    cases hf : m.fragment with
    | none =>
        obtain ⟨front, t, x, heq, ht⟩ := exists_last_params .question m.params_ne
        exact ⟨m.baseTokens ++ front, t, x, by rw [heq]; simp, ht⟩
    | some f =>
        have hchars : MarkedText queryMarks f := fun c hc =>
          (m.fragment_chars f hf c hc).imp id fun hmem =>
            (by decide : ∀ c ∈ fragmentMarks, c ∈ queryMarks) c hmem
        exact ⟨_, _, .plain f (m.fragment_ne f hf) hchars, (List.append_assoc ..).symm, by decide⟩
  rw [heq]
  exact x.splitVersion_of_last ht front

lemma exact_urlQuery (hc : c.Live) (hr : c.rest = m.urlTokens ++ us)
    (hs : stop = c.read + m.urlTokens.length) :
    Exact m.urlTokens m.urlTrees c (c.urlLine stop) := by
  have hline : stop ≤ c.lineEnd := hs ▸ le_lineEnd hr (newline_of_query m)
  have hpos := List.length_pos_of_ne_nil (Token.baseTokens_ne_nil m)
  have htext : Token.textOf m.baseTokens = m.base :=
    Token.textOf_scanFrom_toList false m.base
  have hbreak : ∀ t ∈ m.baseTokens, urlBreakKinds.contains t.kind = false := fun t ht =>
    KindSet.contains_eq_false fun k hk => Token.kind_of_base m
      ((by decide : ∀ k ∈ urlBreakKinds.members, Token.Foreign urlBaseMarks k) k hk) t ht
  rw [QueryModel.urlTokens, List.append_assoc] at hr
  rw [QueryModel.urlTokens, List.length_append] at hs
  have hquery : ∀ t ∈ (QueryModel.paramsTokens .question m.params ++ m.fragmentTokens ++ us).head?,
      urlBreakKinds.contains t.kind := by
    obtain ⟨p, ps, hps⟩ := List.exists_cons_of_ne_nil m.params_ne
    intro t ht
    rw [hps] at ht
    obtain rfl := Option.some.inj ht
    rfl
  have hle : c.read + m.baseTokens.length ≤ stop := by omega
  have hbase := exact_urlText hc hr (Token.baseTokens_ne_nil m) hbreak hle (.inr hquery)
  have hlength : stop = (c.urlPiece stop).read
      + (QueryModel.paramsTokens .question m.params ++ m.fragmentTokens).length := by
    rw [hbase.read]
    omega
  have hparams := exact_queryLine .question m m.params hbase.live (hbase.rest_eq hr) hlength
  rw [htext] at hbase
  exact exact_urlLine_cons hc (by omega) hline hbase hparams

/-- **URLs with a query** are read as their trees. -/
lemma readsUrl_query : ReadsUrl m.urlTokens m.urlTrees where
  first := by
    obtain ⟨t, ts, hts⟩ := List.exists_cons_of_ne_nil (Token.baseTokens_ne_nil m)
    have hmem : t ∈ m.baseTokens := by simp [hts]
    exact ⟨t, _, by rw [QueryModel.urlTokens, hts]; rfl, Token.kind_of_base m (by decide) t hmem,
      Token.kind_of_base m (by decide) t hmem⟩
  newline := newline_of_query m
  version := splitVersion_query m
  exact := fun hc hr => exact_urlQuery m hc hr rfl

end Cursor

/-! ### Documents -/

namespace QueryModel

variable (m : QueryModel)

/-- The trees of the request. -/
def requestTrees : List Tree :=
  Cursor.urlRequestTrees "GET" m.urlTrees m.terminated

/-- **Requests** for a URL with a query. -/
lemma exact_queryRequest {c : Cursor} (hc : c.Live) (hr : c.rest = Token.scan m.source) :
    Cursor.Exact (Token.scan m.source) [.node .request m.requestTrees] c c.request := by
  have hline : Token.scan m.source
      = Cursor.urlRequestTokens "GET" m.urlTokens m.terminated ++ ([] ++ []) := by
    rw [Token.scan_query, List.append_nil, List.append_nil]
    rfl
  obtain ⟨_, _, rfl, rfl, hrequest⟩ := Cursor.exact_requestOf
    (P := (· = Cursor.urlRequestTrees "GET" m.urlTrees m.terminated)) (Q := (· = [])) hc
    (hr.trans hline)
    (fun d hd hrest => by
      have hexact := Cursor.exact_urlRequestLine (by decide) (Cursor.readsUrl_query m) hd hrest
        (fun _ => rfl) (by simp)
      exact ⟨_, rfl, hexact, Cursor.aligned_urlRequestLine hexact hrest fun _ => rfl⟩)
    fun d hd ha hrest => ⟨_, rfl, Cursor.exact_messageWithoutBody [] hd ha hrest (Or.inl rfl)⟩
  rw [hline]
  simpa [requestTrees] using hrequest

/-! ### Contents -/

/-- The parameter at its tree. -/
lemma ofTree_param (p : QueryParamModel) :
    Param.ofTree .queryParamName .queryParamValue p.tree = p.param := by
  have htext : ∀ (K : Kind) (x : QueryText), (Tree.node K x.trees).text = x.text := fun K x =>
    (Tree.text_node K _).trans x.textOf_trees
  rw [QueryParamModel.tree, QueryParamModel.valueTrees, QueryParamModel.param]
  cases p.value <;> simp [Param.ofTree, Tree.child?, Tree.children, Tree.isNode, Tree.kind, htext]

/-- No parameter stands in another. -/
lemma nodesOf_tree (p : QueryParamModel) : p.tree.nodesOf .queryParam = [p.tree] := by
  have htext : ∀ x : QueryText, Tree.nodesOfAll .queryParam x.trees = [] := fun x => by
    cases x <;> rfl
  have hvalue : Tree.nodesOfAll .queryParam p.valueTrees = [] := by
    rw [QueryParamModel.valueTrees]
    cases p.value with
    | none => rfl
    | some v => simp [Tree.nodesOfAll, Tree.nodesOf, htext]
  simp [QueryParamModel.tree, Tree.nodesOf, Tree.nodesOfAll, htext, hvalue]

/-- The nodes of the parameters of a URL. -/
lemma nodesOf_params (q : QueryMark) (ps : List QueryParamModel) :
    Tree.nodesOfAll .queryParam (paramsTrees q ps) = ps.map QueryParamModel.tree := by
  induction ps generalizing q with
  | nil => rfl
  | cons p ps ih =>
      have hpart : (Tree.node q.part [.node .operator [.leaf q.kind (String.singleton q.char)],
          p.tree]).nodesOf .queryParam = [p.tree] := by
        cases q <;> simp [QueryMark.part, Tree.nodesOf, Tree.nodesOfAll, nodesOf_tree]
      rw [paramsTrees, Tree.nodesOfAll, hpart, ih]
      rfl

/-- The tree of the URL. -/
def urlTree : Tree :=
  .node .targetUrl m.urlTrees

lemma nodesOf_urlTree : m.urlTree.nodesOf .queryParam = m.params.map QueryParamModel.tree := by
  have hfragment : Tree.nodesOfAll .queryParam m.fragmentTrees = [] := by
    rw [fragmentTrees]
    cases m.fragment <;> rfl
  have hall : Tree.nodesOfAll .queryParam m.urlTrees = m.params.map QueryParamModel.tree := by
    rw [urlTrees, Tree.nodesOfAll, Tree.nodesOfAll_append, nodesOf_params, hfragment]
    simp [Tree.nodesOf]
  exact hall

lemma child?_urlTree : (m.urlTree.child? .fragment).map Tree.text = m.fragment.map ("#" ++ ·) := by
  have hparams : ∀ q ps, (paramsTrees q ps).find? (fun t => t.isNode && t.kind == .fragment)
      = none := by
    intro q ps
    induction ps generalizing q with
    | nil => rfl
    | cons p ps ih =>
        rw [paramsTrees, List.find?_cons_of_neg (by cases q <;> exact Bool.false_ne_true)]
        exact ih .ampersand
  rw [Tree.child?, urlTree, Tree.children, urlTrees, List.find?_cons_of_neg Bool.false_ne_true,
    List.find?_append, hparams, fragmentTrees]
  cases m.fragment with
  | none => rfl
  | some f =>
      have htext : (Tree.node .fragment [.node .operator [.leaf .hash "#"], .leaf .text f]).text
          = "#" ++ f := by
        rw [Tree.text_node, Tree.textOf_cons, text_node_leaf, Tree.textOf_leaf]
      exact congrArg some htext

/-- **Parsing undoes printing** for queries. Whatever the references in names and values hold inside
their brackets, a request for such a URL is parsed without diagnostics, with these parameters in their
order and with this fragment. -/
theorem parse_query : ∃ d r u,
    Document.parse Document.defaultLimits m.source = .ok d ∧ d.diagnostics = [] ∧
      d.requests = [r] ∧ r.url = some u ∧ u.params = m.params.map QueryParamModel.param ∧
      u.fragment = m.fragment.map ("#" ++ ·) := by
  obtain ⟨d, hd, hdiagnostics, _, hrequests⟩ := Document.exists_of_request (by decide)
    (Token.scan_query m) fun d hd hrest => m.exact_queryRequest hd hrest
  refine ⟨d, _, Url.ofTree ⟨_, m.urlTree⟩, hd, hdiagnostics, hrequests, rfl, ?_, ?_⟩
  · rw [Url.ofTree, m.nodesOf_urlTree, List.map_map]
    exact List.map_congr_left fun p _ => ofTree_param p
  · exact m.child?_urlTree

/-- Marks and blanks inside of references, names without values, and a fragment. -/
def bracketed : QueryModel where
  base := "//h"
  params := [
    ⟨.plain "q" (by decide) (by decide),
      some (.reference "f(b&c=d#e?)" (by decide) (by decide))⟩,
    ⟨.reference "$n[ 1 ].x" (by decide) (by decide), none⟩,
    ⟨.plain "-x" (by decide) (by decide), some (.plain "%41" (by decide) (by decide))⟩]
  fragment := some "t.2"
  terminated := true
  base_ne := by decide
  base_chars := by decide
  params_ne := by decide
  fragment_ne := by decide
  fragment_chars := by decide

/-- What stands inside of brackets parts no parameters. -/
theorem parse_query_bracketed : ∃ d r u,
    Document.parse Document.defaultLimits
        "GET //h?q=\x7b\x7bf(b&c=d#e?)\x7d\x7d&\x7b\x7b$n[ 1 ].x\x7d\x7d&-x=%41#t.2\n" = .ok d ∧
      d.diagnostics = [] ∧ d.requests = [r] ∧ r.url = some u ∧
      u.params = [⟨some "q", some "\x7b\x7bf(b&c=d#e?)\x7d\x7d"⟩,
        ⟨some "\x7b\x7b$n[ 1 ].x\x7d\x7d", none⟩, ⟨some "-x", some "%41"⟩] ∧
      u.fragment = some "#t.2" := by
  have hsource : bracketed.source
      = "GET //h?q=\x7b\x7bf(b&c=d#e?)\x7d\x7d&\x7b\x7b$n[ 1 ].x\x7d\x7d&-x=%41#t.2\n" := by
    decide +kernel
  rw [← hsource]
  exact bracketed.parse_query

end QueryModel

end RequestFile
