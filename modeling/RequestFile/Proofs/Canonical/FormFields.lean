import RequestFile.Proofs.Canonical.Marked
import RequestFile.Proofs.Canonical.Url
import RequestFile.Proofs.Sites

/-!
Parsing form bodies back.

A `FormModel` is a list of parameters that is not empty. Between two of them stands an ampersand,
behind which the line may end. The document of a request with such a body has no diagnostics, and its
one body is a form with these parameters (`FormModel.parse_form`).

* **Tokens.** A parameter is scanned apart from the joints around it
  (`Token.scanFrom_fields`), and none of its tokens ends its name or its value early.
* **Turns.** Each parameter with the joint behind it is one turn of the loop
  (`Cursor.exact_formTurn`), and the body is read by induction on the parameters
  (`Cursor.exact_fields`).
-/

namespace RequestFile

/-! ### Forms -/

/-- The characters of names of parameters besides letters and digits. -/
def fieldNameMarks : List Char :=
  ['_', '.', '-']

/-- The characters of values of parameters besides letters and digits. -/
def fieldValueMarks : List Char :=
  ['_', '.', '%', '+', '*', '/', ':', '?', '=', '-']

/-- A parameter of a form. The value may be missing. -/
structure FieldModel where
  name : String
  value : Option String
  name_ne : name ≠ ""
  name_chars : MarkedText fieldNameMarks name
  name_first : name.toList.head? ≠ some '-'
  value_ne : ∀ v ∈ value, v ≠ ""
  value_chars : ∀ v ∈ value, MarkedText fieldValueMarks v

/-- A form: its first parameter, which has a value, and those after it, each with whether it stands on
a new line. The last line may lack its terminator. -/
structure FormModel where
  first : FieldModel
  others : List (Bool × FieldModel)
  first_value : first.value.isSome
  terminated : Bool

namespace FieldModel

variable (f : FieldModel)

/-- The name and the value, joined by an equals sign. -/
def text : String :=
  f.name ++ f.value.elim "" ("=" ++ ·)

/-- The parameter that is read. -/
def param : Param :=
  ⟨some f.name, f.value⟩

/-- The tree of the parameter. -/
def tree : Tree :=
  .node .formParam (.node .formParamName [.leaf .text f.name] ::
    f.value.elim [] fun v => [.node .operator [.leaf .equals "="],
      .node .formParamValue [.leaf .text v]])

/-- The tokens of the name. -/
def nameTokens : List Token :=
  Token.scanFrom false 0 f.name.toList

/-- The tokens of the value with the equals sign in front of it. -/
def valueTokens : List Token :=
  f.value.elim [] fun v => Token.joint '=' .equals :: Token.scanFrom false 0 v.toList

/-- The tokens of the parameter. -/
def tokens : List Token :=
  f.nameTokens ++ f.valueTokens

end FieldModel

namespace FormModel

/-- The text of parameters after the first. -/
def laterText : List (Bool × FieldModel) → String
  | [] => ""
  | (broken, f) :: fs => (if broken then "&\n" else "&") ++ f.text ++ laterText fs

/-- The tokens of parameters after the first. -/
def laterTokens : List (Bool × FieldModel) → List Token
  | [] => []
  | (broken, f) :: fs =>
    Token.joint '&' .ampersand :: Token.ending broken ++ f.tokens ++ laterTokens fs

/-- The trees of parameters after the first. -/
def laterTrees : List (Bool × FieldModel) → List Tree
  | [] => []
  | (broken, f) :: fs =>
    .node .operator [.leaf .ampersand "&"] :: Cursor.endTrees broken ++ f.tree :: laterTrees fs

variable (m : FormModel)

/-- A request with the form. -/
def source : String :=
  "POST /f\n\n" ++ (m.first.text ++ laterText m.others ++ endText m.terminated)

/-- The parameters that are read. -/
def params : List Param :=
  m.first.param :: m.others.map fun f => f.2.param

/-- The tokens of the body. -/
def bodyTokens : List Token :=
  m.first.tokens ++ laterTokens m.others ++ Token.ending m.terminated

/-- The tree of the body. -/
def bodyTree : Tree :=
  .node .formUrlencodedBody (m.first.tree :: laterTrees m.others ++ Cursor.endTrees m.terminated)

end FormModel

/-! ### Tokens -/

namespace Token

variable (f : FieldModel)

lemma scanFrom_field (b : Bool) : scanFrom b 0 f.text.toList = f.tokens := by
  have hhyphen : ∀ d ∈ f.name.toList.head?, d ≠ '-' := by
    rintro d hd rfl
    exact f.name_first hd
  have hname : scanFrom b 0 f.name.toList = f.nameTokens := scanFrom_lineStart hhyphen b false
  rw [FieldModel.text, FieldModel.tokens, FieldModel.valueTokens, String.toList_append]
  cases f.value with
  | none => simp [hname]
  | some v =>
      have hvalue : ("=" ++ v).toList = '=' :: v.toList := by simp
      rw [Option.elim_some, Option.elim_some, hvalue, scanFrom_joint (k := .equals) (by decide), hname]

/-- A parameter stands on one line. -/
lemma oneLine_field : OneLine f.text := by
  refine .append (.of_chars f.name_chars (by decide) (by decide)) ?_
  cases hv : f.value with
  | none => simp [OneLine]
  | some v =>
      exact .append (by simp [OneLine]) (.of_chars (f.value_chars v hv) (by decide) (by decide))

/-- **Parameters** are scanned apart, whether a line begins with the first of them or not. -/
lemma scanFrom_fields (fs : List (Bool × FieldModel)) (terminated b : Bool) :
    scanFrom b 0 (f.text ++ FormModel.laterText fs ++ endText terminated).toList
      = f.tokens ++ FormModel.laterTokens fs ++ ending terminated := by
  induction fs generalizing f b with
  | nil =>
      rw [FormModel.laterText, FormModel.laterTokens, String.append_empty, List.append_nil,
        String.toList_append,
        scanFrom_ending fun c hc => (oneLine_field f c (List.mem_of_getLast? hc)).2, scanFrom_field]
  | cons g fs ih =>
      obtain ⟨broken, g⟩ := g
      have htext : (f.text ++ FormModel.laterText ((broken, g) :: fs)
            ++ endText terminated).toList
          = f.text.toList ++ '&' :: ((if broken then ['\n'] else [])
            ++ (g.text ++ FormModel.laterText fs ++ endText terminated).toList) := by
        cases broken <;> simp [FormModel.laterText]
      have hbreak : scanFrom false 0 ((if broken then ['\n'] else [])
            ++ (g.text ++ FormModel.laterText fs ++ endText terminated).toList)
          = ending broken ++ (g.tokens ++ FormModel.laterTokens fs ++ ending terminated) := by
        cases broken with
        | true => exact (scanFrom_lineFeed false _).trans (congrArg (lineFeed :: ·) (ih g true))
        | false => exact ih g false
      rw [htext, scanFrom_joint (k := .ampersand) (by decide), scanFrom_field, hbreak,
        FormModel.laterTokens]
      simp

/-- The tokens of a request with a form. -/
lemma scan_form (m : FormModel) : scan m.source
    = ⟨.word, "POST"⟩ :: blank :: ([⟨.slash, "/"⟩, ⟨.word, "f"⟩]
      ++ lineFeed :: lineFeed :: m.bodyTokens) := by
  rw [FormModel.source, scan_append_of_endsLine (by decide) (by simp), FormModel.bodyTokens,
    ← scanFrom_fields m.first m.others m.terminated true]
  have hline : scan "POST /f\n\n" = [⟨.word, "POST"⟩, blank, ⟨.slash, "/"⟩, ⟨.word, "f"⟩, lineFeed,
      lineFeed] := by
    decide +kernel
  rw [hline]
  rfl

variable {f}

/-- No token of a name begins or ends a name, or something else. -/
lemma kind_of_fieldName {k : Kind}
    (hk : k ∈ Kind.varOpen :: .whitespace :: Lookahead.formSearchEnd.members) :
    ∀ t ∈ f.nameTokens, t.kind ≠ k := by
  have hforeign : ∀ k ∈ Kind.varOpen :: .whitespace :: Lookahead.formSearchEnd.members,
      Foreign fieldNameMarks k := by
    decide
  exact kind_of_marked f.name_chars (hforeign k hk) false

lemma kind_of_fieldValue {v : String} (hv : v ∈ f.value) {k : Kind}
    (hk : k ∈ Kind.varOpen :: .whitespace :: Cursor.paramValueEndKinds.members) :
    ∀ t ∈ scanFrom false 0 v.toList, t.kind ≠ k := by
  have hforeign : ∀ k ∈ Kind.varOpen :: .whitespace :: Cursor.paramValueEndKinds.members,
      Foreign fieldValueMarks k := by
    decide
  exact kind_of_marked (f.value_chars v hv) (hforeign k hk) false

lemma fieldName_ne_nil : f.nameTokens ≠ [] := by
  simpa [FieldModel.nameTokens, scanFrom_eq_nil] using f.name_ne

/-- A name begins with a word. -/
lemma head_fieldName : ∃ t ts, f.nameTokens = t :: ts ∧ t.kind = .word := by
  obtain ⟨c, cs, hc⟩ := List.exists_cons_of_ne_nil (by simpa using f.name_ne : f.name.toList ≠ [])
  have hword : isWordChar c := by
    rcases f.name_chars c (by rw [hc]; exact List.mem_cons_self) with halnum | hmark
    · exact isWordChar_of_isAlphanum halnum
    · have hne : c ≠ '-' := by
        rintro rfl
        exact f.name_first (by rw [hc]; rfl)
      have hall : ∀ x ∈ fieldNameMarks, x = '-' ∨ isWordChar x := by decide
      exact (hall c hmark).resolve_left hne
  refine ⟨_, _, by rw [FieldModel.nameTokens, hc, scanFrom_cons], ?_⟩
  rw [RunKind.word.lead_eq hword]

lemma textOf_fieldName : textOf f.nameTokens = f.name :=
  textOf_scanFrom_toList false f.name

/-- No token of a parameter ends a line. -/
lemma newline_of_field : ∀ t ∈ f.tokens, t.kind ≠ .newline := by
  rw [FieldModel.tokens, List.forall_mem_append, FieldModel.valueTokens]
  refine ⟨kind_of_fieldName (by decide), ?_⟩
  cases hv : f.value with
  | none => simp
  | some v => exact List.forall_mem_cons.mpr ⟨by decide, kind_of_fieldValue hv (by decide)⟩

end Token

/-! ### Parameters -/

namespace Cursor

variable {us : List Token} {c : Cursor} {f : FieldModel}

/-- What may follow a parameter. -/
def AtFieldEnd (us : List Token) : Prop :=
  ∀ t ∈ us.head?, t.kind = .ampersand ∨ t.kind = .newline

lemma AtFieldEnd.startsWith (h : AtFieldEnd us) {k : Kind} (hk : k ≠ .ampersand ∧ k ≠ .newline) :
    Lookahead.startsWith k us = false := by
  cases us with
  | nil => rfl
  | cons t us =>
      have ht : t.kind ≠ k := by
        rintro rfl
        exact (h t rfl).elim hk.1 hk.2
      simpa using ht

/-- Behind a name stands its equals sign just if there is a value. -/
lemma startsWith_valueTokens (hus : AtFieldEnd us) :
    Lookahead.startsWith .equals (f.valueTokens ++ us) = f.value.isSome := by
  rw [FieldModel.valueTokens]
  cases f.value with
  | some v => rfl
  | none => exact hus.startsWith (by decide)

/-- Behind a name stands its equals sign, an ampersand or the end of the line. -/
lemma head_valueTokens (hus : AtFieldEnd us) : ∀ t ∈ (f.valueTokens ++ us).head?,
    t.kind = .equals ∨ t.kind = .ampersand ∨ t.kind = .newline := by
  rw [FieldModel.valueTokens]
  cases f.value with
  | some v =>
      intro t ht
      obtain rfl := Option.some.inj ht
      exact .inl rfl
  | none => exact fun t ht => .inr (hus t ht)

/-- **Values.** -/
lemma exact_formValue {v : String} {line : Nat} (hv : v ∈ f.value) (hc : c.Live)
    (hr : c.rest = Token.joint '=' .equals :: (Token.scanFrom false 0 v.toList ++ us))
    (hus : AtFieldEnd us) (hline : c.read + 1 + (Token.scanFrom false 0 v.toList).length ≤ line) :
    Exact (Token.joint '=' .equals :: Token.scanFrom false 0 v.toList)
      [.node .operator [.leaf .equals "="], .node .formParamValue [.leaf .text v]] c
      (c.formValue line) := by
  have hkinds := fun k hk => Token.kind_of_fieldValue hv (k := k) hk
  have htext : Token.textOf (Token.scanFrom false 0 v.toList) = v :=
    Token.textOf_scanFrom_toList false v
  have hne : Token.scanFrom false 0 v.toList ≠ [] := by
    simpa [Token.scanFrom_eq_nil] using f.value_ne v hv
  generalize Token.scanFrom false 0 v.toList = ts at *
  have hop := exact_operator hc hr
  have hrest : c.operator.rest = ts ++ us := hop.rest_eq hr
  have hread : c.operator.read = c.read + 1 := hop.read
  have hblank := hop.quiet (exact_eatBlank_skip hop.live
    (not_sees_of_kinds hrest hne (hkinds _ (by decide))))
  have hrest' : c.operator.eatBlank.rest = ts ++ us := hblank.rest_eq hr
  have hread' : c.operator.eatBlank.read = c.read + 1 := hblank.read
  have hskips : Lookahead.Skips paramValueEndKinds ts := Lookahead.skips_of_kinds fun k hk =>
    hkinds k ((List.cons_subset_cons _ (List.subset_cons_self _ _)) hk)
  have hstop : c.operator.eatBlank.outsideVariables paramValueEndKinds line
      = c.operator.eatBlank.read + ts.length :=
    outsideVariables_eq hrest' hskips (by decide) (by omega) (.inr fun t ht => by
      rcases hus t ht with h | h <;> rw [h] <;> rfl)
  have hvalue := exact_part_text (K := .formParamValue) hblank.live hrest' hne (hkinds _ (by decide))
    (hkinds _ (by decide)) rfl
  rw [htext] at hvalue
  simp only [formValue, hstop]
  rw [trimmedEnd_eq hrest' fun t ht => hkinds .whitespace (by decide) t (List.mem_of_getLast? ht)]
  exact hblank.trans hvalue

/-- A value, if there is one. -/
lemma exact_optFormValue {line : Nat} (hc : c.Live) (hr : c.rest = f.valueTokens ++ us)
    (hus : AtFieldEnd us) (hline : c.read + f.valueTokens.length ≤ line) :
    Exact f.valueTokens (f.value.elim [] fun v => [.node .operator [.leaf .equals "="],
      .node .formParamValue [.leaf .text v]]) c (if f.value.isSome then c.formValue line else c) := by
  rw [FieldModel.valueTokens] at hr hline ⊢
  cases hv : f.value with
  | none => exact .refl hc
  | some v =>
      rw [hv, Option.elim_some] at hr hline
      rw [List.length_cons] at hline
      exact exact_formValue hv hc hr hus (by omega)

/-- A name ends at its last token. -/
lemma outsideVariables_field (hr : c.rest = f.tokens ++ us) (hus : AtFieldEnd us) :
    c.outsideVariables formNameEndKinds c.lineEnd = c.read + f.nameTokens.length := by
  have hline := le_lineEnd hr Token.newline_of_field
  rw [FieldModel.tokens, List.length_append] at hline
  rw [FieldModel.tokens, List.append_assoc] at hr
  have hkinds : ∀ k ∈ Kind.varOpen :: formNameEndKinds.members, ∀ t ∈ f.nameTokens, t.kind ≠ k := by
    intro k hk
    refine Token.kind_of_fieldName ?_
    revert k
    decide
  refine outsideVariables_eq hr (Lookahead.skips_of_kinds hkinds) (by decide) (by omega)
    (.inr fun t ht => ?_)
  rcases head_valueTokens hus t ht with h | h | h <;> rw [h] <;> rfl

/-- **Names**, behind which no blank stands. -/
lemma exact_fieldName (hc : c.Live) (hr : c.rest = f.nameTokens ++ (f.valueTokens ++ us))
    (hus : AtFieldEnd us) :
    Exact f.nameTokens [.node .formParamName [.leaf .text f.name]] c
      (c.part .formParamName (c.read + f.nameTokens.length)).eatBlank := by
  have hname := exact_part_text (K := .formParamName) hc hr Token.fieldName_ne_nil
    (Token.kind_of_fieldName (by decide)) (Token.kind_of_fieldName (by decide)) rfl
  rw [Token.textOf_fieldName] at hname
  refine hname.quiet (exact_eatBlank_skip hname.live fun hs => ?_)
  obtain ⟨t, ts, ht, hk⟩ := exists_of_sees hs
  rw [hname.rest_eq hr] at ht
  rcases head_valueTokens hus t (by rw [ht]; rfl) with h | h | h <;> rw [hk] at h <;> cases h

/-- **Parameters.** -/
lemma exact_field (hc : c.Live) (hr : c.rest = f.tokens ++ us) (hus : AtFieldEnd us) :
    Exact f.tokens [f.tree] c c.formParam := by
  have hline := le_lineEnd hr Token.newline_of_field
  have hstop := outsideVariables_field hr hus
  rw [FieldModel.tokens, List.length_append] at hline
  rw [FieldModel.tokens, List.append_assoc] at hr
  have htrim := trimmedEnd_eq hr fun t ht =>
    Token.kind_of_fieldName (k := .whitespace) (by decide) t (List.mem_of_getLast? ht)
  have hequals : Lookahead.startsWith .equals (c.rest.drop (c.read + f.nameTokens.length - c.read))
      = f.value.isSome := by
    rw [Nat.add_sub_cancel_left, hr, List.drop_left, startsWith_valueTokens hus]
  have hname := exact_fieldName hc.opened hr hus
  have hread : (c.opened.part .formParamName (c.opened.read + f.nameTokens.length)).eatBlank.read
      = c.read + f.nameTokens.length := hname.read
  have hle : (c.opened.part .formParamName (c.opened.read + f.nameTokens.length)).eatBlank.read
      + f.valueTokens.length ≤ c.lineEnd := by
    omega
  have hvalue := exact_optFormValue hname.live (hname.rest_eq hr) hus hle
  simp only [formParam, hstop, htrim, hequals]
  rw [if_neg (by simp [Token.fieldName_ne_nil]), FieldModel.tokens]
  exact (hname.trans hvalue).node

/-! ### Turns -/

/-- A parameter begins with a word. -/
lemma head_field (us : List Token) : ∃ t ts, f.tokens ++ us = t :: ts ∧ t.kind = .word := by
  obtain ⟨t, ts, ht, hk⟩ := Token.head_fieldName (f := f)
  exact ⟨t, ts ++ f.valueTokens ++ us, by rw [FieldModel.tokens, ht]; rfl, hk⟩

/-- **The joint behind a parameter**, with the end of the line if there is one. -/
lemma exact_formJoint {broken : Bool} (hc : c.Live)
    (hr : c.rest = Token.joint '&' .ampersand :: (Token.ending broken ++ us))
    (hus : ∃ t ts, us = t :: ts ∧ t.kind = .word) :
    Exact (Token.joint '&' .ampersand :: Token.ending broken)
      (.node .operator [.leaf .ampersand "&"] :: endTrees broken) c
      (c.operator.on .newline (fun c => if formContinues (c.rest.drop 1) then c.bump else c) id) := by
  obtain ⟨t, ts, rfl, hk⟩ := hus
  have hop := exact_operator hc hr
  have hrest : c.operator.rest = Token.ending broken ++ t :: ts := hop.rest_eq hr
  have hlook := exact_look hop.live
  have hrest' := (look_rest _).trans hrest
  refine hop.trans ?_
  cases broken with
  | false =>
      rw [on_neg (by simp [sees, hrest, Token.ending, hk])]
      exact hlook
  | true =>
      have hgo : formContinues (c.operator.look.rest.drop 1) = true := by
        rw [hrest']
        simp [formContinues, Token.ending, Lookahead.isBlankLine_cons, Lookahead.isBodyStop, hk]
      rw [on_pos (by simp [sees, hrest, Token.ending, Token.lineFeed]), if_pos hgo]
      exact hlook.trans (exact_bump hlook.live hrest')

/-- **A parameter and the joint behind it.** -/
lemma exact_formTurn {broken : Bool} (hc : c.Live)
    (hr : c.rest = f.tokens ++ Token.joint '&' .ampersand :: (Token.ending broken ++ us))
    (hus : ∃ t ts, us = t :: ts ∧ t.kind = .word) :
    ∃ d, formTurn c = .again d ∧
      Exact (f.tokens ++ Token.joint '&' .ampersand :: Token.ending broken)
        (f.tree :: .node .operator [.leaf .ampersand "&"] :: endTrees broken) c d := by
  have hfield := exact_field hc hr fun t ht => .inl (Option.some.inj ht ▸ rfl)
  have hlooked := hfield.quiet (exact_look hfield.live)
  have hrest := hlooked.rest_eq hr
  have hjoint := exact_formJoint hlooked.live hrest hus
  refine ⟨_, ?_, hlooked.trans hjoint⟩
  rw [formTurn, if_pos (by rw [sees, hrest]; rfl)]

/-- **The last parameter.** -/
lemma exact_lastFormTurn (hc : c.Live) (hr : c.rest = f.tokens ++ us)
    (hus : ∀ t ∈ us.head?, t.kind = .newline) :
    ∃ d, formTurn c = .done d ∧ Exact f.tokens [f.tree] c d := by
  have hfield := exact_field hc hr fun t ht => .inr (hus t ht)
  have hlooked := hfield.quiet (exact_look hfield.live)
  have hnone : ¬c.formParam.look.sees .ampersand := by
    intro hs
    obtain ⟨t, ts, ht, hk⟩ := exists_of_sees hs
    rw [hlooked.rest_eq hr] at ht
    have hnl := hus t (by rw [ht]; rfl)
    rw [hk] at hnl
    cases hnl
  refine ⟨_, ?_, hlooked⟩
  rw [formTurn, if_neg hnone]

/-- **Parameters**, by induction on those after the first: each of them is one turn of the loop. -/
lemma exact_fields (fs : List (Bool × FieldModel)) (hc : c.Live)
    (hr : c.rest = f.tokens ++ (FormModel.laterTokens fs ++ us))
    (hus : ∀ t ∈ us.head?, t.kind = .newline) :
    Exact (f.tokens ++ FormModel.laterTokens fs) (f.tree :: FormModel.laterTrees fs) c
      (c.loop formTurn) := by
  induction fs generalizing f c with
  | nil =>
      obtain ⟨d, hturn, hlast⟩ := exact_lastFormTurn hc hr hus
      rw [loop_of_done hturn, FormModel.laterTokens, FormModel.laterTrees, List.append_nil]
      exact hlast
  | cons g fs ih =>
      obtain ⟨broken, g⟩ := g
      have hr' : c.rest = f.tokens ++ Token.joint '&' .ampersand :: (Token.ending broken
          ++ (g.tokens ++ (FormModel.laterTokens fs ++ us))) := by
        rw [hr, FormModel.laterTokens]
        simp
      obtain ⟨d, hturn, hexact⟩ := exact_formTurn hc hr' (head_field _)
      have hrest : d.rest = g.tokens ++ (FormModel.laterTokens fs ++ us) := by
        rw [← List.cons_append, ← List.append_assoc] at hr'
        exact hexact.rest_eq hr'
      have hmidway : c.Midway := by
        obtain ⟨t, ts, ht, _⟩ := head_field (f := f) (FormModel.laterTokens ((broken, g) :: fs) ++ us)
        exact .inl (by rw [hr, ht]; exact List.cons_ne_nil t ts)
      rw [loop_eq (fun _ hd hm => run_formTurn (e := true) hd hm) hc hmidway hturn]
      have hwhole := hexact.trans (ih hexact.live hrest)
      rw [FormModel.laterTokens, FormModel.laterTrees]
      simpa using hwhole

/-! ### Bodies -/

variable (m : FormModel)

/-- **Forms** are read up to the end of the source. -/
lemma exact_formBody (hc : c.Live) (hr : c.rest = m.bodyTokens) :
    Exact m.bodyTokens [m.bodyTree] c c.formBody := by
  rw [FormModel.bodyTokens] at hr ⊢
  have hr' : c.opened.rest = m.first.tokens ++ (FormModel.laterTokens m.others
      ++ Token.ending m.terminated) := by
    rw [← List.append_assoc]
    exact hr
  have hfields := exact_fields m.others hc.opened hr' fun t ht => by
    cases hterminated : m.terminated <;> rw [hterminated] at ht <;> cases ht
    rfl
  have hrest := hfields.rest_eq (c := c.opened) hr
  rw [← List.append_nil (Token.ending m.terminated)] at hrest
  have hend := exact_ending hfields.live hrest (fun _ => rfl) "unexpected text in form body"
  exact (hfields.trans hend).node

/-- A name with an equals sign behind it begins a form. -/
lemma ofTokens_field {x : Token} (hx : x.kind = .equals) (us : List Token) :
    ∃ t ts, f.nameTokens ++ x :: us = t :: ts ∧ t.kind ≠ .separatorMarker ∧
      BodyLine.ofTokens (t :: ts) = .form := by
  have hkinds := fun k hk => Token.kind_of_fieldName (f := f) (k := k) hk
  have hskips : Lookahead.Skips Lookahead.formSearchEnd f.nameTokens :=
    Lookahead.skips_of_kinds fun k hk =>
      hkinds k ((List.cons_subset_cons _ (List.subset_cons_self _ _)) hk)
  -- no token of the name ends the search for a form, so it ends at the equals sign
  have hform : Lookahead.isForm (f.nameTokens ++ x :: us) := by
    have hline : Lookahead.line (f.nameTokens ++ x :: us)
        = f.nameTokens ++ x :: Lookahead.line us := by
      rw [Lookahead.line, List.takeWhile_append_of_pos (by simpa using hkinds .newline (by decide)),
        List.takeWhile_cons_of_pos (by simp [hx]), Lookahead.line]
    have hstop : Lookahead.lengthOutsideVariables Lookahead.formSearchEnd
        (Lookahead.line (f.nameTokens ++ x :: us)) = f.nameTokens.length := by
      rw [hline, hskips, Lookahead.lengthOutsideVariables_of_head (by decide), Nat.add_zero]
      intro t ht
      obtain rfl := Option.some.inj ht
      rw [hx]
      rfl
    obtain ⟨t, ts, ht, hk⟩ := Token.head_fieldName (f := f)
    have hallowed : Lookahead.formFirstForbidden.contains .word = false := rfl
    rw [ht, List.cons_append] at hstop ⊢
    simp [Lookahead.isForm, hstop, hk, hallowed, hx]
  obtain ⟨t, ts, ht, hk⟩ := Token.head_fieldName (f := f)
  have hspaced : Lookahead.startsWith .whitespace (ts ++ x :: us) = false := by
    cases ts with
    | nil => simp [hx]
    | cons u ts =>
        have hu := hkinds .whitespace (by decide) u (by rw [ht]; simp)
        simpa using hu
  rw [ht, List.cons_append] at hform ⊢
  refine ⟨t, ts ++ x :: us, rfl, by rw [hk]; decide, ?_⟩
  simp [BodyLine.ofTokens, BodyLine.formOrRaw, Lookahead.isBlankLine_cons, hk, hspaced, hform]

/-- What stands below the request line. -/
lemma exact_formMessage (hc : c.Live) (ha : c.Aligned)
    (hr : c.rest = Token.lineFeed :: m.bodyTokens) :
    Exact (Token.lineFeed :: m.bodyTokens) [.leaf .newline "\n", m.bodyTree] c c.message := by
  obtain ⟨v, hv⟩ := Option.isSome_iff_exists.mp m.first_value
  have hr' : c.rest = (([] : List HeaderModel).map HeaderModel.line).flatMap Token.lineTokens
      ++ Token.lineFeed :: (m.bodyTokens ++ []) := by
    rw [List.append_nil]
    exact hr
  have hfirst : ∃ t ts, m.bodyTokens ++ [] = t :: ts ∧ t.kind ≠ .separatorMarker ∧
      BodyLine.ofTokens (t :: ts) = .form := by
    rw [FormModel.bodyTokens, FieldModel.tokens, FieldModel.valueTokens, hv]
    simp only [Option.elim_some, List.append_assoc, List.cons_append]
    exact ofTokens_field rfl _
  obtain ⟨_, rfl, hexact⟩ := exact_messageWithBody (P := (· = [m.bodyTree])) hc ha hr' (Or.inl rfl)
    hfirst fun d hd _ hrest => ⟨_, rfl, exact_formBody m hd (hrest.trans (List.append_nil _))⟩
  exact hexact

end Cursor

/-! ### Documents -/

namespace FormModel

variable (m : FormModel)

/-- The trees of the request. -/
def requestTrees : List Tree :=
  Cursor.urlRequestTrees "POST" [.leaf .text "/f"] true ++ [.leaf .newline "\n", m.bodyTree]

/-- The URL of the request. -/
lemma readsUrl_slash : Cursor.ReadsUrl [⟨.slash, "/"⟩, ⟨.word, "f"⟩] [.leaf .text "/f"] :=
  Cursor.readsUrl_plain (List.cons_ne_nil _ _) (by decide)

/-- **Requests** with a form. -/
lemma exact_formRequest {c : Cursor} (hc : c.Live) (hr : c.rest = Token.scan m.source) :
    Cursor.Exact (Token.scan m.source) [.node .request m.requestTrees] c c.request := by
  have hline : Token.scan m.source = Cursor.urlRequestTokens "POST" [⟨.slash, "/"⟩, ⟨.word, "f"⟩] true
      ++ (Token.lineFeed :: m.bodyTokens ++ []) := by
    rw [Token.scan_form, List.append_nil]
    rfl
  obtain ⟨_, _, rfl, rfl, hrequest⟩ := Cursor.exact_requestOf
    (P := (· = Cursor.urlRequestTrees "POST" [.leaf .text "/f"] true))
    (Q := (· = [.leaf .newline "\n", m.bodyTree])) hc (hr.trans hline)
    (fun d hd hrest => by
      have hexact := Cursor.exact_urlRequestLine (by decide) readsUrl_slash hd hrest
        (fun h => by cases h) (by simp [Token.lineFeed])
      exact ⟨_, rfl, hexact, Cursor.aligned_urlRequestLine hexact hrest fun h => by cases h⟩)
    fun d hd ha hrest => ⟨_, rfl, Cursor.exact_formMessage m hd ha (hrest.trans (List.append_nil _))⟩
  rw [hline, List.append_nil]
  exact hrequest

/-- The parameter at its tree. -/
lemma ofTree_field (f : FieldModel) :
    Param.ofTree .formParamName .formParamValue f.tree = f.param := by
  rw [FieldModel.tree, FieldModel.param]
  cases f.value <;> simp [Param.ofTree, Tree.child?, Tree.children, Tree.isNode, Tree.kind,
    text_node_leaf]

/-- The parameters at the tree of a form. -/
lemma params_bodyTree : (m.bodyTree.childrenOf .formParam).map
    (Param.ofTree .formParamName .formParamValue) = m.params := by
  have hend : ∀ b, (Cursor.endTrees b).filter (fun c => c.isNode && c.kind == .formParam) = [] := by
    intro b
    cases b <;> rfl
  have hlater : ∀ fs, (laterTrees fs).filter (fun c => c.isNode && c.kind == .formParam)
      = fs.map fun f => f.2.tree := by
    intro fs
    induction fs with
    | nil => rfl
    | cons f fs ih =>
        obtain ⟨broken, f⟩ := f
        rw [laterTrees, List.cons_append, List.filter_cons_of_neg (by decide), List.filter_append,
          hend, List.filter_cons_of_pos rfl, ih]
        rfl
  rw [Tree.childrenOf, bodyTree, Tree.children, List.cons_append, List.filter_cons_of_pos rfl,
    List.filter_append, hlater, hend, List.append_nil, List.map_cons, List.map_map, ofTree_field,
    params]
  exact congrArg _ (List.map_congr_left fun f _ => ofTree_field f.2)

/-- One form. -/
lemma nodesOf_formUrlencodedBody : m.bodyTree.nodesOf .formUrlencodedBody = [m.bodyTree] := by
  have hend : ∀ b, Tree.nodesOfAll .formUrlencodedBody (Cursor.endTrees b) = [] := by
    intro b
    cases b <;> rfl
  have hfield : ∀ f : FieldModel, f.tree.nodesOf .formUrlencodedBody = [] := by
    intro f
    rw [FieldModel.tree]
    cases f.value <;> rfl
  have hlater : ∀ fs, Tree.nodesOfAll .formUrlencodedBody (laterTrees fs) = [] := by
    intro fs
    induction fs with
    | nil => rfl
    | cons f fs ih =>
        obtain ⟨broken, f⟩ := f
        have hjoint : (Tree.node .operator [.leaf .ampersand "&"]).nodesOf .formUrlencodedBody = [] :=
          rfl
        rw [laterTrees, List.cons_append, Tree.nodesOfAll, Tree.nodesOfAll_append, hjoint, hend,
          Tree.nodesOfAll, hfield, ih]
        rfl
  have hnone : Tree.nodesOfAll .formUrlencodedBody m.bodyTree.children = [] := by
    rw [bodyTree, Tree.children, List.cons_append, Tree.nodesOfAll, Tree.nodesOfAll_append, hfield,
      hlater, hend]
    rfl
  have hself : m.bodyTree.nodesOf .formUrlencodedBody
      = m.bodyTree :: Tree.nodesOfAll .formUrlencodedBody m.bodyTree.children := rfl
  rw [hself, hnone]

/-- **Parsing undoes printing** for forms. Whatever values are missing after the first, and wherever
a line ends behind an ampersand, a request with such a body is parsed without diagnostics to one body,
a form with these parameters in their order. -/
theorem parse_form : ∃ d r b,
    Document.parse Document.defaultLimits m.source = .ok d ∧ d.diagnostics = [] ∧
      d.tree.nodesOf .formUrlencodedBody = [m.bodyTree] ∧ d.requests = [r] ∧ r.bodies = [b] ∧
      b.content = .form m.params := by
  obtain ⟨d, hd, hdiagnostics, htree, hrequests⟩ := Document.exists_of_request (by decide)
    (Token.scan_form m) fun d hd hrest => m.exact_formRequest hd hrest
  refine ⟨d, _, _, hd, hdiagnostics, ?_, hrequests, rfl, ?_⟩
  · have hnode : d.tree.nodesOf .formUrlencodedBody
        = m.bodyTree.nodesOf .formUrlencodedBody ++ [] := by
      rw [htree]
      simp [Tree.nodesOf, Tree.nodesOfAll, requestTrees, Cursor.urlRequestTrees, Cursor.endTrees]
    rw [hnode, m.nodesOf_formUrlencodedBody, List.append_nil]
  · exact congrArg BodyContent.form m.params_bodyTree

/-- A parameter without a value on a line of its own, and values that look like other syntax. -/
theorem parse_form_threeFields : ∃ d r b t,
    Document.parse Document.defaultLimits "POST /f\n\na=-/?&\nb&c.d=//x=%41--" = .ok d ∧
      d.diagnostics = [] ∧ d.tree.nodesOf .formUrlencodedBody = [t] ∧
      d.requests = [r] ∧ r.bodies = [b] ∧ b.content = .form
        [⟨some "a", some "-/?"⟩, ⟨some "b", none⟩, ⟨some "c.d", some "//x=%41--"⟩] := by
  obtain ⟨m, hsource, hparams⟩ : ∃ m : FormModel,
      m.source = "POST /f\n\na=-/?&\nb&c.d=//x=%41--" ∧ m.params
        = [⟨some "a", some "-/?"⟩, ⟨some "b", none⟩, ⟨some "c.d", some "//x=%41--"⟩] :=
    ⟨⟨⟨"a", some "-/?", by decide, by decide, by decide, by decide, by decide⟩,
      [(true, ⟨"b", none, by decide, by decide, by decide, by decide, by decide⟩),
        (false, ⟨"c.d", some "//x=%41--", by decide, by decide, by decide, by decide, by decide⟩)],
      rfl, false⟩, by decide +kernel, rfl⟩
  rw [← hsource, ← hparams]
  obtain ⟨d, r, b, hread⟩ := m.parse_form
  exact ⟨d, r, b, m.bodyTree, hread⟩

end FormModel

end RequestFile
