import RequestFile.Parse.Head
import RequestFile.Proofs.Limits.Preamble

/-!
Request lines, response lines and headers under limits.

The productions for URLs also say where a version begins. `MeteredWith` adds to `Metered` that what
is said beside the cursor is the same without limits, as long as none has been reached.
-/

namespace RequestFile

namespace Cursor

/-- A production with a result keeps to its limits, and below them gives the same result. -/
structure MeteredWith {α : Type} (n : Nat) (F : Cursor → Cursor × α) : Prop where
  run : Metered n fun c => (F c).1
  same : ∀ c, (F c).1.exceeded = none → (F c.freed).2 = (F c).2

namespace MeteredWith

variable {n : Nat} {α β : Type} {f : Cursor → Cursor} {F F' : Cursor → Cursor × α}

/-- A production beside something seen where it begins. -/
lemma beside {a : Cursor → α} (h : Metered n f) (ha : ∀ c, a c.freed = a c) :
    MeteredWith n fun c => (f c, a c) :=
  ⟨h, fun c _ => ha c⟩

/-- A production in front of one with a result. -/
lemma after (h : Metered n f) (h' : MeteredWith n F) : MeteredWith n fun c => F (f c) where
  run := h.andThen h'.run
  same := fun c hc => by
    rw [h.freed c (h'.run.exceeded_none hc)]
    exact h'.same _ hc

/-- A production that goes on from a result. -/
lemma bind {G : α → Cursor → Cursor} (h : MeteredWith n F) (h' : ∀ x, Metered n (G x)) :
    Metered n fun c => G (F c).2 (F c).1 where
  limits := fun c => ((h' _).limits _).trans (h.run.limits c)
  depth := fun c => ((h' _).depth _).trans (h.run.depth c)
  tokens := fun c hc => (h.run.tokens c hc).trans ((h' _).tokens _ ((h.run.limits c).trans hc))
  capped := fun c hc => (h' _).capped _ (h.run.capped c hc)
  sticky := fun c l hc => (h' _).sticky _ l (h.run.sticky c l hc)
  freed := fun c hc => by
    have hx := (h' _).exceeded_none hc
    rw [h.same c hx, h.run.freed c hx, (h' _).freed _ hc]
  overrun := fun c l hc hl => by
    cases hf : (F c).1.exceeded with
    | none =>
        rw [h.same c hf, h.run.freed c hf]
        exact ((h' _).overrun _ l hf hl).of_limits (h.run.limits c) (h.run.depth c)
    | some l' =>
        obtain rfl : l' = l := Option.some.inj (((h' _).sticky _ l' hf).symm.trans hl)
        exact h.run.overrun_of_more hc hf ((h' _).tokens _ (h.run.limits c.freed))

/-- A production with a result that goes on from one. -/
lemma bindWith {G : α → Cursor → Cursor × β} (h : MeteredWith n F)
    (h' : ∀ x, MeteredWith n (G x)) : MeteredWith n fun c => G (F c).2 (F c).1 where
  run := h.bind fun x => (h' x).run
  same := fun c hc => by
    have hx := (h' _).run.exceeded_none hc
    rw [h.same c hx, h.run.freed c hx, (h' _).same _ hc]

lemma seen {γ : Type} {a : Cursor → γ} {G : γ → Cursor → Cursor × α} (ha : ∀ c, a c.freed = a c)
    (h : ∀ x, MeteredWith n (G x)) : MeteredWith n fun c => G (a c) c where
  run := Metered.seen (F := fun x c => (G x c).1) ha fun x => (h x).run
  same := fun c hc => by
    rw [ha]
    exact (h _).same c hc

lemma ite {p : Cursor → Prop} [DecidablePred p] (hp : ∀ c, p c.freed ↔ p c)
    (h : MeteredWith n F) (h' : MeteredWith n F') :
    MeteredWith n fun c => if p c then F c else F' c := by
  rw [ite_fun_eq]
  refine seen (a := fun c => decide (p c)) (G := fun b => if b then F else F')
    (fun c => by simp [hp c]) fun b => ?_
  cases b with
  | true => exact h
  | false => exact h'

end MeteredWith

namespace Metered

variable {n : Nat}

/-! ### URLs -/

lemma part (k : Kind) (stop : Nat) : Metered n (part k stop) :=
  Compositional.part k stop

lemma urlLine (stop : Nat) : Metered n (urlLine stop) :=
  Compositional.urlLine stop

end Metered

namespace MeteredWith

variable {n : Nat}

lemma urlNextLine : MeteredWith n urlNextLine := by
  have hline : MeteredWith n fun c : Cursor =>
      (c.urlLine (c.read + (Lookahead.splitVersion (Lookahead.line c.rest)).1),
        (Lookahead.splitVersion (Lookahead.line c.rest)).2.map (c.read + ·)) :=
    beside (a := fun c => (Lookahead.splitVersion (Lookahead.line c.rest)).2.map (c.read + ·))
      (Metered.seen (a := fun c => c.read + (Lookahead.splitVersion (Lookahead.line c.rest)).1)
        (fun _ => rfl) fun i => Metered.urlLine i) fun _ => rfl
  have hfront : Metered n fun c : Cursor => c.eatBlank.eatNewline.eatBlank :=
    (Metered.eatBlank.andThen Metered.eatNewline).andThen Metered.eatBlank
  have hall := after hfront hline
  exact hall

/-- The lines that go on a URL, by induction on the number of lines that are allowed. -/
lemma urlNextLines (fuel : Nat) (version : Option Nat) :
    MeteredWith n fun c => urlNextLines c version fuel := by
  induction fuel generalizing version with
  | zero => exact beside (a := fun _ => version) (Metered.broken .stuck) fun _ => rfl
  | succ fuel ih =>
      have hmore := urlNextLine.bindWith ih
      exact ite (p := fun c => (version.isNone && Lookahead.nextLineIsIndented c.rest) = true)
        (fun _ => Iff.rfl) hmore (beside (a := fun _ => version) .id fun _ => rfl)

/-- A URL over one line or more, in front of which the trees `built` stand. -/
lemma urlLines (length : Nat) (version : Option Nat) (built : Array Tree) :
    MeteredWith n fun c : Cursor =>
      (((c.opened.urlLine length).urlNextLines version
          ((c.opened.urlLine length).rest.length + 1)).1.closed .targetUrl built,
        ((c.opened.urlLine length).urlNextLines version
          ((c.opened.urlLine length).rest.length + 1)).2) := by
  have hfirst := Metered.opened.andThen (Metered.urlLine (n := n) length)
  have hlines : MeteredWith n fun c : Cursor => c.urlNextLines version (c.rest.length + 1) :=
    seen (a := fun c => c.rest.length + 1) (fun _ => rfl) fun fuel => urlNextLines fuel version
  have hclosed : ∀ v : Option Nat, MeteredWith n fun c : Cursor => (c.closed .targetUrl built, v) :=
    fun v => beside (a := fun _ => v) (Metered.closed .targetUrl built) fun _ => rfl
  have hall := (after hfirst hlines).bindWith hclosed
  exact hall

lemma targetUrl : MeteredWith n targetUrl := by
  have hurl : ∀ (split : Nat × Option Nat) (read : Nat) (built : Array Tree),
      MeteredWith n fun c : Cursor =>
        if split.1 = 0 then
          (c.reportHere .expectedUrl "expected a URL", split.2.map (read + ·))
        else (((c.opened.urlLine (read + split.1)).urlNextLines (split.2.map (read + ·))
            ((c.opened.urlLine (read + split.1)).rest.length + 1)).1.closed .targetUrl built,
          ((c.opened.urlLine (read + split.1)).urlNextLines (split.2.map (read + ·))
            ((c.opened.urlLine (read + split.1)).rest.length + 1)).2) := fun split read built =>
    ite (p := fun _ => split.1 = 0) (fun _ => Iff.rfl)
      (beside (a := fun _ => split.2.map (read + ·)) (Metered.reportHere _ _) fun _ => rfl)
      (urlLines (read + split.1) (split.2.map (read + ·)) built)
  exact seen (a := fun c => Lookahead.splitVersion (Lookahead.line c.rest)) (fun _ => rfl)
    fun split => seen (a := read) (fun _ => rfl) fun read => seen (a := built) (fun _ => rfl)
      fun built => hurl split read built

end MeteredWith

namespace Metered

variable {n : Nat}

/-! ### Request lines -/

lemma reportMethodCase : Metered n reportMethodCase := by
  have hreport : ∀ method : String, Metered n fun c =>
      c.file (((Diagnostic.new .unknownMethod c.span).saying
        ("`" ++ Lookahead.headText c.rest ++ "` is read as part of the URL")).fixedBy
          "methods are uppercase" method) := fun method =>
    seen (a := fun c => ((Diagnostic.new .unknownMethod c.span).saying
      ("`" ++ Lookahead.headText c.rest ++ "` is read as part of the URL")).fixedBy
        "methods are uppercase" method) (fun _ => rfl) fun d => file d
  have hcase := Compositional.elim (a := fun c => Lookahead.methodLike? (Lookahead.headText c.rest))
    (fun _ => rfl) .id hreport
  refine (congrArg (Metered n) (funext fun c => ?_)).mpr hcase
  simp only [Cursor.reportMethodCase]
  cases Lookahead.methodLike? (Lookahead.headText c.rest) <;> rfl

lemma method : Metered n method := by
  have hleaf : Metered n fun c : Cursor => (c.leaf .method (c.read + 1)).eatBlank :=
    (seen (a := fun c => c.read + 1) (fun _ => rfl) fun i => leaf .method i).andThen eatBlank
  have hknown := ite (p := fun c : Cursor =>
    Lookahead.methods.contains (Lookahead.headText c.rest) = true) (fun _ => Iff.rfl) hleaf
      reportMethodCase
  have hword := ite (p := fun c : Cursor => (c.sees .word
    && Lookahead.startsWith .whitespace (c.rest.drop 1)
    && !Lookahead.isBlankLine (c.rest.drop 1)) = true) (fun _ => Iff.rfl) hknown .id
  exact look.andThen hword

lemma version (position : Option Nat) : Metered n (version position) := by
  cases position with
  | none => exact .id
  | some v =>
      have hleaf := ite (p := fun c => c.read = v) (fun _ => Iff.rfl)
        (leaf (n := n) .httpVersion (v + 3)) .id
      exact eatBlank.andThen hleaf

lemma requestLine : Metered n requestLine := by
  have hend : ∀ v : Option Nat, Metered n fun c : Cursor =>
      ((c.version v).eatBlank.finishLine "unexpected text after the URL").eatNewline := fun v =>
    (((version v).andThen eatBlank).andThen (finishLine _)).andThen eatNewline
  have hall := (MeteredWith.after method MeteredWith.targetUrl).bind hend
  exact hall

/-! ### Response lines -/

lemma status : Metered n status := by
  have hcode : Metered n fun c : Cursor => (c.leaf .statusCode (c.read + 1)).eatBlank :=
    (seen (a := fun c => c.read + 1) (fun _ => rfl) fun i => leaf .statusCode i).andThen eatBlank
  have htext : Metered n fun c : Cursor => (if c.read < c.trimmedEnd c.lineEnd then
      c.leaf .statusText (c.trimmedEnd c.lineEnd) else c).eatBlank :=
    (seen (a := fun c => c.trimmedEnd c.lineEnd)
      (F := fun stop c => if c.read < stop then c.leaf .statusText stop else c) (fun _ => rfl)
      fun stop => ite (p := fun c => c.read < stop) (fun _ => Iff.rfl) (leaf .statusText stop)
        .id).andThen eatBlank
  have hboth := hcode.andThen htext
  have hall := ite (p := fun c : Cursor => (c.sees .word
    && Lookahead.isStatusCode (Lookahead.headText c.rest)) = true) (fun _ => Iff.rfl) hboth
      (rejectLine .expectedStatusCode "expected a status code")
  exact look.andThen hall

lemma responseLine : Metered n responseLine := by
  have hversion : Metered n fun c : Cursor => c.leaf .httpVersion (c.read + 3) :=
    seen (a := fun c => c.read + 3) (fun _ => rfl) fun i => leaf .httpVersion i
  exact ((hversion.andThen eatBlank).andThen status).andThen eatNewline

/-! ### Headers -/

lemma checkHeaderName (stop : Nat) : Metered n (checkHeaderName stop) := by
  have hreport : ∀ name : String, Metered n fun c : Cursor =>
      if Lookahead.isHeaderName name then c
      else c.report .invalidHeaderName (c.spanTo stop) name := fun name =>
    ite (p := fun _ => Lookahead.isHeaderName name = true) (fun _ => Iff.rfl) .id
      (seen (a := fun c => c.spanTo stop) (fun _ => rfl) fun span => report _ span name)
  exact seen (a := fun c => Token.textOf (c.segment stop)) (fun _ => rfl) hreport

lemma header : Metered n header := by
  have hname : Metered n fun c : Cursor =>
      ((c.checkHeaderName (c.read + Lookahead.headerNameLength c.rest)).leaf .headerEntity
        (c.read + Lookahead.headerNameLength c.rest)).eatBlank :=
    (seen (a := fun c => c.read + Lookahead.headerNameLength c.rest) (fun _ => rfl) fun stop =>
      (checkHeaderName stop).andThen (leaf .headerEntity stop)).andThen eatBlank
  have hvalue : ∀ lineEnd, Metered n fun c : Cursor =>
      ((c.bump.eatBlank).value (c.bump.eatBlank.trimmedEnd lineEnd)).eatBlank := fun lineEnd =>
    ((bump.andThen eatBlank).andThen (valueWithin (a := fun _ => lineEnd) fun _ => rfl)).andThen
      eatBlank
  have hcolon : Metered n fun c : Cursor => (c.on .colon
      (fun d => ((d.bump.eatBlank).value (d.bump.eatBlank.trimmedEnd c.lineEnd)).eatBlank)
      (Cursor.rejectLine .expectedColon "expected `:` after header name")).eatNewline :=
    seen (a := lineEnd) (F := fun lineEnd c => (c.on .colon
      (fun d => ((d.bump.eatBlank).value (d.bump.eatBlank.trimmedEnd lineEnd)).eatBlank)
      (Cursor.rejectLine .expectedColon "expected `:` after header name")).eatNewline)
      (fun _ => rfl) fun lineEnd => (on (hvalue lineEnd) (rejectLine _ _)).andThen eatNewline
  have hall := hname.andThen hcolon
  exact hall.node

lemma strayHeaderLine : Metered n strayHeaderLine := by
  have hfile : ∀ stop, Metered n fun c : Cursor =>
      c.file (((Diagnostic.new .unexpectedLine (c.spanTo stop)).saying
        "expected a header or a blank line before the body").hinting
        "separate the body from the headers with a blank line") := fun stop =>
    seen (a := fun c => c.spanTo stop) (F := fun span => Cursor.file
      (((Diagnostic.new .unexpectedLine span).saying
        "expected a header or a blank line before the body").hinting
        "separate the body from the headers with a blank line")) (fun _ => rfl) fun _ => file _
  exact seen (a := lineEnd) (fun _ => rfl) fun stop =>
    ((hfile stop).andThen (errorUntil stop)).andThen eatNewline

lemma headerLine : Metered n headerLine := by
  have hheader := ite (p := fun c => c.seesIn Lookahead.headerNameKinds = true) (fun _ => Iff.rfl)
    (header (n := n)) strayHeaderLine
  have hall := ite (p := fun c => c.seesIn Lookahead.commentKinds = true) (fun _ => Iff.rfl)
    (comment (n := n)) hheader
  exact look.andThen hall

lemma headerLines : Metered n headerLines :=
  loopWhile (fun _ => rfl) headerLine

end Metered

end Cursor

end RequestFile
