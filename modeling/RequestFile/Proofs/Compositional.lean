import Mathlib.Tactic
import RequestFile.Parse.Head

/-!
Properties of productions that pass through the ways of putting them together.

A production is steps one after the other, chosen by what is seen of the cursor. Of its reports and
its budget it sees nothing: only the steps that file a report, take a token or nest deal with them. So
a property that holds of the steps, and that may be shown for each thing seen apart, holds of whatever
is written with them (`Compositional`).

* **Choices and loops.** `Compositional.ite`, `Compositional.elim` and `Compositional.loopWhile`.
* **Steps.** What is made of a question and of taking tokens.
* **Values and URLs.** All productions up to `Compositional.value` and `Compositional.urlLine`, each
  put together as it is written.
-/

namespace RequestFile

/-- Deciding first and then choosing a function. -/
lemma ite_fun_eq {α β : Type} (p : α → Prop) [DecidablePred p] (f g : α → β) :
    (fun a => if p a then f a else g a) = fun a => (if decide (p a) then f else g) a := by
  funext a
  by_cases h : p a <;> simp [h]

namespace Cursor

/-- What a production does not see of a cursor. -/
structure Account where
  reports : Array Diagnostic
  lastReport : Option Nat
  budget : Budget

/-- The cursor with another account. -/
def under (m : Cursor → Account) (c : Cursor) : Cursor :=
  { c with reports := (m c).reports, lastReport := (m c).lastReport, budget := (m c).budget }

/-- A property that holds of steps, and of what is put together from productions that have it. What is
seen of a cursor is the same under another account. -/
class Compositional (m : outParam (Cursor → Account)) (P : (Cursor → Cursor) → Prop) : Prop where
  skip : P id
  andThen {f g : Cursor → Cursor} : P f → P g → P fun c => g (f c)
  seen {α : Type} {a : Cursor → α} {F : α → Cursor → Cursor} :
    (∀ c, a (c.under m) = a c) → (∀ x, P (F x)) → P fun c => F (a c) c
  broken (x : Fault) : P (Cursor.broken x)
  patience (n : Nat) : P fun c => { c with patience := n }
  take (k : Kind) (n : Nat) : P (Cursor.take k n)
  opened : P Cursor.opened
  closed (k : Kind) (b : Array Tree) : P (Cursor.closed k b)
  fileAt (o : Nat) (x : Diagnostic) : P (Cursor.fileAt o x)

namespace Compositional

variable {m : Cursor → Account} {P : (Cursor → Cursor) → Prop} [hP : Compositional m P] {k : Kind}
  {f g : Cursor → Cursor}

include hP

/-! ### Choices and loops -/

/-- A decision by something seen. -/
lemma ite {p : Cursor → Prop} [DecidablePred p] (hp : ∀ c, p (c.under m) ↔ p c) (h : P f) (h' : P g) :
    P fun c => if p c then f c else g c := by
  rw [ite_fun_eq]
  refine seen (a := fun c => decide (p c)) (F := fun b => if b then f else g)
    (fun c => by simp [hp c]) fun b => ?_
  cases b with
  | true => exact h
  | false => exact h'

/-- A choice by something that may be absent. -/
lemma elim {α : Type} {a : Cursor → Option α} {F : α → Cursor → Cursor}
    (ha : ∀ c, a (c.under m) = a c) (h : P g) (h' : ∀ x, P (F x)) :
    P fun c => (a c).elim (g c) fun x => F x c :=
  seen (F := fun o c => o.elim (g c) fun x => F x c) ha fun o => by
    cases o with
    | none => exact h
    | some x => exact h' x

/-- A loop with a condition, by induction on its fuel. -/
lemma iterateWhile {more : Cursor → Bool} (hm : ∀ c, more (c.under m) = more c) (h : P f) (n : Nat) :
    P (iterate (fun c => if more c then .again (f c) else .done c) n) := by
  induction n with
  | zero => exact broken .stuck
  | succ n ih =>
      have hturn := ite (p := fun c => more c = true) (fun c => by rw [hm]) (andThen h ih) (skip (P := P))
      refine (congrArg P (funext fun c => ?_)).mpr hturn
      rw [iterate]
      split_ifs <;> rfl

lemma loopWhile {more : Cursor → Bool} (hm : ∀ c, more (c.under m) = more c) (h : P f) :
    P (Cursor.loopWhile more f) :=
  seen (a := fun c => c.rest.length + 1)
    (F := iterate fun c => if more c then .again (f c) else .done c) (fun _ => rfl)
    fun n => iterateWhile hm h n

/-! ### Steps -/

lemma look : P Cursor.look :=
  ite (p := fun c => c.patience = 0) (fun _ => Iff.rfl) (broken .stuck)
    (seen (a := fun c => c.patience - 1) (F := fun n c => { c with patience := n }) (fun _ => rfl)
      fun n => patience n)

lemma on (h : P f) (h' : P g) : P (Cursor.on k f g) := by
  have hseen := andThen look (ite (p := fun c => c.sees k = true) (fun _ => Iff.rfl) h h')
  exact hseen

lemma demand : P (Cursor.demand k) :=
  on skip (broken _)

lemma bump : P Cursor.bump := by
  have hseen := elim (P := P) (a := fun c => c.rest.head?.map Token.kind)
    (F := fun k => Cursor.take k 1) (fun _ => rfl) (broken .pastEnd) fun k => take k 1
  refine (congrArg P (funext fun c => ?_)).mpr hseen
  rw [Cursor.bump]
  cases c.rest <;> rfl

lemma textUntil (stop : Nat) : P (Cursor.textUntil stop) :=
  ite (p := fun c => (c.segment stop).isEmpty = true) (fun _ => Iff.rfl) skip
    (seen (a := fun c => stop - c.read) (fun _ => rfl) fun i => take .text i)

lemma eat : P (Cursor.eat k) :=
  ite (p := fun c => c.atEnd = true) (fun _ => Iff.rfl) skip (on bump skip)

lemma node (h : P f) : P (Cursor.node k f) :=
  seen (a := Cursor.built) (F := fun b c => (f c.opened).closed k b) (fun _ => rfl) fun b =>
    andThen (andThen opened h) (closed k b)

lemma leaf (k : Kind) (stop : Nat) : P (Cursor.leaf k stop) :=
  node (textUntil stop)

lemma operator : P Cursor.operator :=
  node bump

lemma reportHere (p : Problem) (detail : String) : P (Cursor.reportHere p detail) :=
  seen (a := span) (F := fun span => Cursor.report p span detail) (fun _ => rfl) fun _ => fileAt _ _

lemma reportUnclosed (p : Problem) (detail label : String) (opener : Span) :
    P (Cursor.reportUnclosed p detail label opener) :=
  seen (a := offset)
    (F := fun o => Cursor.fileAt o
      (((Diagnostic.new p (opener.extendTo o)).saying detail).relatedTo label opener))
    (fun _ => rfl) fun o => fileAt o _

/-! ### Values -/

lemma identifierWithin (bound : Option Nat) : P (Cursor.identifierWithin bound) := by
  have hlength : ∀ n : Nat, P fun c =>
      if bound.all (c.read + n ≤ ·) then c.leaf .identifier (c.read + n)
      else c.reportHere .expectedIdentifier "expected a name" := fun n =>
    ite (p := fun c => bound.all (c.read + n ≤ ·) = true) (fun _ => Iff.rfl)
      (seen (a := fun c => c.read + n) (fun _ => rfl) fun i => leaf .identifier i)
      (reportHere _ _)
  have hname := elim (a := fun c => Lookahead.identifierLength? c.rest) (fun _ => rfl)
    (reportHere (P := P) .expectedIdentifier "expected a name") hlength
  refine (congrArg P (funext fun c => ?_)).mpr hname
  rw [Cursor.identifierWithin]
  cases Lookahead.identifierLength? c.rest <;> rfl

lemma variableName (stop : Nat) : P (Cursor.variableName stop) :=
  ite (p := fun c => c.read < stop) (fun _ => Iff.rfl) (identifierWithin (some stop))
    (reportHere _ _)

lemma blankBeforeCloser (stop : Nat) : P (Cursor.blankBeforeCloser stop) :=
  ite (p := fun c => c.read + 1 < stop) (fun _ => Iff.rfl)
    (on (ite (p := fun c => Lookahead.startsWith .varClose (c.rest.drop 1) = true)
      (fun _ => Iff.rfl) bump skip) skip)
    skip

lemma variableCloser (stop : Nat) (opener : Span) : P (Cursor.variableCloser stop opener) :=
  ite (p := fun c => c.read < stop) (fun _ => Iff.rfl) (on bump (reportUnclosed _ _ _ opener))
    (reportUnclosed _ _ _ opener)

lemma variableRef (stop : Nat) : P (Cursor.variableRef stop) := by
  have hblank : P fun c => if c.read < stop then c.eatBlank else c :=
    ite (p := fun c => c.read < stop) (fun _ => Iff.rfl) eat skip
  have hname := andThen (variableName (P := P) stop) (blankBeforeCloser stop)
  have hall := andThen (demand (P := P) (k := .varOpen)) (seen (a := span) (fun _ => rfl)
    fun opener => node (k := .variable)
      (andThen bump (andThen hblank (andThen hname (variableCloser stop opener)))))
  exact hall

lemma interpolated (stop : Nat) : P (Cursor.interpolated stop) :=
  loopWhile (fun _ => rfl) (on (variableRef stop)
    (seen (a := fun c => c.before varOpenKinds stop) (fun _ => rfl) fun i => textUntil i))

lemma interpolatedNode (k : Kind) (stop : Nat) : P (Cursor.interpolatedNode k stop) :=
  node (interpolated stop)

lemma value (stop : Nat) : P (Cursor.value stop) :=
  ite (p := fun c => stop ≤ c.read) (fun _ => Iff.rfl) skip (interpolatedNode .value stop)

lemma path : P Cursor.path := by
  have hnode : P fun c => c.interpolatedNode .path (c.read + Lookahead.pathLength c.rest) :=
    seen (a := fun c => c.read + Lookahead.pathLength c.rest) (fun _ => rfl) fun i =>
      interpolatedNode .path i
  have hpath := ite (p := fun c => Lookahead.pathLength c.rest = 0) (fun _ => Iff.rfl)
    (reportHere .expectedPath "expected a file path") hnode
  refine (congrArg P (funext fun c => ?_)).mpr hpath
  rw [Cursor.path]
  cases Lookahead.pathLength c.rest <;> rfl

/-! ### URLs -/

lemma part (k : Kind) (stop : Nat) : P (Cursor.part k stop) :=
  ite (p := fun c => c.read < stop) (fun _ => Iff.rfl) (interpolatedNode k stop) skip

lemma queryValue (stop : Nat) : P (Cursor.queryValue stop) := by
  have hvalue : P fun c => c.part .queryParamValue (c.outsideVariables paramValueEndKinds stop) :=
    seen (a := fun c => c.outsideVariables paramValueEndKinds stop) (fun _ => rfl) fun i => part _ i
  exact ite (p := fun c => c.read < stop) (fun _ => Iff.rfl) (on (andThen operator hvalue) skip) skip

lemma queryParam (stop : Nat) : P (Cursor.queryParam stop) := by
  have hbuild : ∀ nameEnd, P (Cursor.node .queryParam fun c =>
      (c.part .queryParamName nameEnd).queryValue stop) := fun nameEnd =>
    node (andThen (part .queryParamName nameEnd) (queryValue stop))
  have hparam : ∀ nameEnd, P fun c =>
      if nameEnd = c.read then c.on .equals (Cursor.node .queryParam fun c =>
        (c.part .queryParamName nameEnd).queryValue stop) id
      else c.node .queryParam fun c => (c.part .queryParamName nameEnd).queryValue stop :=
    fun nameEnd => ite (p := fun c => nameEnd = c.read) (fun _ => Iff.rfl)
      (on (hbuild nameEnd) skip) (hbuild nameEnd)
  exact seen (a := fun c => c.outsideVariables queryNameEndKinds stop) (fun _ => rfl) hparam

lemma queryPart (k : Kind) (stop : Nat) : P (Cursor.queryPart k stop) :=
  node (andThen operator
    (ite (p := fun c => c.read < stop) (fun _ => Iff.rfl) (queryParam stop) skip))

lemma fragment (stop : Nat) : P (Cursor.fragment stop) :=
  node (andThen operator
    (seen (a := fun c => c.before blankKinds stop) (fun _ => rfl) fun i => textUntil i))

lemma urlText (stop : Nat) : P (Cursor.urlText stop) :=
  seen (a := fun c => c.read + 1 + Lookahead.lengthBefore urlBreakKinds ((c.segment stop).drop 1))
    (fun _ => rfl) fun i => textUntil i

lemma urlPiece (stop : Nat) : P (Cursor.urlPiece stop) := by
  have hvariable := ite (p := fun c => c.sees .varOpen = true) (fun _ => Iff.rfl)
    (variableRef (P := P) stop) (urlText stop)
  have hfragment := ite (p := fun c => c.sees .hash = true) (fun _ => Iff.rfl)
    (fragment (P := P) stop) hvariable
  have hampersand := ite (p := fun c => c.sees .ampersand = true) (fun _ => Iff.rfl)
    (queryPart (P := P) .queryParamContinuation stop) hfragment
  have hquestion := ite (p := fun c => c.sees .question = true) (fun _ => Iff.rfl)
    (queryPart (P := P) .queryString stop) hampersand
  have hpiece := andThen look hquestion
  exact hpiece

lemma urlLine (stop : Nat) : P (Cursor.urlLine stop) :=
  loopWhile (fun _ => rfl) (urlPiece stop)

end Compositional

end Cursor

end RequestFile
