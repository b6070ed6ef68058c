import RequestFile.Parse.Preamble
import RequestFile.Proofs.Limits.Basic

/-!
Values, scripts and the lines in front of a request, under limits.

None of these productions nests, so they are `Metered 0`, and hence `Metered n` for every `n`. Values
are metered as every `Compositional` property has it. The others are put together as they are written:
what one asks of the cursor first is `Metered.seen`, and what it decides by is `Metered.ite`.
-/

namespace RequestFile

namespace Cursor

namespace Metered

variable {n : Nat}

/-! ### Values -/

lemma identifier : Metered n identifier :=
  Compositional.identifierWithin none

lemma value (stop : Nat) : Metered n (value stop) :=
  Compositional.value stop

lemma path : Metered n path :=
  Compositional.path

/-! ### Scripts -/

lemma scriptPiece (opener : Span) : MeteredTurn n (scriptPiece opener) := by
  have htext : Metered n fun c => c.textUntil (c.before scriptCloseKinds c.lineEnd) :=
    seen (a := fun c => c.before scriptCloseKinds c.lineEnd) (fun _ => rfl) fun i => textUntil i
  have hpiece : MeteredTurn n fun c : Cursor =>
      if c.sees .newline then .again c.bump
      else .again (c.textUntil (c.before scriptCloseKinds c.lineEnd)) :=
    .ite (p := fun c => c.sees .newline = true) (fun _ => Iff.rfl) (.again bump) (.again htext)
  exact .ite (p := fun c => (c.stopped || (c.lineStart && c.atSeparator)) = true)
    (fun _ => Iff.rfl) (.done (reportUnclosed _ _ _ opener))
    (.after look (.ite (p := fun c => c.sees .scriptClose = true) (fun _ => Iff.rfl) (.done bump)
      (.after look hpiece)))

lemma inlineScript : Metered n inlineScript :=
  demand.andThen (seen (a := span) (fun _ => rfl) fun opener =>
    node (bump.andThen (loop (scriptPiece opener))))

lemma scriptOrPath : Metered n scriptOrPath :=
  on inlineScript path

lemma finishScriptLine : Metered n finishScriptLine :=
  ite (p := fun c => c.lineStart = true) (fun _ => Iff.rfl) .id
    ((eatBlank.andThen (finishLine _)).andThen eatNewlines)

lemma scriptLine {k : Kind} {f : Cursor → Cursor} (h : Metered n f) : Metered n (scriptLine k f) :=
  node (((bump.andThen eatBlank).andThen h).andThen finishScriptLine)

lemma preRequestScript : Metered n preRequestScript :=
  scriptLine scriptOrPath

lemma responseHandler : Metered n responseHandler :=
  scriptLine scriptOrPath

lemma responseRedirect : Metered n responseRedirect :=
  scriptLine path

/-! ### Separators, comments and metadata -/

/-- A value up to the last token before a position that is not a blank. -/
lemma valueWithin {a : Cursor → Nat} (ha : ∀ c, a c.freed = a c) :
    Metered n fun c => c.value (c.trimmedEnd (a c)) :=
  seen (a := fun c => c.trimmedEnd (a c)) (fun c => congrArg c.trimmedEnd (ha c)) fun i => value i

lemma separator : Metered n separator :=
  demand.andThen (node ((bump.andThen eatBlank).andThen
    (((valueWithin (a := lineEnd) fun _ => rfl).andThen eatBlank).andThen eatNewline)))

lemma comment : Metered n comment :=
  node (bump.andThen ((seen (a := lineEnd) (fun _ => rfl) fun i => textUntil i).andThen eatNewline))

lemma metadataValue : Metered n metadataValue := by
  have hequals : Metered n fun c : Cursor =>
      if c.atEnd then c else c.on .equals (fun c => c.bump.eatBlank) id :=
    ite (p := fun c => c.atEnd = true) (fun _ => Iff.rfl) .id (on (bump.andThen eatBlank) .id)
  have hvalue : ∀ stop, Metered n fun c : Cursor => if c.read < stop then
      (if c.eatBlank.atEnd then c.eatBlank
        else c.eatBlank.on .equals (fun c => c.bump.eatBlank) id).value stop else c := fun stop =>
    ite (p := fun c => c.read < stop) (fun _ => Iff.rfl)
      ((eatBlank.andThen hequals).andThen (value stop)) .id
  exact seen (a := fun c => c.trimmedEnd c.lineEnd) (fun _ => rfl) hvalue

lemma metadata : Metered n metadata := by
  have hname := (((bump (n := n).andThen eatBlank).andThen (demand (k := .at))).andThen bump).andThen
    identifier
  have hvalue := (metadataValue (n := n).andThen eatBlank).andThen eatNewline
  have hall := hname.andThen hvalue
  exact hall.node

/-! ### Declarations and commands -/

lemma assignedValue (stop : Nat) : Metered n (assignedValue stop) :=
  ite (p := fun c => stop ≤ c.read) (fun _ => Iff.rfl) (reportHere _ _) (value stop)

lemma assignment (stop : Nat) : Metered n (assignment stop) := by
  have hmissing : Metered n fun c : Cursor =>
      (c.reportHere .expectedEquals "expected `=` after the variable name").errorUntil stop :=
    (reportHere _ _).andThen (errorUntil stop)
  have hvalue := (bump.andThen eatBlank).andThen (assignedValue (n := n) stop)
  exact (((demand.andThen bump).andThen identifier).andThen eatBlank).andThen
    (ite (p := fun c => c.atEnd = true) (fun _ => Iff.rfl) hmissing (on hvalue hmissing))

lemma variableDeclaration : Metered n variableDeclaration :=
  node (((seen (a := fun c => c.trimmedEnd c.lineEnd) (fun _ => rfl) fun i =>
    assignment i).andThen eatBlank).andThen eatNewline)

lemma argument : Metered n argument :=
  node (seen (a := fun c => c.trimmedEnd (c.outsideVariables argumentEndKinds c.lineEnd))
    (fun _ => rfl) fun i => assignment i)

lemma argumentTurn : MeteredTurn n argumentTurn := by
  have hcomma : MeteredTurn n fun c : Cursor =>
      if c.sees .comma then .again c.bump.eatBlank else .done c :=
    .ite (p := fun c => c.sees .comma = true) (fun _ => Iff.rfl) (.again (bump.andThen eatBlank))
      (.done .id)
  have hmore : MeteredTurn n fun c : Cursor => if c.atEnd then .done c
      else if c.look.sees .comma then .again c.look.bump.eatBlank else .done c.look :=
    .ite (p := fun c => c.atEnd = true) (fun _ => Iff.rfl) (.done .id) (.after look hcomma)
  have hat := MeteredTurn.ite (p := fun c => (!c.sees .at) = true) (fun _ => Iff.rfl) (.done .id)
    (.after (argument.andThen eatBlank) hmore)
  have hturn := MeteredTurn.after look hat
  exact hturn

lemma argumentsCloser (opener : Span) : Metered n (argumentsCloser opener) := by
  have hmissing : Metered n fun c : Cursor =>
      c.file (((Diagnostic.new .expectedCloseParen c.span).saying "expected `)`").relatedTo
        "declarations start here" opener) :=
    seen (a := span) (F := fun span => Cursor.file (((Diagnostic.new .expectedCloseParen span).saying
      "expected `)`").relatedTo "declarations start here" opener)) (fun _ => rfl) fun _ => file _
  exact ite (p := fun c => c.atEnd = true) (fun _ => Iff.rfl) hmissing (on bump hmissing)

lemma arguments : Metered n arguments :=
  demand.andThen (seen (a := span) (fun _ => rfl) fun opener =>
    ((bump.andThen eatBlank).andThen (loop argumentTurn)).andThen (argumentsCloser opener))

lemma commandValue (stop : Nat) : Metered n (commandValue stop) :=
  ite (p := fun c => c.read < stop) (fun _ => Iff.rfl) (value stop) (reportHere _ _)

lemma command : Metered n command := by
  have hname : Metered n fun c : Cursor => (c.leaf .commandName (c.read + 1)).eatBlank :=
    (seen (a := fun c => c.read + 1) (fun _ => rfl) fun i => leaf .commandName i).andThen eatBlank
  have harguments : ∀ opener : Option Nat, Metered n fun c : Cursor =>
      if opener.isSome then c.eatBlank.arguments else c := fun opener =>
    ite (p := fun _ => opener.isSome = true) (fun _ => Iff.rfl) (eatBlank.andThen arguments) .id
  have hvalue : ∀ opener lineEnd, Metered n fun c : Cursor =>
      c.commandValue (c.trimmedEnd (Option.getD opener lineEnd)) := fun opener lineEnd =>
    seen (a := fun c => c.trimmedEnd (opener.getD lineEnd)) (fun _ => rfl) fun i => commandValue i
  have hend : Metered n fun c : Cursor =>
      (c.eatBlank.finishLine "unexpected text after the command").eatNewline :=
    (eatBlank.andThen (finishLine _)).andThen eatNewline
  exact node (hname.andThen (seen (a := lineEnd) (fun _ => rfl) fun lineEnd =>
    seen (a := fun c => (Lookahead.argumentsOffset? (c.segment lineEnd)).map (c.read + ·))
      (fun _ => rfl) fun opener =>
        ((hvalue opener lineEnd).andThen (harguments opener)).andThen hend))

end Metered

end Cursor

end RequestFile
