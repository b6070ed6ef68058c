import RequestFile.Diagnostic

/-!
Which diagnostics are shown.

One problem often causes others after it. A diagnostic `shadows` another that is only its fallout,
and `filtered` leaves out what is shadowed by a diagnostic that stays.

* `shadows a b`: `a` reaches over `b`, or both start together, and `a` has the higher priority;
  where something missing and something unclosed start together, the missing one wins.
* `filtered ds`: earlier diagnostics shadow first, and one that has been left out shadows nothing.
-/

namespace RequestFile

namespace Diagnostic

/-- Whether the range of `a` reaches over that of `b`, which starts later and ends no later. -/
def reachesOver (a b : Diagnostic) : Bool :=
  a.span.start < b.span.start && b.span.stop ≤ a.span.stop

/-- Whether `a` makes `b` pointless to show. -/
def shadows (a b : Diagnostic) : Bool :=
  if a.reachesOver b then a.problem.outranks b.problem
  else if a.span.start ≠ b.span.start then false
  else match a.problem.group, b.problem.group with
    | .unclosed, .missing => false
    | .missing, .unclosed => true
    | _, _ => a.problem.outranks b.problem

/-- A diagnostic and whether it is still to be shown. -/
structure Candidate where
  diagnostic : Diagnostic
  kept : Bool

/-- The candidates after the one at place `i` has shadowed the others. -/
def shadowFrom (cs : List Candidate) (i : Nat) : List Candidate :=
  match cs[i]? with
  | some a =>
    if a.kept then
      cs.mapIdx fun j b =>
        if j ≠ i ∧ a.diagnostic.shadows b.diagnostic then { b with kept := false } else b
    else cs
  | none => cs

/-- The diagnostics that no other one that stays shadows, in order. -/
def filtered (ds : List Diagnostic) : List Diagnostic :=
  let candidates := ds.map (Candidate.mk · true)
  let settled := (List.range ds.length).foldl shadowFrom candidates
  (settled.filter Candidate.kept).map Candidate.diagnostic

/-- The number of errors. -/
def errorCount (ds : List Diagnostic) : Nat :=
  ds.countP isError

/-- The number of warnings. -/
def warningCount (ds : List Diagnostic) : Nat :=
  ds.countP isWarning

end Diagnostic

end RequestFile
