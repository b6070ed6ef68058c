import RequestFile.Kind

/-!
Sets of kinds.

A set holds kinds numbered below `KindSet.width` only, so that a machine word can hold one. The
productions use sets of tokens, which all fit.
-/

namespace RequestFile

/-- The number of kinds a set can tell apart: those numbered below it. -/
def KindSet.width : Nat := 64

/-- A set of kinds, listed in any order. -/
structure KindSet where
  members : List Kind
  small : ∀ k ∈ members, k.code < KindSet.width := by decide

namespace KindSet

/-- The set of the listed kinds, unless one of them has too large a number. -/
def ofList? (ks : List Kind) : Option KindSet :=
  if h : ∀ k ∈ ks, k.code < width then some ⟨ks, h⟩ else none

/-- Whether a kind is in the set. -/
def contains (s : KindSet) (k : Kind) : Bool :=
  s.members.contains k

/-- The kinds of either set. -/
def union (s t : KindSet) : KindSet :=
  ⟨s.members ++ t.members, fun k h => (List.mem_append.1 h).elim (s.small k) (t.small k)⟩

/-- The members, each once, by their numbers. -/
def toList (s : KindSet) : List Kind :=
  Kind.all.filter s.contains

/-- The members in braces, by their numbers. -/
def toText (s : KindSet) : String :=
  "\x7b" ++ ", ".intercalate (s.toList.map Kind.name) ++ "\x7d"

end KindSet

end RequestFile
