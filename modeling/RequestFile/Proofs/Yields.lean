import RequestFile.Proofs.Run

/-!
What a production makes of the tokens ahead, whatever it reports.

`Yields ts new c c'` says that a production takes the tokens `ts` and builds the trees `new`. There is
no word about reports in it, so it holds of malformed input too: every run yields something of its form
(`Run.exists_yields`), and one that ends at a known position takes just what stands in front of it
(`Run.yields`).
-/

namespace RequestFile

open scoped Computability

namespace Cursor

/-- A production takes these tokens and builds these trees. -/
structure Yields (ts : List Token) (new : List Tree) (c c' : Cursor) : Prop
    extends Took ts c c' where
  live : c'.Live
  built : c'.built.toList = c.built.toList ++ new
  text : Tree.textOf new = Token.textOf ts

variable {ts us : List Token} {new news : List Tree} {K : Kind} {n : Nat} {L : TreeLanguage}
  {c c' c'' : Cursor}

/-- A run takes and builds something of its form. -/
lemma Run.exists_yields (h : Run true n L c c') : ∃ ts, ∃ new ∈ L, Yields ts new c c' := by
  obtain ⟨ts, new, htook, hbuilt, hover, hnew⟩ := h.grew
  exact ⟨ts, new, hnew fun _ => rfl, htook, h.live, hbuilt, hover.textOf_eq⟩

/-- A run that ends at a known position takes what stands in front of it. -/
lemma Run.yields (h : Run true n L c c') (hr : c.rest = ts ++ us)
    (hread : c'.read = c.read + ts.length) : ∃ new ∈ L, Yields ts new c c' := by
  obtain ⟨ts', new, hnew, hyields⟩ := h.exists_yields
  have hlen : ts'.length = ts.length := Nat.add_left_cancel (hyields.read.symm.trans hread)
  obtain ⟨rfl, _⟩ := List.append_inj (hyields.rest.symm.trans hr) hlen
  exact ⟨new, hnew, hyields⟩

namespace Yields

protected lemma refl (hc : c.Live) : Yields [] [] c c :=
  ⟨.refl c, hc, (List.append_nil _).symm, rfl⟩

/-- Runs compose. -/
lemma trans (h : Yields ts new c c') (h' : Yields us news c' c'') :
    Yields (ts ++ us) (new ++ news) c c'' where
  toTook := h.toTook.trans h'.toTook
  live := h'.live
  built := by rw [h'.built, h.built, List.append_assoc]
  text := by rw [Tree.textOf_append, Token.textOf_append, h.text, h'.text]

/-- A run after a step that does nothing. -/
lemma after (h' : Yields ts new c' c'') (h : Yields [] [] c c') : Yields ts new c c'' :=
  h.trans h'

/-- What is left after a run. -/
lemma rest_eq (h : Yields ts new c c') (hr : c.rest = ts ++ us) : c'.rest = us :=
  List.append_cancel_left (h.rest.symm.trans hr)

/-- A node over what a production builds. -/
lemma node (h : Yields ts new c.opened c') : Yields ts [.node K new] c (c'.closed K c.built) where
  toTook := ⟨h.rest, h.read, h.offset, h.lineStart⟩
  live := h.live.closed K c.built
  built := by
    have hnew : c'.built.toList = new := by simpa [opened] using h.built
    rw [closed, Array.toList_push, hnew]
  text := by rw [Tree.textOf_singleton, Tree.text_node, h.text]

/-- A production one level deeper. -/
lemma nested {body : Cursor → Cursor} (hc : c.Live)
    (h : Yields ts new c.lowered (body c.lowered)) : Yields ts new c (c.nested body) := by
  rw [hc.nested_eq]
  exact ⟨⟨h.rest, h.read, h.offset, h.lineStart⟩, h.live.raised, h.built, h.text⟩

end Yields

end Cursor

end RequestFile
