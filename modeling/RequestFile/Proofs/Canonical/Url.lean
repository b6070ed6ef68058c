import RequestFile.Proofs.Canonical.Single

/-!
Pieces of URLs.

A URL is read piece by piece. `Cursor.exact_urlLine_cons` puts the run of a line together from that
of its first piece and what is left of the line, and `Cursor.exact_urlText` is the piece of plain text.
A URL without the characters of queries is one such piece (`Cursor.readsUrl_plain`).
-/

namespace RequestFile

namespace Cursor

variable {stop : Nat} {ts us : List Token} {new news : List Tree} {c : Cursor}

/-- Nothing is left of a URL at its end. -/
lemma urlLine_of_le (h : stop ≤ c.read) : c.urlLine stop = c := by
  rw [urlLine, loopWhile_of_not]
  simp [Nat.not_lt.mpr h]

/-- The pieces of a URL, one and what is left. -/
lemma exact_urlLine_cons (hc : c.Live) (hlt : c.read < stop) (hline : stop ≤ c.lineEnd)
    (h : Exact ts new c (c.urlPiece stop))
    (h' : Exact us news (c.urlPiece stop) ((c.urlPiece stop).urlLine stop)) :
    Exact (ts ++ us) (new ++ news) c (c.urlLine stop) := by
  have hmore : (decide (c.read < stop) && !c.stopped) = true := by
    obtain ⟨t, vs, hr, _⟩ := exists_of_lt_lineEnd (hlt.trans_le hline)
    simp [hlt, hc.stopped_eq, atEnd, hr]
  have hloop : c.urlLine stop = (c.urlPiece stop).urlLine stop :=
    loopWhile_eq (e := true) run_urlLine_turn hc ⟨hlt.le, hline⟩ hmore
  rw [hloop]
  exact h.trans h'

/-- The last piece of a URL. -/
lemma exact_urlLine_last (hc : c.Live) (hne : ts ≠ []) (hs : stop = c.read + ts.length)
    (hline : stop ≤ c.lineEnd) (h : Exact ts new c (c.urlPiece stop)) :
    Exact ts new c (c.urlLine stop) := by
  have hpos := List.length_pos_of_ne_nil hne
  have hdone : (c.urlPiece stop).urlLine stop = c.urlPiece stop :=
    urlLine_of_le (by rw [h.read]; omega)
  have hwhole := exact_urlLine_cons hc (by omega) hline h (by rw [hdone]; exact .refl h.live)
  rwa [List.append_nil, List.append_nil] at hwhole

/-- **Plain text** of a URL, up to its end or to something else. -/
lemma exact_urlText (hc : c.Live) (hr : c.rest = ts ++ us) (hne : ts ≠ [])
    (hkinds : ∀ t ∈ ts, urlBreakKinds.contains t.kind = false) (hle : c.read + ts.length ≤ stop)
    (hend : stop = c.read + ts.length ∨ ∀ t ∈ us.head?, urlBreakKinds.contains t.kind) :
    Exact ts [.leaf .text (Token.textOf ts)] c (c.urlPiece stop) := by
  have hlook := exact_look hc
  have hr' : c.look.rest = ts ++ us := (look_rest c).trans hr
  obtain ⟨t, ts', hts⟩ := List.exists_cons_of_ne_nil hne
  have hsees : ∀ k, urlBreakKinds.contains k → ¬c.look.sees k := fun k hk =>
    not_sees_of_kinds hr' hne fun t ht heq => by
      rw [← heq, hkinds t ht] at hk
      cases hk
  have hlength : Lookahead.lengthBefore urlBreakKinds ((c.look.segment stop).drop 1)
      = ts'.length := by
    have hle' : c.look.read + ts.length ≤ stop := by rwa [look_read]
    rw [segment_eq hr' hle', look_read, hts, List.cons_append, List.drop_succ_cons, List.drop_zero,
      ← hts]
    refine Lookahead.lengthBefore_eq (fun t ht => hkinds t ?_) (forall_head_take hend)
    rw [hts]
    exact List.mem_cons_of_mem _ ht
  have hstop : c.look.read + 1 + Lookahead.lengthBefore urlBreakKinds ((c.look.segment stop).drop 1)
      = c.look.read + ts.length := by
    rw [hlength, hts, List.length_cons]
    omega
  have htext := exact_textUntil hlook.live hr' hne hstop
  have hpiece : c.urlPiece stop = c.look.urlText stop := by
    simp only [urlPiece, if_neg (hsees .question rfl), if_neg (hsees .ampersand rfl),
      if_neg (hsees .hash rfl), if_neg (hsees .varOpen rfl)]
  rw [hpiece]
  exact hlook.trans htext

/-- **URLs without a query** are one piece of text. -/
lemma readsUrl_plain (hne : ts ≠ [])
    (hkinds : ∀ k ∈ Kind.newline :: .whitespace :: urlBreakKinds.members, ∀ t ∈ ts, t.kind ≠ k) :
    ReadsUrl ts [.leaf .text (Token.textOf ts)] where
  first := by
    obtain ⟨t, us, rfl⟩ := List.exists_cons_of_ne_nil hne
    exact ⟨t, us, rfl, hkinds _ (by decide) t List.mem_cons_self,
      hkinds _ (by decide) t List.mem_cons_self⟩
  newline := hkinds _ (by decide)
  version := Lookahead.splitVersion_of_solid (hkinds _ (by decide))
  exact := fun {c us} hc hr => by
    have hbreak : ∀ t ∈ ts, urlBreakKinds.contains t.kind = false := fun t ht =>
      KindSet.contains_eq_false fun k hk => hkinds k (by simp [hk]) t ht
    exact exact_urlLine_last hc hne rfl (le_lineEnd hr (hkinds _ (by decide)))
      (exact_urlText hc hr hne hbreak le_rfl (.inl rfl))

end Cursor

end RequestFile
