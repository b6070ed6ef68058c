import RequestFile.Proofs.Canonical.Exact

/-!
Productions that report nothing.

Taking and grouping tokens reports nothing, so a body of lines never does (`textLines_reports`), and
a URL does only where a reference begins (`urlLine_reports`).
-/

namespace RequestFile

namespace Cursor

variable {stop : Nat} {c : Cursor}

/-! ### Steps -/

@[simp]
lemma bump_reports (c : Cursor) : c.bump.reports = c.reports := by
  unfold bump; split <;> rfl

@[simp]
lemma textUntil_reports (stop : Nat) (c : Cursor) : (c.textUntil stop).reports = c.reports := by
  unfold textUntil; split <;> rfl

@[simp]
lemma eat_reports (k : Kind) (c : Cursor) : (c.eat k).reports = c.reports := by
  rw [eat]
  split_ifs
  · rfl
  · by_cases hs : c.sees k
    · rw [on_pos hs, bump_reports, look_reports]
    · rw [on_neg hs, id, look_reports]

@[simp]
lemma node_reports (k : Kind) (body : Cursor → Cursor) (c : Cursor) :
    (c.node k body).reports = (body c.opened).reports := rfl

@[simp]
lemma opened_reports (c : Cursor) : c.opened.reports = c.reports := rfl

/-- A loop reports nothing if no turn does. -/
lemma loopWhile_reports {more : Cursor → Bool} {body : Cursor → Cursor} {I : Cursor → Prop}
    (h : ∀ d, I d → more d → I (body d) ∧ (body d).reports = d.reports) (hi : I c) :
    (c.loopWhile more body).reports = c.reports := by
  rw [loopWhile, loop]
  generalize c.rest.length + 1 = fuel
  induction fuel generalizing c with
  | zero => rfl
  | succ fuel ih =>
      rw [iterate]
      by_cases hm : more c
      · obtain ⟨hi', hq⟩ := h c hi hm
        rw [if_pos hm]
        exact (ih hi').trans hq
      · rw [if_neg hm]

/-- **Lines of text** report nothing. -/
lemma textLines_reports (stop : Nat) (c : Cursor) : (c.textLines stop).reports = c.reports := by
  refine loopWhile_reports (I := fun _ => True) (fun d _ _ => ⟨trivial, ?_⟩) trivial
  dsimp only
  split_ifs
  · exact (eat_reports .newline _).trans (textUntil_reports _ d)
  · exact textUntil_reports _ d

/-! ### URLs -/

/-- No reference begins in front of a position. -/
def Plain (stop : Nat) (c : Cursor) : Prop :=
  ∀ t ∈ c.segment stop, t.kind ≠ .varOpen

lemma Plain.of_run {e : Bool} {k : Nat} {L : TreeLanguage} {c' : Cursor} (h : Plain stop c)
    (hr : Run e k L c c') : Plain stop c' := fun t ht => by
  rw [hr.segment_eq] at ht
  exact h t (List.mem_of_mem_drop ht)

lemma Plain.mono {n : Nat} (h : Plain stop c) (hn : n ≤ stop) : Plain n c := fun t ht =>
  h t ((List.take_subset_take_left _ (Nat.sub_le_sub_right hn _)) ht)

lemma Plain.not_sees (h : Plain stop c) (hlt : c.read < stop) : ¬c.sees .varOpen := fun hs => by
  obtain ⟨t, us, hr, hk⟩ := exists_of_sees hs
  exact h t (by rw [segment_cons hr hlt]; exact List.mem_cons_self) hk

lemma interpolatedPiece_reports (hp : Plain stop c) (hlt : c.read < stop) :
    (interpolatedPiece stop c).reports = c.reports := by
  rw [interpolatedPiece, on_neg (hp.not_sees hlt), textUntil_reports, look_reports]

lemma lt_of_more (h : (decide (c.read < stop) && !c.stopped) = true) : c.read < stop := by
  simp only [Bool.and_eq_true, decide_eq_true_eq] at h
  exact h.1

lemma interpolated_reports (hc : c.Live) (hw : WithinLine stop c) (hp : Plain stop c) :
    (c.interpolated stop).reports = c.reports := by
  refine loopWhile_reports (I := fun d => d.Live ∧ WithinLine stop d ∧ Plain stop d)
    (fun d ⟨hd, hwd, hpd⟩ hmore => ?_) ⟨hc, hw, hp⟩
  obtain ⟨hrun, _, hwd'⟩ := run_interpolated_turn (e := true) d hd hwd hmore
  exact ⟨⟨hrun.live, hwd', hpd.of_run hrun⟩, interpolatedPiece_reports hpd (lt_of_more hmore)⟩

lemma part_reports {K : Kind} (hc : c.Live) (hl : stop ≤ c.lineEnd) (hp : Plain stop c) :
    (c.part K stop).reports = c.reports := by
  rw [part]
  split_ifs with h
  · exact interpolated_reports hc.opened ⟨h.le, hl⟩ hp
  · rfl

lemma queryValue_reports (hc : c.Live) (hw : WithinLine stop c) (hp : Plain stop c) :
    (c.queryValue stop).reports = c.reports := by
  rw [queryValue]
  split_ifs with h
  swap
  · rfl
  have hlook := run_look (e := true) hc
  by_cases hs : c.sees .equals
  · rw [on_pos hs]
    obtain ⟨hop, _, hop'⟩ := run_operator_within (e := true) hlook.live ((look_sees c _).trans hs)
      (by decide) (by simpa using h) (hw.2.trans (look_lineEnd c).ge)
    have hb := outsideVariables_bounds paramValueEndKinds hop'.1
    have hpart := part_reports (K := .queryParamValue) hop.live (hb.2.trans hop'.2)
      (((hp.of_run hlook).of_run hop).mono hb.2)
    simpa [operator] using hpart
  · rw [on_neg hs, id, look_reports]

lemma queryParam_build_reports {nameEnd : Nat} (hc : c.Live) (hw : WithinLine stop c)
    (hn : nameEnd ≤ stop) (hp : Plain stop c) :
    (c.node .queryParam fun c => (c.part .queryParamName nameEnd).queryValue stop).reports
      = c.reports := by
  obtain ⟨hname, hread⟩ := run_part (e := true) (K := .queryParamName) hc.opened (hn.trans hw.2)
  have hw' : WithinLine stop (c.opened.part .queryParamName nameEnd) :=
    WithinLine.of_run (c := c.opened) hw hname (by rw [hread]; exact max_le hw.1 hn)
  have hp' : Plain stop c.opened := hp
  rw [node_reports, queryValue_reports hname.live hw' (hp'.of_run hname),
    part_reports hc.opened (hn.trans hw.2) (hp'.mono hn), opened_reports]

lemma queryParam_reports (hc : c.Live) (hw : WithinLine stop c) (hp : Plain stop c) :
    (c.queryParam stop).reports = c.reports := by
  have hb := outsideVariables_bounds queryNameEndKinds hw.1
  simp only [queryParam]
  split_ifs with heq
  · have hlook := run_look (e := true) hc
    by_cases hs : c.sees .equals
    · have hw' : WithinLine stop c.look := hw.of_run hlook (by simpa using hw.1)
      rw [on_pos hs, queryParam_build_reports hlook.live hw' hb.2 (hp.of_run hlook), look_reports]
    · rw [on_neg hs, id, look_reports]
  · exact queryParam_build_reports hc hw hb.2 hp

lemma queryPart_reports {K k : Kind} (hc : c.Live) (hs : c.sees k) (hk : k ≠ .newline)
    (h : c.read < stop) (hl : stop ≤ c.lineEnd) (hp : Plain stop c) :
    (c.queryPart K stop).reports = c.reports := by
  obtain ⟨hop, hread, hw⟩ := run_operator_within (e := true) hc.opened hs hk h hl
  have hp' : Plain stop c.opened := hp
  have hquiet : c.opened.operator.reports = c.reports := by simp [operator]
  simp only [queryPart, node_reports]
  split_ifs
  · rw [queryParam_reports hop.live hw (hp'.of_run hop), hquiet]
  · exact hquiet

lemma fragment_reports (stop : Nat) (c : Cursor) : (c.fragment stop).reports = c.reports := by
  simp [fragment, operator]

lemma urlPiece_reports (hc : c.Live) (h : c.read < stop) (hl : stop ≤ c.lineEnd)
    (hp : Plain stop c) : (c.urlPiece stop).reports = c.reports := by
  have hlook := run_look (e := true) hc
  have hp' := hp.of_run hlook
  rw [← look_reports c]
  rw [← look_read c] at h
  rw [← look_lineEnd c] at hl
  simp only [urlPiece]
  generalize c.look = d at *
  split_ifs with hq ha hh hv
  · exact queryPart_reports hlook.live hq (by decide) h hl hp'
  · exact queryPart_reports hlook.live ha (by decide) h hl hp'
  · exact fragment_reports stop d
  · exact absurd hv (hp'.not_sees h)
  · exact textUntil_reports _ d

/-- **URLs without references** report nothing. -/
lemma urlLine_reports (hc : c.Live) (hw : WithinLine stop c) (hp : Plain stop c) :
    (c.urlLine stop).reports = c.reports := by
  refine loopWhile_reports (I := fun d => d.Live ∧ WithinLine stop d ∧ Plain stop d)
    (fun d ⟨hd, hwd, hpd⟩ hmore => ?_) ⟨hc, hw, hp⟩
  obtain ⟨hrun, _, hwd'⟩ := run_urlLine_turn (e := true) d hd hwd hmore
  exact ⟨⟨hrun.live, hwd', hpd.of_run hrun⟩,
    urlPiece_reports hd (lt_of_more hmore) hwd.2 hpd⟩

end Cursor

end RequestFile
