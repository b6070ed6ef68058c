import RequestFile.Proofs.Compositional
import RequestFile.Proofs.Head

/-!
Productions that stop at a bound.

Text with references, values and the content of a URL stop exactly at a bound on their line, and a
reference does not go beyond it (`landsAt_bound`). This holds of every cursor that has its patience,
whatever has been reported before.

* **Blindness.** A run (`Run`) begins where the reports and the budget are in order. While tokens are
  not limited, what a production takes and builds depends on neither (`Blind`), so it is the same from
  the cursor of which nothing has been reported (`Cursor.muted`).
* **Landing.** So where a run leads from the muted cursor, the production leads from the cursor itself,
  without a fault, and with the tokens up to there below what it has built (`Ready.landsAt`).
-/

namespace RequestFile

open scoped Computability

namespace Cursor

/-- The cursor with an account in which nothing has been reported and there are no limits. -/
def muted (c : Cursor) : Cursor :=
  c.under fun c => ⟨#[], none, ⟨.unlimited, c.read, 0⟩⟩

/-- Tokens are not limited. -/
def Free (c : Cursor) : Prop :=
  c.budget.limits.tokens = none

/-- While tokens are not limited, a production does the same whatever has been reported, and whatever
has been used of the budget. -/
structure Blind (f : Cursor → Cursor) : Prop where
  free : ∀ c, c.Free → (f c).Free
  muted : ∀ c, c.Free → (f c.muted).muted = (f c).muted

variable {f g : Cursor → Cursor} {c c' : Cursor} {k : Nat} {L : TreeLanguage} {stop : Nat}
  {source : String}

lemma free_muted (c : Cursor) : c.muted.Free :=
  rfl

namespace Blind

/-- A production that leaves the account alone. -/
lemma of_plain (hb : ∀ c, (f c).budget = c.budget) (hf : ∀ c, f c.muted = (f c).muted) : Blind f where
  free := fun c h => by rwa [Free, hb]
  muted := fun c _ => by
    rw [hf]
    rfl

lemma andThen (h : Blind f) (h' : Blind g) : Blind fun c => g (f c) where
  free := fun c hc => h'.free _ (h.free c hc)
  muted := fun c hc => by
    rw [← h'.muted _ (h.free _ c.free_muted), h.muted c hc, h'.muted _ (h.free c hc)]

lemma take (k : Kind) (n : Nat) : Blind (take k n) where
  free := fun c hc => hc
  muted := fun c hc => by
    have hover : c.budget.overcharged (c.rest.take n).length = false := by
      rw [Budget.overcharged, hc]
      rfl
    simp only [Cursor.take, hover]
    rfl

lemma fileAt (o : Nat) (x : Diagnostic) : Blind (fileAt o x) where
  free := fun c hc => by
    rw [Cursor.fileAt]
    split <;> exact hc
  muted := fun c _ => by
    rw [Cursor.fileAt, Cursor.fileAt]
    split <;> split <;> rfl

instance : Compositional (fun c => ⟨#[], none, ⟨.unlimited, c.read, 0⟩⟩) Blind where
  skip := of_plain (fun _ => rfl) fun _ => rfl
  andThen := andThen
  seen := fun {α a F} ha h => ⟨fun c => (h _).free c, fun c hc => by
    have heq : a c.muted = a c := ha c
    rw [heq]
    exact (h _).muted c hc⟩
  broken := fun _ => of_plain (fun _ => rfl) fun _ => rfl
  patience := fun _ => of_plain (fun _ => rfl) fun _ => rfl
  take := take
  opened := of_plain (fun _ => rfl) fun _ => rfl
  closed := fun _ _ => of_plain (fun _ => rfl) fun _ => rfl
  fileAt := fileAt

end Blind

/-! ### Where productions stop -/

/-- A cursor between two tokens of a source that has all its patience. Its tokens are not limited, no
limit has been reached, and no promise has been broken. -/
structure Ready (source : String) (c : Cursor) : Prop where
  rest : c.rest = (Token.scan source).drop c.read
  free : c.Free
  exceeded : c.exceeded = none
  patience : c.patience = fullPatience
  fault : c.fault = none

/-- A production leads from `c` to a position, without a fault, and what it has built stands over the
tokens up to there. -/
structure LandsAt (stop : Nat) (c c' : Cursor) : Prop where
  read : c'.read = stop
  rest : c'.rest = c.rest.drop (stop - c.read)
  fault : c'.fault = none
  exceeded : c'.exceeded = none
  grew : ∃ new, c'.built.toList = c.built.toList ++ new ∧
    Tree.Over (c.segment stop) (Tree.leavesOf new)

namespace Ready

lemma live_muted (hc : c.Ready source) : c.muted.Live where
  exceeded := hc.exceeded
  limits := rfl
  charged := rfl
  lexed := by
    rw [show c.muted.rest = _ from hc.rest]
    exact (Token.lexed_scan source).drop _
  reported := fun o ho => by cases ho
  backed := fun h => by cases h

/-- What a run says of the muted cursor holds of the cursor itself. -/
lemma landsAt (hc : c.Ready source) (hf : Blind f) (hrun : Run true k L c.muted (f c.muted))
    (hk : k ≤ fullPatience) (hend : (f c.muted).read = stop) : LandsAt stop c (f c) := by
  have heq := hf.muted c hc.free
  obtain ⟨ts, new, htook, hb, hover, _⟩ := hrun.grew
  have hle : c.read ≤ stop := hrun.read_le.trans_eq hend
  have hts : ts = c.segment stop := htook.eq_take (hend.trans (Nat.add_sub_of_le hle).symm)
  refine ⟨?_, ?_, ?_, ?_, new, ?_, hts ▸ hover⟩
  · exact (congrArg Cursor.read heq).symm.trans hend
  · rw [← hend]
    exact (congrArg Cursor.rest heq).symm.trans hrun.rest_eq
  · refine (congrArg Cursor.fault heq).symm.trans (hrun.safe ?_ hc.fault)
    rw [show c.muted.patience = _ from hc.patience, min_self]
    exact hk
  · exact (congrArg Cursor.exceeded heq).symm.trans hrun.live.exceeded
  · exact (congrArg (·.built.toList) heq).symm.trans hb

end Ready

/-- **Productions with a bound** on the line stop there, and have built what stands in front of it:
text with references, values and the content of a URL exactly there, a reference behind its opener and
not beyond. -/
theorem landsAt_bound (hc : c.Ready source) (hr : c.read ≤ stop) (hl : stop ≤ c.lineEnd) :
    LandsAt stop c (c.interpolated stop) ∧ LandsAt stop c (c.value stop) ∧
      LandsAt stop c (c.urlLine stop) ∧
      (c.sees .varOpen → c.read < stop →
        ∃ behind, c.read < behind ∧ behind ≤ stop ∧ LandsAt behind c (c.variableRef stop)) := by
  have hwithin : WithinLine stop c.muted := ⟨hr, hl⟩
  obtain ⟨htext, htextEnd⟩ := run_interpolated (e := true) hc.live_muted hwithin
  obtain ⟨hvalue, hvalueEnd⟩ := run_optValue (e := true) hc.live_muted hl
  obtain ⟨hurl, hurlEnd⟩ := run_urlLine (e := true) hc.live_muted hwithin
  refine ⟨?_, ?_, ?_, fun hs hlt => ?_⟩
  · exact hc.landsAt (Compositional.interpolated stop) htext (by decide) htextEnd
  · exact hc.landsAt (Compositional.value stop) hvalue (by decide)
      (hvalueEnd.trans (max_eq_right hr))
  · exact hc.landsAt (Compositional.urlLine stop) hurl (by decide) hurlEnd
  · obtain ⟨href, hgt, hle⟩ := run_variableRef (e := true) hc.live_muted hs hlt
    exact ⟨_, hgt, hle, hc.landsAt (Compositional.variableRef stop) href (by decide) rfl⟩

/-- An open reference behind a word, with a limit of depth that leaves no room. -/
theorem landsAt_bound_open : ∃ c : Cursor, c.Ready "a\x7b\x7bb c\n" ∧ c.budget.limits.depth = some 0 ∧
    c.read = 1 ∧ c.lineEnd = 5 ∧ c.sees .varOpen ∧ LandsAt 5 c (c.interpolated 5) ∧
      LandsAt 5 c (c.value 5) ∧ LandsAt 5 c (c.urlLine 5) ∧
      ∃ behind, 1 < behind ∧ behind ≤ 5 ∧ LandsAt behind c (c.variableRef 5) := by
  let c : Cursor := (start ⟨none, some 0⟩ (Token.scan "a\x7b\x7bb c\n")).take .word 1
  have hready : c.Ready "a\x7b\x7bb c\n" := ⟨by decide +kernel, rfl, rfl, rfl, rfl⟩
  have hread : c.read = 1 := by decide +kernel
  have hend : c.lineEnd = 5 := by decide +kernel
  have hsees : c.sees .varOpen := by decide +kernel
  obtain ⟨htext, hvalue, hurl, href⟩ :=
    landsAt_bound hready (by rw [hread]; decide) hend.ge
  exact ⟨c, hready, rfl, hread, hend, hsees, htext, hvalue, hurl,
    hread ▸ href hsees (by rw [hread]; decide)⟩

end Cursor

end RequestFile
