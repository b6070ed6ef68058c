import RequestFile.Proofs.Limits.Faults
import RequestFile.Proofs.Limits.Outcome

/-!
The limit of depth.

A section is one level deep, a request or a response two, a body section three. A parse that may nest
`r` levels deep therefore stops at its limit exactly where the tree that it builds without limits shows
one level more:

* `r = 0`: at the first section, which every source has that is not empty;
* `r = 1`: at the first request or response;
* `r = 2`: at the first body section. Its first line is blank, so it shows as a blank or a line
  terminator directly below a request or a response that stands at the start of a line
  (`Placed.HasBody`).

`Parsed.ofSource_depth` says so of every source; `Parsed.ofSource_not_fault` is what remains of it
where tokens are limited too. Where they run out a promise may break, in two ways, and each of them
does (`Parsed.ofSource_fault_command`, `Parsed.ofSource_fault_url`); there is no third
(`Parsed.excused_of_fault`).
-/

namespace RequestFile

open scoped Computability

/-- Where a line of a source begins. -/
def LineStart (source : String) (o : Nat) : Prop :=
  ∃ a b, source = a ++ b ∧ a.utf8ByteSize = o ∧ endsLine a

/-- A text is cut at a number of bytes in one way only. -/
lemma eq_of_append_of_utf8ByteSize {a b x y : String} (h : a ++ b = x ++ y)
    (hs : a.utf8ByteSize = x.utf8ByteSize) : a = x := by
  have hlist : a.toList ++ b.toList = x.toList ++ y.toList := by
    rw [← String.toList_append, ← String.toList_append, h]
  have hcut : ∀ {s t : String} {cs : List Char}, t.toList = s.toList ++ cs →
      s.utf8ByteSize = t.utf8ByteSize → s = t := fun {s t cs} ht hst => by
    have htext : t = s ++ String.ofList cs := by
      rw [← String.toList_inj, String.toList_append, String.toList_ofList, ht]
    rw [htext, String.utf8ByteSize_append] at hst
    have hempty : String.ofList cs = "" := String.utf8ByteSize_eq_zero_iff.mp (by omega)
    rw [htext, hempty, String.append_empty]
  rcases List.append_eq_append_iff.mp hlist with ⟨cs, hx, _⟩ | ⟨cs, ha, _⟩
  · exact hcut hx hs
  · exact (hcut ha hs.symm).symm

lemma lineStart_append (a b : String) : LineStart (a ++ b) a.utf8ByteSize ↔ endsLine a := by
  constructor
  · rintro ⟨x, y, h, hs, hx⟩
    rwa [eq_of_append_of_utf8ByteSize h hs.symm]
  · exact fun h => ⟨a, b, rfl, rfl, h⟩

namespace Tree

/-- A request or a response. -/
def IsMessage (t : Tree) : Prop :=
  t.IsNodeOf .request ∨ t.IsNodeOf .response

end Tree

/-- Below requests and responses, and in what stands in front of them, there are no others. -/
lemma Form.not_isMessage_of_mem {e : Bool} {L : TreeLanguage} [hL : Form.Whole e false L]
    {w : List Tree} {t : Tree} (hw : w ∈ L) (ht : t ∈ w) : ¬t.IsMessage := by
  intro hmsg
  have hform := ((hL.every w hw).of_mem ht).of_isNode (hmsg.elim And.left And.left)
  rcases hmsg with ⟨_, hk⟩ | ⟨_, hk⟩ <;> rw [hk] at hform <;>
    exact absurd hform (Language.notMem_zero _)

namespace Placed

/-- A tree and what stands in it, the root included. -/
inductive Holds : Placed → Placed → Prop
  | here (x : Placed) : Holds x x
  | child {x y z : Placed} (hy : y ∈ x.children) (hz : Holds y z) : Holds x z

/-- Whether directly below stands a blank or a line terminator at the start of a line, as the first
line of a body section does. -/
def HasBody (source : String) (x : Placed) : Prop :=
  ∃ y ∈ x.children, y.tree.IsBlank ∧ LineStart source y.start

/-- Whether `r` levels are not enough for a request or a response. -/
def OverMessage (source : String) : Nat → Placed → Prop
  | 0, _ => True
  | 1, x => x.HasBody source
  | _, _ => False

/-- Whether `r` levels are not enough for a section. -/
def OverSection (source : String) : Nat → Placed → Prop
  | 0, _ => True
  | r + 1, x => ∃ y ∈ x.children, y.tree.IsMessage ∧ OverMessage source r y

end Placed

lemma Placed.tree_mem {o : Nat} {ts : List Tree} {y : Placed} (hy : y ∈ Placed.sequence o ts) :
    y.tree ∈ ts := by
  obtain ⟨us, t, vs, rfl, rfl⟩ := Placed.mem_sequence.mp hy
  exact List.mem_append_right us List.mem_cons_self

namespace Cursor

variable {source : String} {k r : Nat} {L : TreeLanguage} {c c' : Cursor}

/-! ### Places in a source -/

/-- The cursor stands between two tokens of a source. -/
def In (source : String) (c : Cursor) : Prop :=
  ∃ ts, Took ts (start .unlimited (Token.scan source)) c

lemma In.run (h : In source c) (hrun : Run true k L c c') : In source c' := by
  obtain ⟨ts, ht⟩ := h
  obtain ⟨ts', _, ht', _⟩ := hrun.grew
  exact ⟨ts ++ ts', ht.trans ht'⟩

/-- The turns of a loop keep to the source. -/
lemma Turning.within {I J : Cursor → Prop} {M : TreeLanguage} {t : Turn}
    (h : Turning true k L M I J c t) (hin : In source c) :
    Turning true k L M (fun d => I d ∧ In source d) J c t := by
  cases t with
  | again c' => exact ⟨h.1, h.2.1, h.2.2, hin.run h.1⟩
  | done c' => exact h

lemma In.lowered (h : In source c.freed) : In source c.lowered.opened.freed := by
  obtain ⟨ts, ht⟩ := h
  exact ⟨ts, ht.rest, ht.read, ht.offset, ht.lineStart⟩

/-- A row of trees that is not calm has a blank or a terminator at the start of a line. -/
lemma In.exists_blank_iff {new : List Tree} (h : In source c) (hrun : Run true k L c c')
    (hb : c'.built.toList = c.built.toList ++ new) :
    (∃ y ∈ Placed.sequence c.offset new, y.tree.IsBlank ∧ LineStart source y.start) ↔
      ¬Tree.Calm c.lineStart new := by
  obtain ⟨ts, ht⟩ := h
  obtain ⟨ts', new', ht', hb', hx, _⟩ := hrun.grew
  obtain rfl : new' = new := List.append_cancel_left (hb'.symm.trans hb)
  have hscan : Token.scan source = ts ++ c.rest := ht.rest
  have hlexed := Token.lexed_scan source
  rw [hscan] at hlexed
  have hline : lineBegins true (Token.textOf ts) = c.lineStart := by
    rw [ht.lineStart, hlexed.left.lineBegins_textOf]
    rfl
  have hoffset : c.offset = (Token.textOf ts).utf8ByteSize := by
    rw [ht.offset, Token.sizeOf_eq]
    exact Nat.zero_add _
  -- a tree stands where the text before it ends, in the source and in the row alike
  have hplace : ∀ us t vs, new' = us ++ t :: vs →
      (LineStart source (c.offset + Tree.sizeOf us) ↔
        lineBegins c.lineStart (Tree.textOf us) = true) := by
    intro us t vs hnew
    have hsource : source = (Token.textOf ts ++ Tree.textOf us)
        ++ (Tree.textOf (t :: vs) ++ Token.textOf c'.rest) := by
      calc source = Token.textOf ts ++ Token.textOf c.rest := by
            rw [← Token.textOf_append, ← hscan, Token.textOf_scan]
        _ = Token.textOf ts ++ (Tree.textOf new' ++ Token.textOf c'.rest) := by
            rw [ht'.rest, Token.textOf_append, hx.textOf_eq]
        _ = _ := by rw [hnew, Tree.textOf_append, String.append_assoc, String.append_assoc]
    rw [hoffset, Tree.sizeOf_eq, ← String.utf8ByteSize_append]
    conv_lhs => rw [hsource]
    rw [lineStart_append, endsLine_eq, lineBegins_append, hline]
  rw [Tree.not_calm_iff]
  constructor
  · rintro ⟨y, hy, hblank, hstart⟩
    obtain ⟨us, t, vs, hnew, rfl⟩ := Placed.mem_sequence.mp hy
    exact ⟨us, t, vs, hnew, hblank, (hplace us t vs hnew).mp hstart⟩
  · rintro ⟨us, t, vs, hnew, hblank, hstart⟩
    exact ⟨_, Placed.mem_sequence.mpr ⟨us, t, vs, hnew, rfl⟩, hblank,
      (hplace us t vs hnew).mpr hstart⟩

/-! ### Requests and responses -/

/-- Whether a tree below a request or a response needs another level when there is room for `r`. -/
def OverBody (source : String) (r : Nat) (y : Placed) : Prop :=
  r = 0 ∧ y.tree.IsBlank ∧ LineStart source y.start

/-- **Headers and bodies** after a first line of either kind. -/
lemma outcome_message {line : Cursor → Cursor} (hm : ∀ n, Metered n line) (hc : c.Fits)
    (hr : c.Room r) (hp : k + 32 ≤ min c.patience fullPatience) (hin : In source c.freed)
    (hline : LineRun true k L c.freed (line c.freed)) (hcalm : Calm c.freed (line c.freed)) :
    Outcome (OverBody source r) c (line c).message (line c.freed).message := by
  obtain ⟨hmsg, _⟩ := run_message (e := true) hline.live hline.aligned
  have hrun := hline.toRun.trans hmsg
  cases r with
  | succ r =>
      exact .of_step hc hr ((hm 1).andThen Metered.message) (Nat.le_add_left 1 r) hrun hp
        fun _ _ _ _ _ hover => absurd hover.1 (Nat.succ_ne_zero r)
  | zero =>
      obtain ⟨hhead, _⟩ := run_headerLines (e := true) hline.live hline.aligned
      obtain ⟨hfits, hfree⟩ := hc.step hr ((hm 0).andThen Metered.headerLines) le_rfl
        (hline.toRun.trans hhead) hp
      -- only a body needs a level, and there is one if and only if the row is not calm
      obtain ⟨new, hb, hiff⟩ := calm_message hcalm hline.live hline.aligned
      have hblank := hin.exists_blank_iff hrun hb
      have hbody : (line c.freed).headerLines.atBody = (line c).headerLines.atBody :=
        (congrArg atBody hfree).trans rfl
      rw [hbody] at hiff
      change Outcome _ c (if (line c).headerLines.atBody then (line c).headerLines.bodySection
        else (line c).headerLines) _
      by_cases hat : (line c).headerLines.atBody
      · rw [if_pos hat, bodySection, Cursor.nested_of_no_room
          (hr.of_metered ((hm 0).andThen Metered.headerLines)).no_room]
        obtain ⟨y, hy, hyb⟩ := hblank.mpr (by rw [hiff, hat]; decide)
        refine .stopped new hb hfits.fault ?_ ⟨y, hy, rfl, hyb⟩
        simp [hfits.exceeded]
      · rw [if_neg hat]
        refine .passed new hb hfits.fault hfits.exceeded fun y hy hover => ?_
        exact absurd (hiff.mpr (by simpa using hat)) (hblank.mp ⟨y, hy, hover.2⟩)

/-- What a request or a response needs beyond its own level. -/
lemma overMessage_iff {K : Kind} (hK : K = .request ∨ K = .response) (o : Nat) (ts : List Tree) :
    ((Tree.node K ts).IsMessage ∧ Placed.OverMessage source (r + 1) ⟨o, .node K ts⟩) ↔
      ∃ y ∈ Placed.sequence o ts, OverBody source r y := by
  have hmsg : (Tree.node K ts).IsMessage := hK.imp (⟨rfl, ·⟩) (⟨rfl, ·⟩)
  cases r with
  | zero => simp [hmsg, Placed.OverMessage, Placed.HasBody, OverBody, Placed.children, Tree.children]
  | succ r => simp [hmsg, Placed.OverMessage, OverBody]

/-- **Requests** stop where they need a level that is not there. -/
lemma outcome_request (hc : c.Fits) (hr : c.Room r) (hin : In source c.freed)
    (hurl : c.freed.HasUrl) :
    Outcome (fun y => y.tree.IsMessage ∧ y.OverMessage source r) c c.request c.freed.request := by
  cases r with
  | zero =>
      exact .nested_of_no_room hc hr (run_request hc.live hurl).1
        fun ts => ⟨Or.inl ⟨rfl, rfl⟩, trivial⟩
  | succ r =>
      refine .nested_of_room hr ?_ (overMessage_iff (Or.inl rfl) c.offset)
      exact outcome_message (fun _ => Metered.requestLine) hc.lowered.opened hr.lowered
        (show 151 + 32 ≤ min fullPatience fullPatience by decide) hin.lowered (run_requestLine hc.live.lowered.opened hurl)
        (calm_requestLine hc.live.lowered.opened hurl)

/-- **Responses** stop where they need a level that is not there. -/
lemma outcome_response (hc : c.Fits) (hr : c.Room r) (hin : In source c.freed)
    (hv : Lookahead.isVersion c.rest) :
    Outcome (fun y => y.tree.IsMessage ∧ y.OverMessage source r) c c.response c.freed.response := by
  cases r with
  | zero =>
      exact .nested_of_no_room hc hr (run_response hc.live hv).1
        fun ts => ⟨Or.inr ⟨rfl, rfl⟩, trivial⟩
  | succ r =>
      refine .nested_of_room hr ?_ (overMessage_iff (Or.inr rfl) c.offset)
      exact outcome_message (fun _ => Metered.responseLine) hc.lowered.opened hr.lowered
        (show 5 + 32 ≤ min fullPatience fullPatience by decide) hin.lowered (run_responseLine hc.live.lowered.opened hv)
        (calm_responseLine hc.live.lowered.opened hv)

/-! ### Sections -/

/-- **Lines in front of a request** need no level; the request or the response may need some. -/
lemma outcome_preambleTurn (hc : c.Fits) (hr : c.Room r) (ha : c.Aligned) (hin : In source c.freed)
    (hp : 55 ≤ min c.patience fullPatience) :
    Outcome (fun y => y.tree.IsMessage ∧ y.OverMessage source r) c (preambleTurn c).cursor
      (preambleTurn c.freed).cursor := by
  by_cases hstop : (c.stopped || c.atSeparator) = true
  · have heq : preambleTurn c = .done c := by rw [preambleTurn_eq, if_pos hstop]
    have heq' : preambleTurn c.freed = .done c.freed := by
      rw [preambleTurn_eq]
      exact if_pos hstop
    rw [heq, heq']
    exact .refl hc
  generalize hline : PreambleLine.ofTokens (Lookahead.skipBlanks c.rest) = line
  have heq : preambleTurn c = preambleItem line c.eatBlank := by
    rw [preambleTurn_eq, if_neg hstop, hline]
  have heq' : preambleTurn c.freed = preambleItem line c.freed.eatBlank := by
    rw [preambleTurn_eq, ← hline]
    exact if_neg hstop
  -- only the lines that begin a message nest, so the others need no level
  by_cases hmsg : line.isMessage
  · obtain ⟨hblank, _⟩ := run_eatBlank (e := true) hc.live
    have hbegins : PreambleLine.Begins c.freed.eatBlank.rest line := by
      rw [rest_eatBlank hc.live, ← hline]
      exact PreambleLine.begins_ofTokens _
    have hfirst := Outcome.of_step
      (X := fun y => y.tree.IsMessage ∧ y.OverMessage source r) hc hr Metered.eatBlank
      (Nat.zero_le r) hblank (by omega) fun w hw o y hy hover =>
        Form.not_isMessage_of_mem (e := true) hw (Placed.tree_mem hy) hover.1
    obtain ⟨hfits, hfree⟩ := hc.step hr Metered.eatBlank (Nat.zero_le r) hblank (by omega)
    have hin' := hin.run hblank
    have hr' : c.eatBlank.Room r := hr.of_metered (Metered.eatBlank (n := 0))
    have hurl : line = .request → c.freed.eatBlank.HasUrl := by
      rintro rfl
      obtain ⟨t, us, hrest, hk⟩ := hbegins
      exact hasUrl_eatBlank hc.live hrest hk
    rw [heq, heq', hfree]
    rw [hfree] at hfirst hblank hin' hurl hbegins
    refine hfirst.trans hfits.exceeded hblank ?_
    cases line with
    | response => exact outcome_response hfits hr' hin' hbegins
    | request => exact outcome_request hfits hr' hin' (hurl rfl)
    | _ => cases hmsg
  · have hturning := run_preambleTurn (e := true) hc.live ha
    rw [heq'] at hturning
    have hgo : (preambleItem line c.freed.eatBlank).goesOn := by
      cases line <;> first | rfl | exact absurd rfl hmsg
    rw [heq, heq']
    exact .of_step hc hr (MeteredTurn.after Metered.eatBlank
      (Metered.preambleItem (n := 0) line fun h => absurd h hmsg)).run (Nat.zero_le r)
      (hturning.of_goesOn hgo).1 hp fun w hw o y hy hover =>
        Form.not_isMessage_of_mem (e := true) hw (Placed.tree_mem hy) hover.1

/-- **Sections** stop where they need a level that is not there. -/
lemma outcome_fullSection (hc : c.Fits) (hr : c.Room r) (ha : c.Aligned)
    (hin : In source c.freed) :
    Outcome (Placed.OverSection source r) c c.fullSection c.freed.fullSection := by
  cases r with
  | zero => exact .nested_of_no_room hc hr (run_fullSection hc.live ha).1 fun _ => trivial
  | succ r =>
      refine .nested_of_room hr ?_ fun _ => Iff.rfl
      have hfits := hc.lowered.opened
      have hroom : c.lowered.opened.Room r := hr.lowered
      have hin' := hin.lowered
      have ha' : c.lowered.opened.Aligned := ha
      have hp : fullPatience ≤ c.lowered.opened.patience := le_rfl
      generalize c.lowered.opened = d at *
      -- first the separator, which never nests, and then the loop over the lines behind it
      obtain ⟨hsep, hasep⟩ := run_optSeparator (e := true) hfits.live ha'
      have hmetered : Metered 0 fun d : Cursor => if d.atSeparator then d.separator else d :=
        .ite (p := fun d => d.atSeparator = true) (fun _ => Iff.rfl) Metered.separator .id
      have hfull : fullPatience = 256 := rfl
      have hfirst := Outcome.of_step
        (X := fun y => y.tree.IsMessage ∧ y.OverMessage source r) hfits hroom hmetered
        (Nat.zero_le r) hsep (by omega) fun w hw o y hy hover =>
          Form.not_isMessage_of_mem (e := true) hw (Placed.tree_mem hy) hover.1
      obtain ⟨hfits', hfree⟩ := hfits.step hroom hmetered (Nat.zero_le r) hsep (by omega)
      have hroom' := hroom.of_metered hmetered
      have hin'' := hin'.run hsep
      have hpatient := hsep.patient
      rw [hfree] at hfirst hsep hin'' hasep hpatient
      change Outcome _ d (loop preambleTurn (if d.atSeparator then d.separator else d))
        (loop preambleTurn (if d.freed.atSeparator then d.freed.separator else d.freed))
      rw [hfree]
      generalize (if d.atSeparator then d.separator else d) = f at *
      have hf : f.freed.patience = f.patience := rfl
      have hd : d.freed.patience = d.patience := rfl
      refine hfirst.trans hfits'.exceeded hsep ?_
      exact .iterate (by decide) Metered.preambleTurn
        (fun _ hc hi => (run_preambleTurn hc hi.1).within hi.2)
        (fun c hc => by rw [preambleTurn_eq, hc]; rfl)
        (fun c hc hr hi hp => outcome_preambleTurn hc hr hi.1 hi.2 hp)
        _ hfits' hroom' ⟨hasep, hin''⟩ (by omega) (Nat.lt_succ_self _)

/-- **All sections.** -/
lemma outcome_sections (hc : c.Fits) (hr : c.Room r) (ha : c.Aligned) (hin : In source c.freed) :
    Outcome (Placed.OverSection source r) c c.sections c.freed.sections := by
  have hmetered : MeteredTurn 3 fun c : Cursor =>
      if !c.stopped then .again c.fullSection else .done c :=
    .ite (p := fun c : Cursor => (!c.stopped) = true) (fun _ => Iff.rfl) (.again Metered.fullSection)
      (.done .id)
  refine .iterate (by decide) hmetered
    (fun _ hc hi => (turning_while run_section_turn _ hc hi.1).within hi.2)
    (fun c hc => by simp [hc]) (fun c hc hr hi hp => ?_)
    _ hc hr ⟨ha, hin⟩ (Nat.zero_le _) (Nat.lt_succ_self _)
  by_cases hstop : c.stopped
  · have hstop' : c.freed.stopped := hstop
    simp only [hstop, hstop']
    exact .refl hc
  · have hstop' : ¬c.freed.stopped := hstop
    simp only [hstop, hstop']
    exact outcome_fullSection hc hr hi.1 hi.2

lemma fits_start {limits : Limits} (source : String)
    (ht : ∀ l, limits.tokens = some l → (Token.scan source).length ≤ l) :
    (start limits (Token.scan source)).Fits :=
  ⟨live_start source, rfl, fun l hl => (Nat.zero_add _).trans_le (ht l hl)⟩

/-- How a parse ends that has tokens enough. -/
lemma outcome_start {limits : Limits} (source : String)
    (ht : ∀ l, limits.tokens = some l → (Token.scan source).length ≤ l)
    (hr : limits.depth = some r) :
    Outcome (Placed.OverSection source r) (start limits (Token.scan source))
      (start limits (Token.scan source)).sections
      (start .unlimited (Token.scan source)).sections :=
  outcome_sections (fits_start source ht) (hr.trans (congrArg some (Nat.zero_add r).symm))
    (Or.inr rfl) ⟨[], .refl _⟩

end Cursor

/-! ### Where requests and responses stand -/

namespace Placed

/-- What holds for every node of a tree holds for every node in it. -/
lemma Holds.every {P : Tree → Prop} {x y : Placed} (h : Holds x y) (hx : Tree.Every P x.tree) :
    Tree.Every P y.tree := by
  induction h with
  | here => exact hx
  | child hy _ ih => exact ih (hx.children.of_mem (tree_mem hy))

/-- What stands in trees without requests and responses is neither. -/
lemma Holds.not_isMessage {L : TreeLanguage} [hL : Form.Whole true false L] {w : List Tree}
    {x y : Placed} (h : Holds x y) (hx : x.tree ∈ w) (hw : w ∈ L) : ¬y.tree.IsMessage := by
  intro hmsg
  have hform := (h.every ((hL.every w hw).of_mem hx)).of_isNode (hmsg.elim And.left And.left)
  rcases hmsg with ⟨_, hk⟩ | ⟨_, hk⟩ <;> rw [hk] at hform <;>
    exact absurd hform (Language.notMem_zero _)

/-- A request or a response has no other below it. -/
lemma Holds.eq_of_node {K : Kind} {L : TreeLanguage} [Form.Whole true false L] {w : List Tree}
    {x y : Placed} (h : Holds x y) (hx : x.tree ∈ w) (hw : w ∈ Form.node K L)
    (hmsg : y.tree.IsMessage) : y = x := by
  obtain ⟨ts, hts, rfl⟩ := hw
  cases h with
  | here => rfl
  | child hy hz =>
      have hmem := tree_mem hy
      rw [List.mem_singleton.mp hx] at hmem
      exact absurd hmsg (hz.not_isMessage hmem hts)

/-- **Requests and responses** stand directly below sections. -/
lemma Holds.mem_children {new : List Tree} {x : Placed} (hnew : new ∈ Form.sections true)
    (h : Holds ⟨0, .node .document new⟩ x) (hmsg : x.tree.IsMessage) :
    ∃ y ∈ sequence 0 new, x ∈ y.children := by
  cases h with
  | here => rcases hmsg with ⟨_, hk⟩ | ⟨_, hk⟩ <;> cases hk
  | @child _ y _ hy hz =>
      obtain ⟨ws, rfl, hws⟩ := Language.mem_kstar.mp hnew
      obtain ⟨w, hw, hyw⟩ := List.mem_flatten.mp (tree_mem hy)
      obtain ⟨ts, hts, rfl⟩ := hws w hw
      have htree := List.mem_singleton.mp hyw
      refine ⟨y, hy, ?_⟩
      cases hz with
      | here =>
          rw [htree] at hmsg
          rcases hmsg with ⟨_, hk⟩ | ⟨_, hk⟩ <;> cases hk
      | @child _ z _ hz hx =>
          -- of the rows below a section only the last one has a message, which is itself what holds
          suffices x = z by rwa [this]
          have hzt := tree_mem hz
          rw [htree] at hzt
          obtain ⟨sep, hsep, body, hbody, rfl⟩ := Language.mem_mul.mp hts
          obtain ⟨front, hfront, last, hlast, rfl⟩ := Language.mem_mul.mp hbody
          simp only [Tree.children, List.mem_append] at hzt
          rcases hzt with hzt | hzt | hzt
          · exact absurd hmsg (hx.not_isMessage hzt hsep)
          · exact absurd hmsg (hx.not_isMessage hzt hfront)
          · rcases hlast with hlast | hlast
            · exact absurd hmsg (hx.not_isMessage hzt hlast)
            obtain ⟨blank, hblank, message, hmessage, rfl⟩ := Language.mem_mul.mp hlast
            rcases List.mem_append.mp hzt with hzt | hzt
            · exact absurd hmsg (hx.not_isMessage hzt hblank)
            · rcases hmessage with hmessage | hmessage
              · exact hx.eq_of_node hzt hmessage hmsg
              · exact hx.eq_of_node hzt hmessage hmsg

/-- What `r` levels are not enough for, from the document down. -/
lemma exists_overSection_iff {source : String} {new : List Tree} (hnew : new ∈ Form.sections true)
    (r : Nat) :
    (∃ y ∈ sequence 0 new, y.OverSection source (r + 1)) ↔
      ∃ x, Holds ⟨0, .node .document new⟩ x ∧ x.tree.IsMessage ∧ x.OverMessage source r := by
  constructor
  · rintro ⟨y, hy, x, hx, hmsg, hover⟩
    exact ⟨x, .child hy (.child hx (.here x)), hmsg, hover⟩
  · rintro ⟨x, hx, hmsg, hover⟩
    obtain ⟨y, hy, hx⟩ := hx.mem_children hnew hmsg
    exact ⟨y, hy, x, hx, hmsg, hover⟩

end Placed

/-! ### Whole parses -/

namespace Parsed

/-- Whether the tree of a source needs more than `r` levels. -/
def TooDeep (source : String) (tree : Tree) : Nat → Prop
  | 0 => source ≠ ""
  | 1 => ∃ x, Placed.Holds ⟨0, tree⟩ x ∧ x.tree.IsMessage
  | 2 => ∃ x, Placed.Holds ⟨0, tree⟩ x ∧ x.tree.IsMessage ∧ x.HasBody source
  | _ => False

/-- A parse stops at its limit of depth where a section needs a level more. -/
lemma tooDeep_iff {source : String} {new : List Tree} (hnew : new ∈ Form.sections true)
    (hempty : source = "" ↔ new = []) (r : Nat) :
    (∃ y ∈ Placed.sequence 0 new, y.OverSection source r) ↔
      TooDeep source (.node .document new) r := by
  match r with
  | 0 =>
      rw [TooDeep, ne_eq, hempty]
      cases new with
      | nil => simp [Placed.sequence]
      | cons t ts => exact ⟨fun _ => List.cons_ne_nil t ts,
          fun _ => ⟨⟨0, t⟩, List.mem_cons_self, trivial⟩⟩
  | 1 => simp [Placed.exists_overSection_iff hnew, TooDeep, Placed.OverMessage]
  | 2 => simp [Placed.exists_overSection_iff hnew, TooDeep, Placed.OverMessage]
  | r + 3 => simp [Placed.exists_overSection_iff hnew, TooDeep, Placed.OverMessage]

/-- The document is empty if the source is. -/
lemma eq_empty_iff {source : String} {p : Parsed} {new : List Tree} (hp : p.Complete source)
    (hnew : p.tree = .node .document new)
    (hb : (Cursor.start .unlimited (Token.scan source)).sections.built.toList = new) :
    source = "" ↔ new = [] := by
  constructor
  · rintro rfl
    rw [← hb, Cursor.sections_of_nil rfl]
    rfl
  · rintro rfl
    rw [← hp.lossless, hnew]
    rfl

/-- A parse whose cursor has reached a limit without a fault reports that limit. -/
lemma ofSource_eq_limit {limits : Limits} {source : String} {l : Limit}
    (hf : (Cursor.start limits (Token.scan source)).sections.fault = none)
    (hx : (Cursor.start limits (Token.scan source)).sections.exceeded = some l) :
    ofSource limits source = .error (.limit l) := by
  rw [ofSource, ofCursor, hf, hx]

/-- What a parse finds that has tokens enough and may nest `r` levels deep. -/
lemma ofSource_of_depth {limits : Limits} {r : Nat} (source : String)
    (ht : ∀ l, limits.tokens = some l → (Token.scan source).length ≤ l)
    (hr : limits.depth = some r) :
    ∃ p, ofSource .unlimited source = .ok p ∧
      ((TooDeep source p.tree r ∧ ofSource limits source = .error (.limit .depth)) ∨
        (¬TooDeep source p.tree r ∧ ofSource limits source = .ok p)) := by
  obtain ⟨p, hp, hcomplete⟩ := ofSource_unlimited source
  obtain ⟨new, hnew, hdoc⟩ := hcomplete.form true fun _ => rfl
  have htree : p.tree = .node .document new := List.singleton_inj.mp hdoc
  have hb : (Cursor.start .unlimited (Token.scan source)).sections.built.toList = new := by
    rw [(ofSource_eq_ok.mp hp).1] at htree
    exact (Tree.node.inj htree).2
  have hdeep := tooDeep_iff hnew (eq_empty_iff hcomplete htree hb) r
  refine ⟨p, hp, ?_⟩
  rw [htree, ← hdeep]
  cases Cursor.outcome_start source ht hr with
  | passed new' hb' hf hx hall =>
      obtain rfl : new = new' := hb.symm.trans hb'
      refine Or.inr ⟨fun ⟨y, hy, hover⟩ => hall y hy hover, ?_⟩
      rw [ofSource_eq_of_exceeded hx, hp]
  | stopped new' hb' hf hx hsome =>
      obtain rfl : new = new' := hb.symm.trans hb'
      exact Or.inl ⟨hsome, ofSource_eq_limit hf hx⟩

/-- **The limit of depth is exact**: a parse that may nest `r` levels deep reports that limit exactly
where the tree of the parse without limits needs more levels, and otherwise finds what that one
finds. -/
theorem ofSource_depth (source : String) (r : Nat) :
    ∃ p, ofSource .unlimited source = .ok p ∧
      ((TooDeep source p.tree r ∧ ofSource ⟨none, some r⟩ source = .error (.limit .depth)) ∨
        (¬TooDeep source p.tree r ∧ ofSource ⟨none, some r⟩ source = .ok p)) :=
  ofSource_of_depth source (fun _ h => by cases h) rfl

/-- **Faults only for want of tokens**: whatever the limit of depth, a parse that is allowed all
tokens of its source succeeds or reports that limit, so no promise is broken. -/
theorem ofSource_not_fault {limits : Limits} {source : String}
    (ht : ∀ l, limits.tokens = some l → (Token.scan source).length ≤ l) :
    (∃ p, ofSource limits source = .ok p) ∨ ofSource limits source = .error (.limit .depth) := by
  cases hr : limits.depth with
  | none =>
      obtain ⟨p, hp, _⟩ := ofSource_unlimited source
      exact Or.inl ⟨p, (ofSource_eq_of_room ht fun r h => by simp [hr] at h).trans hp⟩
  | some r =>
      obtain ⟨p, _, ⟨_, hlimit⟩ | ⟨_, hok⟩⟩ := ofSource_of_depth source ht hr
      · exact Or.inr hlimit
      · exact Or.inl ⟨p, hok⟩

/-- A command with arguments that is allowed its fifteen tokens and one level. -/
theorem ofSource_not_fault_command :
    (∃ p, ofSource ⟨some 15, some 1⟩ "run a\x7b\x7bb\x7d\x7dc (@x=1)\n" = .ok p) ∨
      ofSource ⟨some 15, some 1⟩ "run a\x7b\x7bb\x7d\x7dc (@x=1)\n" = .error (.limit .depth) :=
  ofSource_not_fault (by decide +kernel)

/-- Without them it may break a promise: after three tokens the value of the command is cut short, and
the arguments that were seen ahead do not begin where it ends. -/
theorem ofSource_fault_command :
    ofSource ⟨some 3, none⟩ "run a\x7b\x7bb\x7d\x7dc (@x=1)\n"
      = .error (.fault (.misplaced .parenOpen)) := by
  have hfault : (Cursor.start ⟨some 3, none⟩
      (Token.scan "run a\x7b\x7bb\x7d\x7dc (@x=1)\n")).sections.fault
        = some (.misplaced .parenOpen) := by decide +kernel
  rw [ofSource, ofCursor, hfault]

/-- The other promise is broken where a URL goes on: without tokens nothing of its first line is taken,
and the question whether another line follows is asked until the cursor is stuck. -/
theorem ofSource_fault_url :
    ofSource ⟨some 0, none⟩ "GET a\n b\n" = .error (.fault .stuck) := by
  have hfault : (Cursor.start ⟨some 0, none⟩ (Token.scan "GET a\n b\n")).sections.fault
      = some .stuck := by decide +kernel
  rw [ofSource, ofCursor, hfault]

end Parsed

end RequestFile
