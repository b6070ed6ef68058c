import RequestFile.Proofs.Canonical.Interpolation
import RequestFile.Proofs.Canonical.Single
import RequestFile.Proofs.Placed
import RequestFile.Proofs.Validity

/-!
Parsing command lines back.

A `CommandModel` is a command about a value of words and references. The document of any number of
such lines has no diagnostics, and its commands are those of the models: their values are whole, they
have no arguments, and the references are closed and have their names
(`CommandsModel.parse_commands`).

* **Arguments.** The arguments of a command begin at a parenthesis with `@` or `)` behind it, and the
  search for it does not pass over references. So a name in a reference may hold parentheses, but none
  with `@` or `)` behind it (`CommandPart.inert`): such a one cuts the value short
  (`CommandsModel.not_parse_commands`).
* **Lines.** A line is one turn of the loop over the lines of a section (`Cursor.exact_commandTurn`),
  and the lines are read by induction on their number (`Cursor.exact_commandLines`).
-/

namespace RequestFile

open Lookahead (IsName)

/-! ### Lines -/

/-- The characters that words do not hold. -/
def wordStops : List Char :=
  ['(', ')', '\x7b', '\x7d', '\n', '\r']

/-- Words on one line, without parentheses and braces. -/
def PlainWords (s : String) : Prop :=
  ∀ c ∈ s.toList, c ∉ wordStops

instance decidablePlainWords (s : String) : Decidable (PlainWords s) :=
  inferInstanceAs (Decidable (∀ c ∈ s.toList, c ∉ wordStops))

namespace Token

variable {s : String} {b : Bool}

lemma not_mem_of_words (h : PlainWords s) {t : Token} (ht : t ∈ scanFrom b 0 s.toList) {x : Char}
    (hx : x ∈ wordStops) : x ∉ t.text.toList :=
  fun hmem => h x ((infix_of_mem_scanFrom ht).subset hmem) hx

/-- Words open no reference. -/
lemma unopened_words (h : PlainWords s) (b : Bool) : Unopened (scanFrom b 0 s.toList) := by
  refine fun t ht => ⟨newline_of_oneLine (fun c hc => ?_) b t ht, fun hk => ?_⟩
  · constructor <;> rintro rfl <;> exact h _ hc (by decide)
  · exact not_mem_of_words h ht (x := '\x7b') (by decide) (by rw [text_of_varOpen ht hk]; simp)

/-- No parenthesis opens in words. -/
lemma parenOpen_of_words (h : PlainWords s) (b : Bool) :
    ∀ t ∈ scanFrom b 0 s.toList, t.kind ≠ .parenOpen := by
  intro t ht hk
  have htext : t.text = "(" :=
    (lexeme_of_mem_scanFrom b _ t ht).text_eq hk (by decide) (by decide)
  exact not_mem_of_words h ht (x := '(') (by decide) (by rw [htext]; simp)

end Token

/-- A reference in the value of a command, with the words behind it. No parenthesis in the name is
taken for the one that opens arguments. -/
structure CommandPart where
  id : String
  after : String
  name : IsName (Token.scanFrom false 0 id.toList)
  inert : Lookahead.argumentsOffset? (Token.scanFrom false 0 id.toList) = none
  plain : PlainWords after

namespace CommandPart

variable (p : CommandPart)

/-- The text of the reference and of the words behind it. -/
def text : String :=
  "\x7b\x7b" ++ p.id ++ "\x7d\x7d" ++ p.after

/-- The reference and the words behind it, by their tokens. -/
def part : ReferencePart where
  name := Token.scanFrom false 0 p.id.toList
  after := Token.scanFrom false 0 p.after.toList
  isName := p.name
  unopened := Token.unopened_words p.plain false

/-- The reference that is read. -/
def reference : Variable :=
  ⟨"\x7b\x7b" ++ p.id ++ "\x7d\x7d", some p.id, true⟩

/-- The text of words and of references with words behind them. -/
def valueText (first : String) (parts : List CommandPart) : String :=
  first ++ String.join (parts.map text)

end CommandPart

/-- A command line: its name, and a value of words and references. -/
structure CommandModel where
  name : String
  first : String
  parts : List CommandPart
  known : name ∈ Lookahead.commandNames
  plain : PlainWords first
  value_ne : CommandPart.valueText first parts ≠ ""
  value_first : ∀ c ∈ (CommandPart.valueText first parts).toList.head?, isBlank c = false
  value_last : ∀ c ∈ (CommandPart.valueText first parts).toList.getLast?, isBlank c = false

namespace CommandModel

variable (m : CommandModel) (b : Bool)

/-- The value. -/
def value : String :=
  CommandPart.valueText m.first m.parts

/-- The line, without its terminator. -/
def line : String :=
  m.name ++ " " ++ m.value

/-- The value by its tokens. -/
def reading : Interpolation where
  front := Token.scanFrom false 0 m.first.toList
  parts := m.parts.map CommandPart.part
  unopened := Token.unopened_words m.plain false

/-- The references that are read. -/
def references : List Variable :=
  m.parts.map CommandPart.reference

/-- The tokens of the line, with its terminator or without. -/
def tokens : List Token :=
  ⟨.word, m.name⟩ :: Token.blank :: (m.reading.tokens ++ Token.ending b)

/-- The tree of the line. -/
def tree : Tree :=
  .node .command ([.node .commandName [.leaf .text m.name], .leaf .whitespace " ",
    .node .value m.reading.trees] ++ Cursor.endTrees b)

/-- A command says what the line says: its name, the whole value with its references, each closed and
with its name, and no arguments. -/
structure Describes (m : CommandModel) (k : Command) : Prop where
  name : k.nameText = m.name
  value : k.value.map (·.text) = some m.value
  references : k.value.map (·.references) = some m.references
  arguments : k.arguments = []

end CommandModel

/-- Command lines. The last one may lack its terminator. -/
structure CommandsModel where
  init : List CommandModel
  last : CommandModel
  terminated : Bool

namespace CommandsModel

variable (m : CommandsModel)

/-- All lines. -/
def commands : List CommandModel :=
  m.init ++ [m.last]

/-- The lines as a source. -/
def source : String :=
  unlines (m.init.map CommandModel.line) ++ (m.last.line ++ endText m.terminated)

/-- The tokens of some lines and the last. -/
def linesTokens (ms : List CommandModel) : List Token :=
  ms.flatMap (CommandModel.tokens · true) ++ m.last.tokens m.terminated

/-- The trees of some lines and the last. -/
def linesTrees (ms : List CommandModel) : List Tree :=
  ms.map (CommandModel.tree · true) ++ [m.last.tree m.terminated]

end CommandsModel

/-! ### Tokens -/

namespace Token

variable (m : CommandModel)

/-- **References** are scanned apart from the words between them. -/
lemma scanFrom_parts (ps : List CommandPart) {cs : List Char}
    (hcs : ∀ c ∈ cs.getLast?, c ≠ '\x7b') (b : Bool) :
    scanFrom b 0 (cs ++ (String.join (ps.map CommandPart.text)).toList)
      = scanFrom b 0 cs ++ (ps.map CommandPart.part).flatMap ReferencePart.tokens := by
  induction ps generalizing cs b with
  | nil => simp
  | cons p ps ih =>
      have htext : (String.join ((p :: ps).map CommandPart.text)).toList = '\x7b' :: '\x7b' ::
          (p.id.toList ++ '\x7d' :: '\x7d' :: (p.after.toList
            ++ (String.join (ps.map CommandPart.text)).toList)) := by
        simp [CommandPart.text]
      have hborders : Borders cs ('\x7b' :: '\x7b' :: (p.id.toList ++ '\x7d' :: '\x7d' ::
          (p.after.toList ++ (String.join (ps.map CommandPart.text)).toList))) := by
        intro x hx y hy
        obtain rfl := Option.some.inj hy
        refine parted_of_mark (by decide) (fun h => absurd h (by decide)) (by decide)
          fun q hq hqy hqx => hcs x hx ?_
        rw [← hqx]
        exact (by decide : ∀ q ∈ pairs, q.1.2 = '\x7b' → q.1.1 = '\x7b') q hq hqy
      have hlast : ∀ c ∈ p.after.toList.getLast?, c ≠ '\x7b' := by
        rintro c hc rfl
        exact p.plain _ (List.mem_of_getLast? hc) (by decide)
      rw [htext, scanFrom_append_of_borders hborders, scanFrom_reference p.name, ih hlast false]
      simp [ReferencePart.tokens, ReferencePart.reference, CommandPart.part]

lemma scanFrom_value : scanFrom false 0 m.value.toList = m.reading.tokens := by
  have hlast : ∀ c ∈ m.first.toList.getLast?, c ≠ '\x7b' := by
    rintro c hc rfl
    exact m.plain _ (List.mem_of_getLast? hc) (by decide)
  rw [CommandModel.value, CommandPart.valueText, String.toList_append, scanFrom_parts m.parts hlast]
  rfl

lemma textOf_reading : textOf m.reading.tokens = m.value := by
  rw [← scanFrom_value, textOf_scanFrom_toList]

/-- The value stands on one line. -/
lemma oneLine_value : OneLine m.value := by
  refine oneLine_of_newline (b := false) ?_
  rw [scanFrom_value]
  exact m.reading.newline_of_tokens

lemma oneLine_line : OneLine m.line := by
  have hname : ∀ s ∈ Lookahead.commandNames, OneLine (s ++ " ") := by decide
  intro c hc
  rw [CommandModel.line, String.toList_append, List.mem_append] at hc
  exact hc.elim (hname _ m.known c) (oneLine_value m c)

lemma scan_line : scan m.line = ⟨.word, m.name⟩ :: blank :: m.reading.tokens := by
  have hname : ∀ s ∈ Lookahead.commandNames, scanFrom true 0 s.toList = [⟨.word, s⟩] ∧
      ∀ c ∈ s.toList.getLast?, c ≠ '\r' ∧ isBlank c = false := by
    decide
  obtain ⟨hscan, hlast⟩ := hname m.name m.known
  have hstop : ∀ c ∈ m.name.toList.getLast?, Stops c ' ' := fun c hc =>
    ⟨by decide, (hlast c hc).1, fun _ => (hlast c hc).2⟩
  have hvalue : ∀ d ∈ m.value.toList.head?, isBlank d = false := m.value_first
  have htext : m.line.toList = m.name.toList ++ ' ' :: m.value.toList := by
    simp [CommandModel.line]
  rw [scan, htext, scanFrom_stop hstop (by decide), hscan, scanFrom_space _ _ hvalue,
    scanFrom_value]
  rfl

/-- **The tokens** of command lines. -/
lemma scan_commands (m : CommandsModel) : scan m.source = m.linesTokens m.init := by
  have hinit : ∀ l ∈ m.init.map CommandModel.line, OneLine l := by
    simpa using fun k _ => oneLine_line k
  have hlast : ∀ c ∈ m.last.line.toList.getLast?, c ≠ '\r' := fun c hc =>
    (oneLine_line m.last c (List.mem_of_getLast? hc)).2
  have hend : scan (m.last.line ++ endText m.terminated) = m.last.tokens m.terminated := by
    rw [scan, String.toList_append, scanFrom_ending hlast, ← scan, scan_line]
    rfl
  have hline : ∀ k : CommandModel, lineTokens k.line = k.tokens true := fun k => by
    rw [lineTokens, scan_line]
    rfl
  rw [CommandsModel.source, scan_unlines_append hinit, hend, List.flatMap_map,
    CommandsModel.linesTokens]
  simp only [hline]

end Token

/-! ### The search for arguments -/

namespace Lookahead

variable {ts us : List Token} {t : Token} {k : Kind}

/-- Where a token is no blank and not of a kind, it makes no difference to what is seen in front. -/
lemma startsWith_skipBlanks_append (ts : List Token) (hw : t.kind ≠ .whitespace) (hk : t.kind ≠ k)
    (us : List Token) :
    startsWith k (skipBlanks (ts ++ t :: us)) = startsWith k (skipBlanks ts) := by
  induction ts with
  | nil =>
      rw [List.nil_append, skipBlanks_cons, if_neg hw, startsWith_cons]
      simpa [skipBlanks] using hk
  | cons x ts ih =>
      rw [List.cons_append, skipBlanks_cons, skipBlanks_cons]
      split_ifs
      · exact ih
      · rfl

/-- No arguments begin in tokens with a closer of a reference between them if none begin on either
side. -/
lemma argumentsOffset?_append (hts : argumentsOffset? ts = none) (ht : t.kind = .varClose)
    (hus : argumentsOffset? us = none) : argumentsOffset? (ts ++ t :: us) = none := by
  induction ts with
  | nil => simp [argumentsOffset?, ht, hus]
  | cons x ts ih =>
      rw [argumentsOffset?] at hts
      rw [List.cons_append, argumentsOffset?]
      rw [startsWith_skipBlanks_append ts (by simp [ht]) (by simp [ht]),
        startsWith_skipBlanks_append ts (by simp [ht]) (by simp [ht])]
      split_ifs at hts ⊢
      rw [ih (Option.map_eq_none_iff.mp hts)]
      rfl

/-- Without a parenthesis no arguments begin. -/
lemma argumentsOffset?_of_plain (hts : ∀ t ∈ ts, t.kind ≠ .parenOpen)
    (hus : argumentsOffset? us = none) : argumentsOffset? (ts ++ us) = none := by
  induction ts with
  | nil => exact hus
  | cons x ts ih =>
      obtain ⟨hx, hts⟩ := List.forall_mem_cons.mp hts
      simp [argumentsOffset?, hx, ih hts]

/-- **No arguments** begin in the value of a command line. -/
lemma argumentsOffset?_reading (m : CommandModel) : argumentsOffset? m.reading.tokens = none := by
  refine argumentsOffset?_of_plain (Token.parenOpen_of_words m.plain false) ?_
  rw [CommandModel.reading]
  dsimp only
  induction m.parts with
  | nil => rfl
  | cons p ps ih =>
      have hafter := argumentsOffset?_of_plain (Token.parenOpen_of_words p.plain false) ih
      have hname := argumentsOffset?_append p.inert (t := Token.varClose) rfl hafter
      have hopen : ∀ t ∈ [Token.varOpen], t.kind ≠ .parenOpen := by decide
      have hpart := argumentsOffset?_of_plain hopen hname
      simpa [ReferencePart.tokens, ReferencePart.reference, CommandPart.part] using hpart

end Lookahead

/-! ### Runs -/

namespace Cursor

variable {b : Bool} {us : List Token} {c : Cursor} (m : CommandModel)

lemma reading_ne_nil : m.reading.tokens ≠ [] := by
  intro hnil
  refine m.value_ne ?_
  have htext := Token.textOf_reading m
  rw [hnil] at htext
  exact htext.symm

/-- A value begins with neither a blank nor the end of a line. -/
lemma head_reading :
    ∃ t ts, m.reading.tokens = t :: ts ∧ t.kind ≠ .newline ∧ t.kind ≠ .whitespace := by
  obtain ⟨t, ts, ht⟩ := List.exists_cons_of_ne_nil (reading_ne_nil m)
  refine ⟨t, ts, ht, m.reading.newline_of_tokens t (by rw [ht]; exact List.mem_cons_self), ?_⟩
  intro hk
  rw [← Token.scanFrom_value] at ht
  obtain ⟨d, ds, hd, hblank⟩ := Token.isBlank_of_head_scanFrom (t := t) (by rw [ht]; rfl) hk
  have hfirst := m.value_first d (by rw [← CommandModel.value, hd]; rfl)
  rw [hblank] at hfirst
  cases hfirst

/-- **Command lines** are read as their trees, whatever follows them. -/
lemma exact_command (hc : c.Live) (hr : c.rest = m.tokens b ++ us) (hus : b = false → us = []) :
    Exact (m.tokens b) [m.tree b] c c.command := by
  have hr' : c.opened.rest = [⟨.word, m.name⟩] ++ (Token.blank :: (m.reading.tokens
      ++ (Token.ending b ++ us))) := by
    rw [opened, hr, CommandModel.tokens]
    simp
  have hleaf := exact_leaf (K := .commandName) hc.opened hr' (List.cons_ne_nil _ _) rfl
  have hblank := exact_eatBlank hleaf.live (hleaf.rest_eq hr')
  have hhead := hleaf.trans hblank
  have hrest : (c.opened.leaf .commandName (c.opened.read + 1)).eatBlank.rest
      = m.reading.tokens ++ (Token.ending b ++ us) := hblank.rest_eq (hleaf.rest_eq hr')
  have hnewline := m.reading.newline_of_tokens
  have hpos := List.length_pos_of_ne_nil (reading_ne_nil m)
  rw [command, node]
  dsimp only
  generalize (c.opened.leaf .commandName (c.opened.read + 1)).eatBlank = d at *
  have hend : d.lineEnd = d.read + m.reading.tokens.length := lineEnd_ending hrest hus hnewline
  have hsegment : d.segment d.lineEnd = m.reading.tokens := by
    rw [segment, hend, Nat.add_sub_cancel_left, hrest, List.take_left]
  have hlast : ∀ t ∈ m.reading.tokens.getLast?, t.kind ≠ .whitespace := by
    rw [← Token.scanFrom_value]
    exact Token.last_scanFrom m.value_last false
  -- the value ends in no blank, so nothing of it is trimmed
  have hstop : d.trimmedEnd d.lineEnd = d.read + m.reading.tokens.length := by
    rw [hend, trimmedEnd_eq hrest hlast]
  have hvalue := (exact_interpolation m.reading hhead.live.opened hrest rfl).node (K := .value)
  have hline := exact_ending hvalue.live (hvalue.rest_eq hrest) hus
    "unexpected text after the command"
  simp only [hsegment, Lookahead.argumentsOffset?_reading, Option.map_none, Option.getD_none, hstop,
    commandValue, value, Option.isSome_none, Bool.false_eq_true, if_false]
  rw [if_pos (by omega), if_neg (by omega)]
  exact (hhead.trans (hvalue.trans hline)).node

/-- **A command line** is one turn of the loop over the lines of a section. -/
lemma exact_commandTurn (hc : c.Live) (hr : c.rest = m.tokens b ++ us) (hus : b = false → us = []) :
    ∃ d, preambleTurn c = .again d ∧ Exact (m.tokens b) [m.tree b] c d := by
  obtain ⟨t, ts, ht, hn, hw⟩ := head_reading m
  have hrest : c.rest = ⟨.word, m.name⟩ :: Token.blank :: t :: (ts ++ (Token.ending b ++ us)) := by
    rw [hr, CommandModel.tokens, ht]
    simp
  have hline : PreambleLine.ofTokens (Lookahead.skipBlanks c.rest) = .command := by
    have hcommand : Lookahead.isCommand (⟨.word, m.name⟩ :: Token.blank :: t
        :: (ts ++ (Token.ending b ++ us))) := by
      simp [Lookahead.isCommand, Lookahead.headText, m.known, Token.blank, Lookahead.isBlankLine_cons,
        hn, hw]
    rw [hrest, Lookahead.skipBlanks_cons, if_neg (by simp)]
    simp [PreambleLine.ofTokens, hcommand]
  have hmore : (c.stopped || c.atSeparator) = false := by
    simp [hc.stopped_eq, atEnd, atSeparator, Lookahead.isSeparatorLine, hrest]
  have hblank := exact_eatBlank_skip hc (by simp [sees, hrest])
  have hcommand := exact_command m hblank.live ((hblank.rest_eq (List.nil_append c.rest).symm).trans hr)
    hus
  refine ⟨c.eatBlank.command, ?_, hblank.trans hcommand⟩
  simp only [preambleTurn, hline, hmore, Bool.false_eq_true, if_false]

/-- **Command lines**, by induction on those in front of the last: each is one turn of the loop. -/
lemma exact_commandLines (m : CommandsModel) (ms : List CommandModel) (hc : c.Live) (ha : c.Aligned)
    (hr : c.rest = m.linesTokens ms) :
    Exact (m.linesTokens ms) (m.linesTrees ms) c (c.loop preambleTurn) := by
  have hturns := fun d hd ha => run_preambleTurn (e := true) (c := d) hd ha
  induction ms generalizing c with
  | nil =>
      have hlast : c.rest = m.last.tokens m.terminated ++ [] := by
        rw [hr, List.append_nil]
        rfl
      obtain ⟨d, hturn, hexact⟩ := exact_commandTurn m.last hc hlast fun _ => rfl
      have ha' : d.Aligned := .inl (hexact.rest_eq hlast)
      have hdone : preambleTurn d = .done d := by
        simp [preambleTurn, hexact.live.stopped_eq, atEnd, hexact.rest_eq hlast]
      rw [loop_eq hturns hc ha hturn, loop_of_done hdone]
      exact hexact
  | cons k ms ih =>
      have htokens : m.linesTokens (k :: ms) = k.tokens true ++ m.linesTokens ms := by
        rw [CommandsModel.linesTokens, List.flatMap_cons, List.append_assoc]
        rfl
      rw [htokens] at hr ⊢
      obtain ⟨d, hturn, hexact⟩ := exact_commandTurn k hc hr fun h => by cases h
      have ha' : d.Aligned := by
        have hline : k.tokens true
            = ⟨.word, k.name⟩ :: Token.blank :: k.reading.tokens ++ [Token.lineFeed] := rfl
        rw [hline] at hexact
        exact hexact.aligned rfl
      rw [loop_eq hturns hc ha hturn]
      exact hexact.trans (ih hexact.live ha' (hexact.rest_eq hr))

/-- A section of command lines. -/
lemma exact_commandSection (m : CommandsModel) (hc : c.Live) (ha : c.Aligned)
    (hr : c.rest = m.linesTokens m.init) :
    Exact (m.linesTokens m.init) [.node .section (m.linesTrees m.init)] c c.fullSection := by
  refine exact_linesSection hc ha ?_ fun d hd had hrest =>
    exact_commandLines m m.init hd had (hrest.trans hr)
  obtain ⟨t, ts, ht, hk⟩ : ∃ t ts, m.linesTokens m.init = t :: ts ∧ t.kind = .word := by
    rw [CommandsModel.linesTokens]
    cases m.init with
    | nil => exact ⟨_, _, rfl, rfl⟩
    | cons k ms => exact ⟨_, _, rfl, rfl⟩
  simp [atSeparator, Lookahead.isSeparatorLine, hr, ht, hk]

end Cursor

/-! ### Documents -/

namespace CommandModel

variable (m : CommandModel)

lemma references_reading : m.reading.references = m.references := by
  have htext : ∀ s : String, Token.textOf (Token.scanFrom false 0 s.toList) = s := fun s =>
    Token.textOf_scanFrom_toList false s
  rw [Interpolation.references, reading, references, List.map_map]
  exact List.map_congr_left fun p _ => by
    simp [ReferencePart.content, CommandPart.part, CommandPart.reference, htext]

/-- The command at its tree. -/
lemma describes_tree (b : Bool) (o : Nat) : m.Describes (Command.ofTree ⟨o, m.tree b⟩) := by
  have hname : ((Placed.mk o (m.tree b)).child? .commandName).map Placed.tree
      = some (.node .commandName [.leaf .text m.name]) := Placed.map_tree_child? _ _
  have hvalue : ((Placed.mk o (m.tree b)).child? .value).map Placed.tree
      = some (.node .value m.reading.trees) := Placed.map_tree_child? _ _
  have hnone : (Placed.mk o (m.tree b)).childrenOf .variableDeclarationInline = [] := by
    cases b <;> rfl
  obtain ⟨n, hn, htn⟩ := Option.map_eq_some_iff.mp hname
  obtain ⟨v, hv, htv⟩ := Option.map_eq_some_iff.mp hvalue
  refine ⟨?_, ?_, ?_, by rw [Command.ofTree, hnone]; rfl⟩
  · simp [Command.ofTree, Entry.ofTree, Entry.nameText, hn, Piece.ofTree, htn, text_node_leaf]
  · simp [Command.ofTree, Entry.ofTree, hv, Value.ofTree, Piece.ofTree, htv, Tree.text_node,
      m.reading.textOf_trees, Token.textOf_reading]
  · simp only [Command.ofTree, Entry.ofTree, hv, Value.ofTree, htv, Option.map_some,
      m.reading.references_eq, references_reading]

end CommandModel

namespace CommandsModel

variable (m : CommandsModel)

/-- The commands at the trees of the lines. -/
lemma describes_lines {ps : List Placed} (hps : ps.map Placed.tree = m.linesTrees m.init) :
    List.Forall₂ CommandModel.Describes m.commands (ps.map Command.ofTree) := by
  have htrees : List.Forall₂ (fun (k : CommandModel) t => ∃ b, t = k.tree b) m.commands
      (ps.map Placed.tree) := by
    rw [hps, linesTrees, commands]
    refine List.rel_append ?_ (.cons ⟨_, rfl⟩ .nil)
    exact List.forall₂_map_right_iff.mpr (List.forall₂_same.mpr fun k _ => ⟨true, rfl⟩)
  rw [List.forall₂_map_right_iff] at htrees ⊢
  refine htrees.imp fun k p ⟨b, hb⟩ => ?_
  obtain ⟨o, t⟩ := p
  obtain rfl : t = k.tree b := hb
  exact k.describes_tree b o

/-- **Parsing undoes printing** for command lines. Wherever the parser stands in front of such a line,
it takes the line as one command and reports nothing. A document of such lines has no diagnostics, and
its commands say what the lines say: each has its whole value, no arguments, and just the references
in it, closed and with their names. -/
theorem parse_commands :
    (∀ k ∈ m.commands, ∀ (b : Bool) (us : List Token) (c : Cursor), c.Live →
      c.rest = k.tokens b ++ us → (b = false → us = []) →
      Cursor.Exact (k.tokens b) [k.tree b] c c.command) ∧
    ∃ d s, Document.parse Document.defaultLimits m.source = .ok d ∧ d.diagnostics = [] ∧
      d.sections = [s] ∧ List.Forall₂ CommandModel.Describes m.commands s.commands := by
  refine ⟨fun k _ b us c hc hr hus => Cursor.exact_command k hc hr hus, ?_⟩
  have hscan := Token.scan_commands m
  have hne : Token.scan m.source ≠ [] := by
    rw [hscan, linesTokens]
    exact List.append_ne_nil_of_right_ne_nil _ (List.cons_ne_nil _ _)
  have hsection := Cursor.exact_commandSection m (Cursor.live_start m.source) (Or.inr rfl) hscan
  rw [← hscan] at hsection
  obtain ⟨p, hp, htree, hreports, _⟩ := Parsed.ofSource_of_section hne hsection
  have hsections : Document.sectionsOf p.tree
      = [Section.ofTree ⟨0, .node .section (m.linesTrees m.init)⟩] := by
    rw [htree]
    rfl
  have hall : ∀ t ∈ m.linesTrees m.init, t.isNode ∧ t.kind = .command := by
    rw [linesTrees, List.forall_mem_append, List.forall_mem_map, List.forall_mem_singleton]
    exact ⟨fun _ _ => ⟨rfl, rfl⟩, rfl, rfl⟩
  have hchildren : ∀ K, ((Placed.mk 0 (.node .section (m.linesTrees m.init))).childrenOf K).map
      Placed.tree = if K = .command then m.linesTrees m.init else [] := by
    intro K
    rw [Placed.map_tree_childrenOf, Tree.childrenOf, Tree.children]
    split_ifs with hK
    · exact List.filter_eq_self.mpr fun t ht => by simp [hall t ht, hK]
    · exact List.filter_eq_nil_iff.mpr fun t ht => by simp [hall t ht, Ne.symm hK]
  have hmetadata : (Placed.mk 0 (.node .section (m.linesTrees m.init))).childrenOf .metadata = [] :=
    List.map_eq_nil_iff.mp (hchildren .metadata)
  have hname : (Section.ofTree ⟨0, .node .section (m.linesTrees m.init)⟩).nameEntry = none := by
    rw [Section.nameEntry_eq_none_iff, Section.ofTree, hmetadata]
    exact List.forall_mem_nil _
  exact ⟨_, _, Document.parse_of_single hp hreports hsections hname, rfl, hsections,
    describes_lines m (hchildren .command)⟩

/-- A reference with an index and a call in its name, between words, and a line without a terminator
behind it. -/
def indexed : CommandsModel where
  init := [⟨"run", "a ", [⟨"items[0].f(1)", " b", by decide, by decide, by decide⟩], by decide,
    by decide, by decide, by decide, by decide⟩]
  last := ⟨"import", "c", [], by decide, by decide, by decide, by decide, by decide⟩
  terminated := false

/-- The parenthesis of the call opens no arguments. The first line is the command in front of the
tokens of the source, and the document has both. -/
theorem parse_commands_indexed :
    (∃ k ∈ indexed.commands, ∃ c : Cursor, c.Live ∧
      c.rest = k.tokens true ++ indexed.last.tokens false ∧
      Cursor.Exact (k.tokens true) [k.tree true] c c.command) ∧
    ∃ d s, Document.parse Document.defaultLimits
        "run a \x7b\x7bitems[0].f(1)\x7d\x7d b\nimport c" = .ok d ∧
      d.diagnostics = [] ∧ d.sections = [s] ∧
      List.Forall₂ CommandModel.Describes indexed.commands s.commands ∧
      indexed.commands.map CommandModel.references
        = [[⟨"\x7b\x7bitems[0].f(1)\x7d\x7d", some "items[0].f(1)", true⟩], []] := by
  have hsource : indexed.source = "run a \x7b\x7bitems[0].f(1)\x7d\x7d b\nimport c" := by
    decide +kernel
  obtain ⟨hline, d, s, hd, hdiagnostics, hs, hdescribes⟩ := indexed.parse_commands
  rw [hsource] at hd
  refine ⟨⟨_, List.mem_cons_self, Cursor.start .unlimited (Token.scan indexed.source),
    Cursor.live_start _, ?_, ?_⟩, d, s, hd, hdiagnostics, hs, hdescribes, by decide⟩
  · exact Token.scan_commands indexed
  · exact hline _ List.mem_cons_self true _ _ (Cursor.live_start _) (Token.scan_commands indexed)
      (fun h => absurd h (by decide))

/-- A parenthesis in a reference with another behind it is taken for the one that opens arguments:
although the name is accepted as a whole and the reference is closed, the value is cut short and the
line is reported. -/
theorem not_parse_commands :
    IsName (Token.scanFrom false 0 "$randomInt()".toList) ∧
      ¬['\x7d', '\x7d'] <:+: "$randomInt()".toList ∧
      ∃ d s k, Document.parse Document.defaultLimits "run \x7b\x7b$randomInt()\x7d\x7d\n" = .ok d ∧
        d.diagnostics ≠ [] ∧ s ∈ d.sections ∧ k ∈ s.commands ∧
        k.valueText ≠ "\x7b\x7b$randomInt()\x7d\x7d" := by
  have hread : ∃ d,
      Document.parse Document.defaultLimits "run \x7b\x7b$randomInt()\x7d\x7d\n" = .ok d ∧
        (!d.diagnostics.isEmpty && d.sections.any fun s =>
          s.commands.any (·.valueText != "\x7b\x7b$randomInt()\x7d\x7d")) :=
    Document.exists_ok_of_any (by decide +kernel)
  obtain ⟨d, hd, hany⟩ := hread
  obtain ⟨hempty, hany⟩ := Bool.and_eq_true_iff.mp hany
  obtain ⟨s, hs, hany⟩ := List.any_eq_true.mp hany
  obtain ⟨k, hk, hvalue⟩ := List.any_eq_true.mp hany
  exact ⟨by decide, by decide, d, s, k, hd, by simpa using hempty, hs, hk, by simpa using hvalue⟩

end CommandsModel

end RequestFile
