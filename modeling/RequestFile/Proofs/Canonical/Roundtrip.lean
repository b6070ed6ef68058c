import RequestFile.Document
import RequestFile.Proofs.Canonical.Reading

/-!
Parsing what was printed.

The document of printed requests has no diagnostics, and its summaries say what was printed
(`RequestModel.parse_print`).
-/

namespace RequestFile

/-! ### Positions -/

namespace RequestModel

lemma text_separatorTree (m : RequestModel) : m.separatorTree.text = unlines [m.separatorLine] := by
  have hspaced :
      Tree.textOf (Cursor.spacedTrees (m.title.getD "")) = m.title.elim "" (" " ++ ·) := by
    rw [Cursor.spacedTrees]
    cases ht : m.title with
    | none => rfl
    | some t =>
        rw [Option.getD_some, if_neg (m.title_ne t ht), Tree.textOf_cons, Tree.textOf_singleton,
          text_node_leaf, ← Tree.textOf_singleton, Tree.textOf_leaf, Option.elim_some]
  rw [separatorTree, Tree.text_node, Tree.textOf_append, Tree.textOf_append, hspaced,
    Tree.textOf_leaf, Tree.textOf_leaf, unlines, List.map_singleton, String.join_cons,
    String.join_nil, String.append_empty, separatorLine]

/-- The request of a section starts on the line after its separator. -/
lemma lineNumber_request (m : RequestModel) {before : List String}
    (hbefore : ∀ l ∈ before, OneLine l) (after : List String) :
    lineNumber (unlines (before ++ (m.lines ++ after)))
        ((unlines before).utf8ByteSize + m.separatorTree.size) = before.length + 1 + 1 := by
  have hcut : unlines (before ++ (m.lines ++ after))
      = unlines (before ++ [m.separatorLine]) ++ unlines (m.lines.tail ++ after) := by
    rw [← unlines_append, List.append_assoc]
    rfl
  have hsize : (unlines before).utf8ByteSize + m.separatorTree.size
      = (unlines (before ++ [m.separatorLine])).utf8ByteSize := by
    rw [Tree.size_eq, text_separatorTree, unlines_append, String.utf8ByteSize_append]
  have hlines : ∀ l ∈ before ++ [m.separatorLine], OneLine l := by
    rw [List.forall_mem_append, List.forall_mem_singleton]
    exact ⟨hbefore, oneLine_separatorLine m⟩
  rw [hcut, hsize, lineNumber_unlines hlines, List.length_append, List.length_singleton]

/-- **Summaries** of sections behind some lines. -/
lemma summaries_trees {ms : List RequestModel} {ts : List Tree} (h : TreesOf ms ts)
    (before : List String) (hbefore : ∀ l ∈ before, OneLine l) :
    ((Placed.sequence (unlines before).utf8ByteSize ts).map Section.ofTree).filterMap (fun s =>
        s.request.map (Summary.ofRequest (unlines (before ++ ms.flatMap lines)) s))
      = summaries (before.length + 1) ms := by
  induction h generalizing before with
  | nil => rfl
  | @cons m ms ts url body text url_text tail ih =>
      have hsummary := ofRequest_tree m url body url_text
        (lineNumber_request m hbefore (ms.flatMap lines))
      have hnext : (unlines before).utf8ByteSize + (m.tree url body).size
          = (unlines (before ++ m.lines)).utf8ByteSize := by
        rw [Tree.size_eq, text, unlines_append, String.utf8ByteSize_append]
      have hmore : ∀ l ∈ before ++ m.lines, OneLine l := by
        rw [List.forall_mem_append]
        exact ⟨hbefore, oneLine_of_mem_lines m⟩
      have htail := ih (before ++ m.lines) hmore
      rw [← hnext, List.length_append, List.append_assoc] at htail
      rw [List.flatMap_cons, Placed.sequence, List.map_cons, List.filterMap_cons, summaries]
      rw [hsummary]
      dsimp only
      rw [htail, Nat.add_right_comm]

/-- The trees of printed requests are sections without metadata. -/
lemma TreesOf.mem {ms : List RequestModel} {ts : List Tree} (h : TreesOf ms ts) :
    ∀ t ∈ ts, ∃ m url body, t = RequestModel.tree m url body := by
  induction h with
  | nil => simp
  | cons text url_text tail ih =>
      rw [List.forall_mem_cons]
      exact ⟨⟨_, _, _, rfl⟩, ih⟩

end RequestModel

lemma nameWarnings_eq_nil {ss : List Section} (h : ∀ s ∈ ss, s.nameEntry = none)
    (seen : List (String × Span)) : Document.nameWarnings seen ss = [] := by
  induction ss with
  | nil => rfl
  | cons s ss ih =>
      obtain ⟨hs, hss⟩ := List.forall_mem_cons.mp h
      rw [Document.nameWarnings, hs]
      exact ih hss

/-! ### Documents -/

/-- A source that is read exactly is parsed within the limits of documents, without a report. -/
lemma Parsed.ofSource_of_exact {source : String} {new : List Tree}
    (h : Cursor.Exact (Token.scan source) new (.start .unlimited (Token.scan source))
      (Cursor.start .unlimited (Token.scan source)).sections) :
    ∃ p, Parsed.ofSource Document.defaultLimits source = .ok p ∧ p.tree = .node .document new ∧
      p.reports = [] ∧ [p.tree] ∈ Form.document true := by
  obtain ⟨p, hp, hcomplete⟩ := Parsed.ofSource_unlimited source
  have hform := hcomplete.form true fun _ => rfl
  obtain ⟨rfl, _, _⟩ := Parsed.ofSource_eq_ok.mp hp
  exact ⟨_, (ofSource_defaultLimits source).trans hp, congrArg (Tree.node .document) h.built,
    congrArg Array.toList h.reports, hform⟩

/-- A document without reports, none of whose sections has a name by metadata, has no diagnostics. -/
lemma Document.parse_eq {source : String} {p : Parsed}
    (hp : Parsed.ofSource Document.defaultLimits source = .ok p) (hreports : p.reports = [])
    (hnames : ∀ s ∈ Document.sectionsOf p.tree, s.nameEntry = none) :
    Document.parse Document.defaultLimits source = .ok ⟨source, p.tree, []⟩ := by
  rw [Document.parse, hp]
  simp only [hreports, nameWarnings_eq_nil hnames, List.append_nil]

/-- The parse of a source of one section without a name. -/
lemma Document.parse_of_single {source : String} {p : Parsed} {s : Section}
    (hp : Parsed.ofSource Document.defaultLimits source = .ok p) (hreports : p.reports = [])
    (hsections : Document.sectionsOf p.tree = [s]) (hname : s.nameEntry = none) :
    Document.parse Document.defaultLimits source = .ok ⟨source, p.tree, []⟩ := by
  refine parse_eq hp hreports ?_
  rw [hsections]
  exact List.forall_mem_singleton.mpr hname

namespace RequestModel

/-- The parse of printed requests. -/
lemma ofSource_print (ms : List RequestModel) :
    ∃ p ts, Parsed.ofSource Document.defaultLimits (print ms) = .ok p ∧
      p.tree = .node .document ts ∧ p.reports = [] ∧ TreesOf ms ts := by
  have hlines : ∀ l ∈ ms.flatMap lines, OneLine l := by
    simpa using fun l m _ hl => oneLine_of_mem_lines m l hl
  have hscan := Token.scan_unlines hlines
  obtain ⟨ts, htrees, hexact⟩ := Cursor.exact_sections ms (Cursor.live_start (print ms))
    (Or.inr rfl) hscan
  rw [← hscan] at hexact
  obtain ⟨p, hp, htree, hreports, _⟩ := Parsed.ofSource_of_exact hexact
  exact ⟨p, ts, hp, htree, hreports, htrees⟩

/-- **Parsing undoes printing**: requests that were printed, however many, are parsed without any
diagnostic, and the summaries of the document are those of the requests, in their order. -/
theorem parse_print (ms : List RequestModel) :
    ∃ d, Document.parse Document.defaultLimits (print ms) = .ok d ∧ d.diagnostics = [] ∧
      d.summaries = summaries 1 ms := by
  obtain ⟨p, ts, hp, htree, hreports, htrees⟩ := ofSource_print ms
  have hsections : Document.sectionsOf p.tree = (Placed.sequence 0 ts).map Section.ofTree := by
    rw [htree, Document.sectionsOf, Placed.childrenOf, Placed.children, Tree.children,
      List.filter_eq_self.mpr]
    intro x hx
    have hmem : x.tree ∈ ts := by
      rw [← Placed.map_tree_sequence 0 ts]
      exact List.mem_map_of_mem hx
    obtain ⟨m, url, body, hm⟩ := htrees.mem x.tree hmem
    rw [hm]
    rfl
  have hnames : ∀ s ∈ Document.sectionsOf p.tree, s.nameEntry = none := by
    rw [hsections, List.forall_mem_map]
    rintro ⟨o, t⟩ hx
    have hmem : t ∈ ts := by
      rw [← Placed.map_tree_sequence 0 ts]
      exact List.mem_map_of_mem (f := Placed.tree) hx
    obtain ⟨m, url, body, rfl⟩ := htrees.mem t hmem
    rfl
  have hsummaries := summaries_trees htrees [] (by simp)
  refine ⟨_, Document.parse_eq hp hreports hnames, rfl, ?_⟩
  rw [Document.summaries, Document.sections, hsections]
  exact hsummaries

/-- A request with all its parts, two headers of one name among them. -/
def fullSample : RequestModel where
  title := some "Create # one"
  method := "POST"
  url := "https://example.com/items?a=1&b=2#top"
  version := some "1.1"
  headers := [
    ⟨"Accept", "text/html", by decide, by decide, by decide⟩,
    ⟨"X-Empty", "", by decide, by decide, by decide⟩,
    ⟨"Accept", "*/*", by decide, by decide, by decide⟩]
  body := some {
    first := "[1,"
    others := ["", "## 2]"]
    oneLine := by decide
    opens := ⟨'[', ['1', ','], rfl, Or.inl rfl⟩
    goes_on := by decide
    last := fun l hl => by
      obtain rfl : "## 2]" = l := by simpa using hl
      exact ⟨'#', by decide, by decide⟩ }
  title_ne := by decide
  title_inline := by decide
  method_known := by decide
  url_ne := by decide
  url_chars := by decide
  url_noReference := by decide
  version_number := by decide

/-- A request with no more than it needs. -/
def plainSample : RequestModel where
  title := none
  method := "GET"
  url := "/"
  version := none
  headers := []
  body := none
  title_ne := by decide
  title_inline := by decide
  method_known := by decide
  url_ne := by decide
  url_chars := by decide
  url_noReference := by decide
  version_number := by decide

/-- Both of them, as they are printed and read back. -/
theorem parse_print_samples :
    print [fullSample, plainSample]
      = "### Create # one\nPOST https://example.com/items?a=1&b=2#top HTTP/1.1\n"
        ++ "Accept: text/html\nX-Empty:\nAccept: */*\n\n[1,\n\n## 2]\n###\nGET /\n" ∧
    ∃ d, Document.parse Document.defaultLimits (print [fullSample, plainSample]) = .ok d ∧
      d.diagnostics = [] ∧ d.summaries = [
        ⟨some "Create # one", "POST", "https://example.com/items?a=1&b=2#top", some "HTTP/1.1",
          [("Accept", "text/html, */*"), ("X-Empty", "")], some "json_body", 2⟩,
        ⟨none, "GET", "/", none, [], none, 11⟩] := by
  have hsummaries : summaries 1 [fullSample, plainSample] = [
      ⟨some "Create # one", "POST", "https://example.com/items?a=1&b=2#top", some "HTTP/1.1",
        [("Accept", "text/html, */*"), ("X-Empty", "")], some "json_body", 2⟩,
      ⟨none, "GET", "/", none, [], none, 11⟩] := by decide +kernel
  refine ⟨by decide +kernel, ?_⟩
  rw [← hsummaries]
  exact parse_print [fullSample, plainSample]

/-- A request line in front of a body of another kind. -/
def postRequest : RequestModel where
  title := none
  method := "POST"
  url := "/u"
  version := none
  headers := []
  body := none
  title_ne := by decide
  title_inline := by decide
  method_known := by decide
  url_ne := by decide
  url_chars := by decide
  url_noReference := by decide
  version_number := by decide

end RequestModel

end RequestFile
