import RequestFile.Proofs.Limits.Outcome
import RequestFile.Proofs.Terminator.Content
import RequestFile.Proofs.Validity
import RequestFile.Summary

/-!
Summaries of recoded sources.

* **Lines of a URL.** A carriage return in front of a line feed is trimmed from the line it ends
  (`Terminator.joinedLines_both`); on its own it parts no lines
  (`Terminator.joinedLines_carriageReturn`).
* **Line numbers.** They count line feeds, so they are kept by the terminator that ends with one and
  lost with carriage returns (`Terminator.lineNumber_recode`).
* **Summaries.** All else a summary says is the same in both sources (`Document.summaries_recode`).
-/

namespace RequestFile

/-! ### Lines -/

namespace Terminator

lemma flatMap_splitAtLineFeeds_encode (cs : List Char) :
    (splitAtLineFeeds (both.encode cs)).flatMap (trimList isWhiteSpace)
      = (splitAtLineFeeds cs).flatMap (trimList isWhiteSpace) := by
  induction hn : cs.length using Nat.strong_induction_on generalizing cs with
  | _ n ih =>
      by_cases hfeed : '\n' ∈ cs
      · obtain ⟨as, bs, rfl, has⟩ := List.eq_append_cons_of_mem hfeed
        have hline : '\n' ∉ as ++ ['\r'] := by simpa using has
        have hcode : both.encode (as ++ '\n' :: bs) = (as ++ ['\r']) ++ '\n' :: both.encode bs := by
          rw [encode_append, encode_lineFeed, encode_eq_self both has, List.append_assoc]
          rfl
        rw [hcode, splitAtLineFeeds_append hline, splitAtLineFeeds_append has, List.flatMap_cons,
          List.flatMap_cons, trimList_concat (by decide), ih bs.length (by simp [← hn]; omega) bs rfl]
      · rw [encode_eq_self both hfeed]

/-- **Joined lines** do not show what ended them, if a line feed did. -/
lemma joinedLines_both (s : String) : joinedLines (both.recode s) = joinedLines s := by
  rw [joinedLines, toList_recode, flatMap_splitAtLineFeeds_encode, joinedLines]

lemma joinedLines_carriageReturn (s : String) :
    joinedLines (carriageReturn.recode s) = trimmed (carriageReturn.recode s) :=
  joinedLines_of_oneLine (by rw [toList_recode]; exact not_mem_encode_carriageReturn _)

lemma count_encode_both (cs : List Char) : (both.encode cs).count '\n' = cs.count '\n' := by
  induction cs with
  | nil => rfl
  | cons c cs ih =>
      by_cases hc : c = '\n'
      · subst hc
        rw [encode_lineFeed, List.count_append, ih, List.count_cons_self, Nat.add_comm]
        rfl
      · rw [encode_cons_of_ne both hc, List.count_cons_of_ne hc, ih, List.count_cons_of_ne hc]

/-- Line numbers behind a prefix, in the recoded text. -/
lemma lineNumber_recode (e : Terminator) (a b : String) :
    lineNumber (e.recode (a ++ b)) (e.offset (a ++ b) a.utf8ByteSize)
      = (e.encode a.toList).count '\n' + 1 := by
  rw [e.offset_append, e.recode_append, lineNumber_append, toList_recode]

end Terminator

/-! ### Requests -/

/-- Merged headers are told by what the entries say. -/
lemma HeaderMap.ofEntries_congr {xs ys : List Entry} (h : ys.map Entry.said = xs.map Entry.said) :
    ofEntries ys = ofEntries xs := by
  have hfold : ∀ xs : List Entry, ofEntries xs
      = (xs.map Entry.said).foldl (fun hs v => v.1.elim hs fun n => add n (v.2.getD "") hs) [] :=
    fun xs => by
      rw [ofEntries, List.foldl_map]
      congr 1
      funext hs x
      rw [Entry.said, Entry.valueText]
      cases x.name <;> rfl
  rw [hfold, hfold, h]

namespace Placed.Stands

variable {e : Terminator} {source : String} {x y : Placed}

lemma head_bodies (h : x.Stands e source) :
    (((x.recoded e source).children.filterMap Body.ofTree?).head?.map (·.content.name))
      = (x.children.filterMap Body.ofTree?).head?.map (·.content.name) := by
  have hnames : ((x.recoded e source).children.filterMap Body.ofTree?).map (·.content.name)
      = (x.children.filterMap Body.ofTree?).map (·.content.name) := by
    rw [h.children_recoded, List.filterMap_map, List.map_filterMap, List.map_filterMap]
    exact List.filterMap_congr fun y _ => name_body e source y
  rw [← List.head?_map, hnames, List.head?_map]

/-- **A summary** of a recoded source differs in its URL and its line at most. -/
lemma ofRequest_recoded (hx : x.Stands e source) (hy : y.Stands e source) :
    Summary.ofRequest (e.recode source) (Section.ofTree (x.recoded e source))
        (Request.ofTree (y.recoded e source))
      = { Summary.ofRequest source (Section.ofTree x) (Request.ofTree y) with
          url := ((Request.ofTree y).url.map fun u => joinedLines (e.recode u.text)).getD ""
          line := lineNumber (e.recode source) (e.offset source y.start) } := by
  have hmethod : (Request.ofTree (y.recoded e source)).method = (Request.ofTree y).method :=
    hy.text_tree_child? (by decide)
  have hversion : (Request.ofTree (y.recoded e source)).version = (Request.ofTree y).version :=
    hy.text_tree_child? (by decide)
  have hheaders : HeaderMap.ofEntries (Request.ofTree (y.recoded e source)).headers
      = HeaderMap.ofEntries (Request.ofTree y).headers :=
    HeaderMap.ofEntries_congr (hy.said_entries (by decide))
  have hbody : (Request.ofTree (y.recoded e source)).bodies.head?.map (·.content.name)
      = (Request.ofTree y).bodies.head?.map (·.content.name) := hy.head_bodies
  have hread : ∀ z : Placed, (Request.ofTree z).url = (z.child? .targetUrl).map Url.ofTree :=
    fun _ => rfl
  have hurl : (Request.ofTree (y.recoded e source)).url.map Url.oneLine
      = (Request.ofTree y).url.map fun u => joinedLines (e.recode u.text) := by
    rw [hread, hread, hy.child?_recoded, Option.map_map, Option.map_map, Option.map_map]
    exact Option.map_congr fun z hz => congrArg joinedLines (hy.of_child? hz).text_recoded
  rw [Summary.ofRequest, hx.name_section, hmethod, hversion, hheaders, hbody, hurl]
  rfl

/-- **The line** of what stands in a source is kept by terminators that end with a line feed. -/
lemma lineNumber_both (h : y.Stands .both source) :
    lineNumber (Terminator.both.recode source) (Terminator.both.offset source y.start)
      = lineNumber source y.start := by
  obtain ⟨a, b, hsource, hstart⟩ := h.place
  rw [hsource, hstart, Terminator.lineNumber_recode, Terminator.count_encode_both, lineNumber_append]

/-- Without line feeds everything stands on the first line. -/
lemma lineNumber_carriageReturn (h : y.Stands .carriageReturn source) :
    lineNumber (Terminator.carriageReturn.recode source)
      (Terminator.carriageReturn.offset source y.start) = 1 := by
  obtain ⟨a, b, hsource, hstart⟩ := h.place
  rw [hsource, hstart, Terminator.lineNumber_recode,
    List.count_eq_zero.mpr (Terminator.not_mem_encode_carriageReturn _)]

end Placed.Stands

/-! ### Documents -/

namespace Document

variable {source : String}

/-- The parse of a document reaches no limit. -/
lemma ofSource_default (source : String) :
    ∃ p, Parsed.ofSource defaultLimits source = .ok p ∧ p.Complete source := by
  obtain ⟨p, hp, hcomplete⟩ := Parsed.ofSource_unlimited source
  exact ⟨p, (Parsed.ofSource_defaultLimits source).trans hp, hcomplete⟩

/-- The whole tree stands at the start of its source. -/
lemma stands_root {p : Parsed} (hp : p.Complete source) (e : Terminator) (h : '\r' ∉ source.toList) :
    (Placed.mk 0 p.tree).Stands e source where
  place := ⟨"", "", by rw [String.empty_append, String.append_empty, hp.lossless],
    String.utf8ByteSize_empty.symm⟩
  plain := hp.tree_recode e h
  whole := (Form.Whole.every (e := true) (m := true) _ (hp.form true fun _ => rfl)).1

variable {e : Terminator} {p : Parsed} {ds : List Diagnostic}

/-- Summaries of the recoded tree, from those of single requests. -/
lemma summaries_withTerminator (hp : p.Complete source) (h : '\r' ∉ source.toList)
    {g : Section → Request → Summary}
    (hg : ∀ {x y : Placed}, x.Stands e source → y.Stands e source →
      Summary.ofRequest (e.recode source) (Section.ofTree (x.recoded e source))
        (Request.ofTree (y.recoded e source)) = g (Section.ofTree x) (Request.ofTree y)) :
    (Document.mk (e.recode source) (p.tree.withTerminator e) ds).summaries
      = (sectionsOf p.tree).filterMap fun s => s.request.map (g s) := by
  have hroot := stands_root hp e h
  have hread : ∀ x : Placed, (Section.ofTree x).request = (x.child? .request).map Request.ofTree :=
    fun _ => rfl
  have hplace : Placed.mk 0 (p.tree.withTerminator e) = (Placed.mk 0 p.tree).recoded e source := by
    rw [Placed.recoded, e.offset_zero]
  rw [summaries, sections, sectionsOf, hplace, hroot.childrenOf_recoded, sectionsOf, List.map_map,
    List.filterMap_map, List.filterMap_map]
  refine List.filterMap_congr fun x hx => ?_
  have hstands := hroot.of_mem_childrenOf hx
  simp only [Function.comp_apply, hread, hstands.child?_recoded, Option.map_map]
  exact Option.map_congr fun y hy => hg hstands (hstands.of_child? hy)

/-- The document of a recoded source. -/
lemma parse_recode (hp : Parsed.ofSource defaultLimits source = .ok p) (hcomplete : p.Complete source)
    (e : Terminator) (h : '\r' ∉ source.toList) :
    ∃ ds, parse defaultLimits (e.recode source)
      = .ok ⟨e.recode source, p.tree.withTerminator e, ds⟩ := by
  rw [parse, Parsed.ofSource_recode_tree e defaultLimits h, hp, ← hcomplete.tree_recode e h]
  exact ⟨_, rfl⟩

/-- **Summaries of recoded sources.** With a carriage return in front of every line feed the
summaries are the same. With carriage returns in place of the line feeds they are the same but for
two parts that look for line feeds in the text again: the lines of a URL stay apart, and every
request is said to begin on the first line. -/
theorem summaries_recode (h : '\r' ∉ source.toList) :
    ∃ d, parse defaultLimits source = .ok d ∧
      (∃ d', parse defaultLimits (Terminator.both.recode source) = .ok d' ∧
        d'.summaries = d.summaries) ∧
      ∃ d', parse defaultLimits (Terminator.carriageReturn.recode source) = .ok d' ∧
        d'.summaries = d.sections.filterMap fun s => s.request.map fun r =>
          { Summary.ofRequest source s r with
            url := (r.url.map fun u => trimmed (Terminator.carriageReturn.recode u.text)).getD ""
            line := 1 } := by
  obtain ⟨p, hp, hcomplete⟩ := ofSource_default source
  obtain ⟨ds, hboth⟩ := parse_recode hp hcomplete .both h
  obtain ⟨ds', hreturn⟩ := parse_recode hp hcomplete .carriageReturn h
  refine ⟨_, by rw [parse, hp], ⟨_, hboth, ?_⟩, _, hreturn, ?_⟩
  · refine summaries_withTerminator hcomplete h fun hx hy => ?_
    rw [hx.ofRequest_recoded hy, hy.lineNumber_both]
    simp only [Terminator.joinedLines_both]
    rfl
  · refine summaries_withTerminator hcomplete h fun hx hy => ?_
    rw [hx.ofRequest_recoded hy, hy.lineNumber_carriageReturn]
    simp only [Terminator.joinedLines_carriageReturn]

/-- A request below an empty line, with a URL over two lines. -/
theorem summaries_recode_two_lines :
    '\r' ∉ "\nGET /a\n  ?b\n".toList ∧
      ∃ d, parse defaultLimits "\nGET /a\n  ?b\n" = .ok d ∧
        (∃ d', parse defaultLimits (Terminator.both.recode "\nGET /a\n  ?b\n") = .ok d' ∧
          d'.summaries = d.summaries) ∧
        ∃ d', parse defaultLimits (Terminator.carriageReturn.recode "\nGET /a\n  ?b\n") = .ok d' ∧
          d'.summaries = d.sections.filterMap fun s => s.request.map fun r =>
            { Summary.ofRequest "\nGET /a\n  ?b\n" s r with
              url := (r.url.map fun u => trimmed (Terminator.carriageReturn.recode u.text)).getD ""
              line := 1 } :=
  ⟨by decide, summaries_recode (by decide)⟩

/-- With carriage returns for line feeds this request is said to begin a line above, and its URL
holds the carriage return and the indentation of its second line. -/
theorem not_summaries_recode :
    (∃ d, parse defaultLimits "\nGET /a\n  ?b\n" = .ok d ∧
      d.summaries = [⟨none, "GET", "/a?b", none, [], none, 2⟩]) ∧
    ∃ d, parse defaultLimits (Terminator.carriageReturn.recode "\nGET /a\n  ?b\n") = .ok d ∧
      d.summaries = [⟨none, "GET", "/a\r  ?b", none, [], none, 1⟩] := by
  have hread : ∀ {source : String} {ss : List Summary},
      ((parse defaultLimits source).toOption.any fun d => d.summaries == ss) →
      ∃ d, parse defaultLimits source = .ok d ∧ d.summaries = ss := fun hany => by
    obtain ⟨d, hd, hs⟩ := exists_ok_of_any hany
    exact ⟨d, hd, eq_of_beq hs⟩
  exact ⟨hread (by decide +kernel), hread (by decide +kernel)⟩

end Document

end RequestFile
