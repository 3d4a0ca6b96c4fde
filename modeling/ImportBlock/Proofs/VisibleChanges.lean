import ImportBlock.Process.Job
import ImportBlock.Proofs.Elision
import ImportBlock.Proofs.LineDiffs
import ImportBlock.Proofs.Rereading

/-!
# Which changes a diff shows

A text counts as changed when its bytes differ, but a diff compares lines. So the report on a
changed text has an added or a removed line exactly if the lines of the text differ
(`diff_shows_lines`):

1. A diff without changes keeps the lines of both texts, so the two have the same lines
   (`texts_of_keep`).
2. A folded text is determined by its lines and by whether the last of them is open
   (`foldEndings_eq`). Formatting does not change the latter (`endsOpen_out`). So a text that keeps
   its lines is folded to the same text as before, and its diff has no changes.
-/

namespace ImportBlock

namespace Diff

open Buffer

/-! ## Reports -/

/-- The two lines that a report starts with. -/
def headers (path : Text) : Text :=
  Text.ofString "--- " ++ path ++ [10] ++ (Text.ofString "+++ " ++ path ++ [10])

/-- Behind the two headers the text has a line that is marked as added or removed. -/
def ShowsChange (path text : Text) : Prop :=
  ∃ rest, text = headers path ++ rest ∧ ∃ t ∈ Text.splitAt 10 rest, marksChange t = true

theorem showsChange_headers_iff {path rest : Text} :
    ShowsChange path (headers path ++ rest) ↔
      ∃ t ∈ Text.splitAt 10 rest, marksChange t = true := by
  constructor
  · rintro ⟨rest', heq, h⟩
    rwa [List.append_cancel_left heq]
  · intro h
    exact ⟨rest, rfl, h⟩

theorem report_eq (path before after : Text) :
    report false path before after =
      headers path ++ (body false (lines before after)).flatMap fun t => t ++ [10] := by
  simp [report, paint, headers]

theorem splitAt_flatMap {ts : List Text} (h : ∀ t ∈ ts, t.Clean) :
    Text.splitAt 10 (ts.flatMap fun t => t ++ [10]) = ts ++ [[]] := by
  induction ts with
  | nil => rfl
  | cons t ts ih =>
    obtain ⟨ht, hts⟩ := List.forall_mem_cons.mp h
    rw [List.flatMap_cons, List.append_assoc, List.singleton_append, splitAt_feed ht, ih hts,
      List.cons_append]

theorem clean_of_mem_body {ls : List DiffLine} (h : ∀ l ∈ ls, l.text.Clean) :
    ∀ t ∈ body false ls, t.Clean := by
  obtain ⟨runs, hentries, hruns⟩ := exists_runs ls ls.zipIdx
  rw [body_of_runs hentries hruns]
  intro t ht
  obtain ⟨run, hrun, ht⟩ := List.mem_flatMap.mp ht
  unfold Run.body at ht
  split_ifs at ht
  · obtain ⟨e, he, rfl⟩ := List.mem_map.mp ht
    have hmem : e.1 ∈ ls := List.mem_of_getElem? (getElem?_of_mem_entries hentries hrun he)
    have hsign : sign e.1.change ≠ 10 ∧ sign e.1.change ≠ 13 := by
      rcases e.1.change with _ | _ | _ <;> decide
    exact Text.clean_cons.mpr ⟨hsign, h e.1 hmem⟩
  · rw [List.mem_singleton.mp ht]
    decide +kernel

/-! ## Lines of a diff -/

theorem clean_of_mem_lines {before after : Text} {l : DiffLine} (hl : l ∈ lines before after) :
    l.text.Clean := by
  -- the line is one of the text that its change does not leave out
  have hside : ∀ o : Change, o ≠ .keep → l.change ≠ o → l.text.Clean := by
    intro o ho hne
    have hmem : l.text ∈ (parse (if o = .add then before else after)).texts := by
      rw [← texts_filter_lines ho]
      exact List.mem_map_of_mem (List.mem_filter.mpr ⟨hl, by simpa using hne⟩)
    obtain ⟨b, hb, heq⟩ := List.mem_map.mp hmem
    rw [← heq]
    exact clean_of_mem_parseLines hb
  by_cases hadd : l.change = .add
  · exact hside .remove (by simp) (by simp [hadd])
  · exact hside .add (by simp) hadd

theorem showsChange_report_iff {path before after : Text} :
    ShowsChange path (report false path before after) ↔
      ∃ l ∈ lines before after, l.change ≠ .keep := by
  have hclean : ∀ t ∈ body false (lines before after), t.Clean :=
    clean_of_mem_body fun _ hl => clean_of_mem_lines hl
  have hempty : marksChange [] = false := rfl
  rw [report_eq, showsChange_headers_iff, splitAt_flatMap hclean]
  calc (∃ t ∈ body false (lines before after) ++ [[]], marksChange t = true)
    _ ↔ (body false (lines before after)).filter marksChange ≠ [] := by
      simp [hempty]
    _ ↔ ∃ l ∈ lines before after, l.change ≠ .keep := by
      rw [filter_body]
      simp

/-- A diff without changes has the lines of both texts. -/
theorem texts_of_keep {before after : Text} (h : ∀ l ∈ lines before after, l.change = .keep) :
    (parse before).texts = (lines before after).map DiffLine.text ∧
      (parse after).texts = (lines before after).map DiffLine.text := by
  have hside : ∀ o : Change, o ≠ .keep → (parse (if o = .add then before else after)).texts =
      (lines before after).map DiffLine.text := by
    intro o ho
    have hall : ((lines before after).filter fun l => l.change != o) = lines before after := by
      rw [List.filter_eq_self]
      intro l hl
      simpa [h l hl] using ho.symm
    rw [← texts_filter_lines ho, hall]
  exact ⟨hside .add (by simp), hside .remove (by simp)⟩

theorem change_eq_keep {before after : Text} (h : foldEndings before = foldEndings after)
    {l : DiffLine} (hl : l ∈ lines before after) : l.change = .keep := by
  unfold lines at hl
  rw [h, Chunk.script, if_pos rfl, Chunk.kept] at hl
  split_ifs at hl
  · cases hl
  · obtain ⟨c, hc, hl⟩ := List.mem_flatMap.mp hl
    obtain ⟨t, -, rfl⟩ := List.mem_map.mp hl
    rw [List.mem_singleton.mp hc]

/-- A diff without changes is one gap. -/
theorem body_of_keep {ls : List DiffLine} (hne : ls ≠ []) (h : ∀ l ∈ ls, l.change = .keep) :
    body false ls = ["@@"] := by
  have hhidden : ∀ x ∈ ls.zipIdx.map (fun p => (p.1, isShown ls p.2)), x.2 = false := by
    intro x hx
    obtain ⟨p, -, rfl⟩ := List.mem_map.mp hx
    by_contra hshown
    obtain ⟨j, l, hj, hchange, -⟩ := isShown_iff.mp (by simpa using hshown)
    exact hchange (h l (List.mem_of_getElem? hj))
  have hgap := bodyLines_gap (by simpa using hne) hhidden []
  rwa [List.append_nil] at hgap

/-! ## Texts with the same lines -/

theorem map_folded {ls : List BufferLine} (h : Ended ls) :
    ls.map BufferLine.folded =
      insertedLines .lf (if endsOpen ls then none else some .lf) (ls.map BufferLine.text) := by
  rcases List.eq_nil_or_concat' ls with rfl | ⟨ls, l, rfl⟩
  · rfl
  · obtain ⟨hls, -⟩ := (ended_append ls (by simp)).mp h
    rw [List.map_append, List.map_append, List.map_singleton, List.map_singleton,
      insertedLines_concat, List.map_map, endsOpen_append _ (by simp)]
    congr 1
    · refine List.map_congr_left fun l' hl' => ?_
      obtain ⟨e, he⟩ := Option.ne_none_iff_exists'.mp (hls l' hl')
      simp [BufferLine.folded, he]
    · obtain ⟨t, _ | e⟩ := l <;> rfl

/-- A folded text has the lines of the text, with line feeds. -/
theorem foldEndings_eq (src : Text) :
    foldEndings src =
      written (insertedLines .lf (if src.endsOpen then none else some .lf) (parse src).texts) := by
  rw [← written_parseLines (foldEndings src), parseLines_foldEndings,
    map_folded (ended_parseLines src), endsOpen_parseLines]
  rfl

end Diff

namespace Buffer

theorem endsOpen_written {ls : List BufferLine} (hclean : ∀ l ∈ ls, l.text.Clean)
    (hlast : ls.getLast? ≠ some ⟨[], none⟩) : (written ls).endsOpen = endsOpen ls := by
  rcases List.eq_nil_or_concat' ls with rfl | ⟨ls, ⟨t, _ | e⟩, rfl⟩
  · rfl
  · have hne : t ≠ [] := by
      rintro rfl
      exact hlast (by simp)
    have ht : t.Clean := hclean ⟨t, none⟩ (by simp)
    rw [written_append, endsOpen_append _ (by simp)]
    simpa [BufferLine.bytes, endsOpen, Text.endsOpen_append _ hne] using
      Text.endsOpen_of_clean ht hne
  · rw [written_append, endsOpen_append _ (by simp)]
    have hbytes : written [⟨t, some e⟩] = t ++ e.bytes := by simp [BufferLine.bytes]
    rw [hbytes, ← List.append_assoc, Text.endsOpen_append _ e.bytes_ne_nil, e.endsOpen_bytes]
    rfl

end Buffer

namespace Rules

open Block Buffer

/-- Formatting neither opens nor closes the end of a text. -/
theorem endsOpen_out (r : Rules) (src : Text) : (r.format src).out.endsOpen = src.endsOpen := by
  cases hplan : r.plan (parse src).texts with
  | none => rw [format_of_plan_eq_none hplan]
  | some e =>
    obtain ⟨before, block, after, hsrc, hcut, -⟩ := exists_cut_of_plan_texts hplan
    have hsrc : parseLines src = before ++ block ++ after := hsrc
    have hblock : block ≠ [] := by simpa using hcut.ne_nil
    rw [out_format, endsOpen_written (clean_regroup hsrc hcut) (getLast?_regroup_ne hsrc hcut),
      lines_regroup_of_cut hsrc hcut, ← endsOpen_parseLines src, hsrc]
    by_cases hafter : after = []
    · have hnew := r.lines_ne_nil hcut.toIsBlock r.collapse
      have hins : insertedLines (newlineOf src)
          (if after.isEmpty && endsOpen block then none else some (newlineOf src))
          ((r.group (imports (block.map BufferLine.text))).lines r.collapse) ≠ [] := by
        intro hnil
        have htexts := congrArg (List.map BufferLine.text) hnil
        rw [map_text_insertedLines] at htexts
        exact hnew htexts
      subst hafter
      rw [List.append_nil, List.append_nil, endsOpen_append _ hins, endsOpen_append _ hblock,
        endsOpen_insertedLines _ _ hnew]
      cases endsOpen block <;> rfl
    · rw [endsOpen_append _ hafter, endsOpen_append _ hafter]

theorem foldEndings_out {r : Rules} {src : Text}
    (h : (parse (r.format src).out).texts = (parse src).texts) :
    Diff.foldEndings (r.format src).out = Diff.foldEndings src := by
  rw [Diff.foldEndings_eq, Diff.foldEndings_eq, h, endsOpen_out]

theorem texts_ne_nil_of_changed {r : Rules} {src : Text} (h : (r.format src).changed = true) :
    (parse src).texts ≠ [] := by
  intro hnil
  have hplan : r.plan (parse src).texts = none := by
    rw [hnil]
    rfl
  rw [format_of_plan_eq_none hplan] at h
  cases h

end Rules

namespace Job

open Buffer

theorem report_of_diff {j : Job} {h : Host} {f : Formatted} (hlist : j.list = false)
    (hdiff : j.diff = true) (hcolor : j.color = false) (hprint : h.faults.output = false)
    (hchanged : f.changed = true) (name src : Text) :
    j.report h name src f = .ok (Diff.report false name src f.out) := by
  simp [report, hlist, hdiff, hcolor, hchanged, Host.print, hprint, Except.mapError]

/-- **Visible changes.** In diff mode, the uncoloured report on a text that formatting changes has
an added or a removed line behind its headers exactly if the lines of the formatted text are not
those of the given one. If only terminators differ, all that it has there is the marker of one
gap. -/
theorem diff_shows_lines (j : Job) (h : Host) (name src : Text) (hlist : j.list = false)
    (hdiff : j.diff = true) (hcolor : j.color = false) (hprint : h.faults.output = false)
    (hchanged : (j.rules.format src).changed = true) :
    ∃ text, j.report h name src (j.rules.format src) = .ok text ∧
      (Diff.ShowsChange name text ↔
        (parse (j.rules.format src).out).texts ≠ (parse src).texts) ∧
      ((parse (j.rules.format src).out).texts = (parse src).texts →
        text = Diff.headers name ++ Text.ofString "@@\n") := by
  refine ⟨_, report_of_diff hlist hdiff hcolor hprint hchanged name src, ?_, ?_⟩
  · rw [Diff.showsChange_report_iff]
    constructor
    · rintro ⟨l, hl, hchange⟩ htexts
      exact hchange (Diff.change_eq_keep (Rules.foldEndings_out htexts).symm hl)
    · intro htexts
      by_contra hkeep
      push Not at hkeep
      obtain ⟨hsrc, hout⟩ := Diff.texts_of_keep hkeep
      exact htexts (hout.trans hsrc.symm)
  · intro htexts
    have hkeep : ∀ l ∈ Diff.lines src (j.rules.format src).out, l.change = .keep :=
      fun _ hl => Diff.change_eq_keep (Rules.foldEndings_out htexts).symm hl
    have hne : Diff.lines src (j.rules.format src).out ≠ [] := by
      intro hnil
      have hsrc := (Diff.texts_of_keep hkeep).1
      rw [hnil] at hsrc
      exact Rules.texts_ne_nil_of_changed hchanged hsrc
    rw [Diff.report_eq, Diff.body_of_keep hne hkeep]
    rfl

/-- The imports change places, and all terminators become alike. -/
theorem diff_shows_lines_mixed :
    let j : Job := ⟨"a.swift", [".swift"], Rules.standard, false, false, true, false⟩
    let h := Host.start ⟨.memory, []⟩ [] Faults.none
    let src : Text := "import B\r\nimport A\n"
    (j.rules.format src).changed = true ∧
      ∃ text, j.report h j.path src (j.rules.format src) = .ok text ∧
        Diff.ShowsChange j.path text := by
  intro j h src
  have hchanged : (j.rules.format src).changed = true := by decide +kernel
  obtain ⟨text, htext, hshows, -⟩ := diff_shows_lines j h j.path src rfl rfl rfl rfl hchanged
  exact ⟨hchanged, text, htext, hshows.mpr (by decide +kernel)⟩

/-- Two imports in order, with different terminators. The text changes, but no line of its diff
shows a change. -/
theorem diff_hides_terminators :
    let j : Job := ⟨"a.swift", [".swift"], Rules.standard, false, false, true, false⟩
    let h := Host.start ⟨.memory, []⟩ [] Faults.none
    let src : Text := "import A\nimport B\r\n"
    (j.rules.format src).changed = true ∧
      ∃ text, j.report h j.path src (j.rules.format src) = .ok text ∧
        ¬ Diff.ShowsChange j.path text := by
  intro j h src
  have hchanged : (j.rules.format src).changed = true := by decide +kernel
  have hfold : Diff.foldEndings src = Diff.foldEndings (j.rules.format src).out := by
    decide +kernel
  refine ⟨hchanged, _, report_of_diff rfl rfl rfl rfl hchanged j.path src, ?_⟩
  rw [Diff.showsChange_report_iff]
  rintro ⟨l, hl, hchange⟩
  exact hchange (Diff.change_eq_keep hfold hl)

end Job

end ImportBlock
