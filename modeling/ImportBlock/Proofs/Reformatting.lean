import ImportBlock.Proofs.Resorting
import ImportBlock.Proofs.Splicing

/-!
# Formatting again

A formatted text is read from its bytes again. The regenerated lines are read back as they were
written (`parseLines_insertedLines`), with one exception: if they end with carriage returns and the
block is followed by an empty line that ends with a line feed, the two bytes are read as one
terminator. Without the exception a second run changes nothing. In the exception it removes the line
feed (`format_again`).
-/

namespace ImportBlock

open Block

namespace Buffer

/-! ## Regenerated lines are read back -/

theorem head?_written_ne_lf {l : BufferLine} (hl : l.text.Clean) (hne : l.text ≠ [])
    (ls : List BufferLine) : (written (l :: ls)).head? ≠ some 10 := by
  obtain ⟨t, e⟩ := l
  obtain ⟨b, t, rfl⟩ := List.exists_cons_of_ne_nil hne
  have hb := (hl b (by simp)).1
  cases e <;> simpa [BufferLine.bytes] using hb

theorem readBefore_map {nl : Terminator} {new : List Text} {rest : Text}
    (hclean : ∀ t ∈ new, t.Clean) (h : ¬ nl.Fuses rest) :
    ReadBefore (new.map fun t => ⟨t, some nl⟩) rest := by
  induction new with
  | nil => trivial
  | cons t new ih =>
    refine ⟨hclean t (by simp), ?_, ih fun t' ht' => hclean t' (by simp [ht'])⟩
    rcases new with _ | ⟨t', new⟩
    · exact h
    · rintro ⟨rfl, hhead⟩
      rcases t' with _ | ⟨b, t'⟩
      · simp [BufferLine.bytes, Terminator.bytes] at hhead
      · have hb := hclean (b :: t') (by simp) b (by simp)
        simp [BufferLine.bytes, hb.1] at hhead

/-- Lines without terminators inside, the first and the last of them not empty. -/
structure Insertable (new : List Text) : Prop where
  ne_nil : new ≠ []
  clean : ∀ t ∈ new, t.Clean
  first : new.head? ≠ some []
  last : new.getLast? ≠ some []

/-- The last of the inserted lines and what follows it. -/
theorem parseLines_last {t : Text} {last : Option Terminator} {after : List BufferLine}
    (ht : t.Clean) (hne : t ≠ []) (hafter : parseLines (written after) = after)
    (hfuse : ∀ e ∈ last, ¬ e.Fuses (written after)) (hopen : last = none → after = []) :
    parseLines (written (⟨t, last⟩ :: after)) = ⟨t, last⟩ :: after := by
  cases last with
  | none =>
    rw [hopen rfl]
    simpa [BufferLine.bytes] using parseLines_open ht hne
  | some e =>
    show parseLines (t ++ e.bytes ++ written after) = _
    rw [parseLines_line ht (hfuse e rfl), hafter]

theorem parseLines_insertedLines {before after : List BufferLine} {nl : Terminator}
    {last : Option Terminator} {new : List Text} {rest : Text} (hnew : Insertable new)
    (hbefore : ReadBefore before rest) (hafter : parseLines (written after) = after)
    (hfuse : ∀ e ∈ last, ¬ e.Fuses (written after)) (hopen : last = none → after = []) :
    parseLines (written (before ++ insertedLines nl last new ++ after)) =
      before ++ insertedLines nl last new ++ after := by
  obtain ⟨hne, hclean, hfirst, hlast⟩ := hnew
  obtain ⟨init, t, rfl⟩ := (List.eq_nil_or_concat' new).resolve_left hne
  have ht : t.Clean := hclean t (by simp)
  have htne : t ≠ [] := by simpa using hlast
  have hinit : ReadBefore (init.map fun t => ⟨t, some nl⟩) (written (⟨t, last⟩ :: after)) :=
    readBefore_map (fun s hs => hclean s (by simp [hs])) fun hlf =>
      head?_written_ne_lf ht htne after hlf.2
  have hhead : (written (init.map (fun t => ⟨t, some nl⟩) ++ ⟨t, last⟩ :: after)).head? ≠
      some 10 := by
    rcases init with _ | ⟨s, init⟩
    · exact head?_written_ne_lf ht htne after
    · exact head?_written_ne_lf (hclean s (by simp)) (by simpa using hfirst) _
  rw [insertedLines_concat, List.append_assoc, List.append_assoc, List.singleton_append,
    written_append, parseLines_written_append (hbefore.of_head? hhead), written_append,
    parseLines_written_append hinit, parseLines_last ht htne hafter hfuse hopen]

/-! ## The first terminator -/

/-- Lines in front of others have terminators, the first of which counts. -/
theorem firstTerminator_append {ls : List BufferLine} {rest : Text} (h : ReadBefore ls rest)
    (hne : ls ≠ []) (ls' : List BufferLine) :
    firstTerminator (ls ++ ls') = firstTerminator ls := by
  obtain ⟨⟨t, e⟩, ls, rfl⟩ := List.exists_cons_of_ne_nil hne
  cases e with
  | none => exact h.elim
  | some e => rfl

/-- The first terminator of a text is not continued behind the line it ends. -/
theorem not_fuses_of_parseLines {src : Text} {l : BufferLine} {ls : List BufferLine}
    (h : parseLines src = l :: ls) (hne : ls ≠ []) : ¬ (newlineOf src).Fuses (written ls) := by
  have hread : ReadBefore [l] (written ls) := readBefore_of_parseLines h hne
  obtain ⟨t, _ | e⟩ := l
  · exact hread.elim
  · have he : newlineOf src = e := by
      rw [← firstTerminator_parseLines, h]
      rfl
    rw [he]
    exact hread.2.1

theorem map_text_insertedLines (nl : Terminator) (last : Option Terminator) (new : List Text) :
    (insertedLines nl last new).map BufferLine.text = new := by
  rcases List.eq_nil_or_concat' new with rfl | ⟨new, t, rfl⟩
  · rfl
  · rw [insertedLines_concat]
    simp [Function.comp_def]

theorem endsOpen_insertedLines (nl : Terminator) (last : Option Terminator) {new : List Text}
    (h : new ≠ []) : endsOpen (insertedLines nl last new) = last.isNone := by
  obtain ⟨init, t, rfl⟩ := (List.eq_nil_or_concat' new).resolve_left h
  rw [insertedLines_concat, endsOpen_append _ (by simp)]
  rfl

theorem written_insertedLines_crlf {new : List Text} (h : new ≠ []) :
    written (insertedLines .cr (some .crlf) new) =
      written (insertedLines .cr (some .cr) new) ++ [10] := by
  obtain ⟨init, t, rfl⟩ := (List.eq_nil_or_concat' new).resolve_left h
  simp only [insertedLines_concat, written_append, List.append_assoc]
  simp [BufferLine.bytes, Terminator.bytes]

end Buffer

namespace Rules

open Buffer

variable {r : Rules} {src : Text} {before block after : List BufferLine}

/-! ## The regenerated lines of a text -/

theorem format_eq (r : Rules) (src : Text) :
    r.format src = ⟨(r.format src).out, (r.format src).out != src⟩ := by
  unfold format
  cases h : r.plan (parse src).texts <;> simp [h]

theorem normalize_clean {t : Text} (h : t.Clean) : (Line.normalize t).Clean := by
  intro b hb
  rcases Line.mem_normalize hb with rfl | hb
  · decide
  · exact h b hb

theorem clean_of_mem_lines {block : List Text} (hclean : ∀ t ∈ block, t.Clean) {t : Text}
    (ht : t ∈ (r.group (imports block)).lines r.collapse) : t.Clean := by
  rcases Groups.mem_lines (r.empty_not_mem_group block) ht with rfl | ht
  · exact Text.clean_nil
  · have himport := (r.group_perm _).mem_iff.mp ht
    obtain ⟨l, hl, rfl⟩ := List.mem_map.mp (List.mem_filter.mp himport).1
    exact normalize_clean (hclean l hl)

theorem getLast?_lines_ne (r : Rules) (block : List Text) :
    ((r.group (imports block)).lines r.collapse).getLast? ≠ some [] := by
  intro hlast
  rw [Groups.getLast?_lines] at hlast
  exact r.empty_not_mem_group block (List.mem_of_getLast? hlast)

theorem insertable_lines {block : List Text} (hb : IsBlock block)
    (h : ¬ (r.group (imports block)).StartsBlank r.collapse) (hclean : ∀ t ∈ block, t.Clean) :
    Insertable ((r.group (imports block)).lines r.collapse) where
  ne_nil := r.lines_ne_nil hb _
  clean _ ht := clean_of_mem_lines hclean ht
  first := (head?_lines_ne_iff hb).mpr h
  last := r.getLast?_lines_ne block

theorem eq_singleton_of_lines {block : List Text} (hb : IsBlock block) {t : Text}
    (h : (r.group (imports block)).lines r.collapse = [t]) : ∃ l, block = [l] := by
  apply hb.eq_singleton
  have hfilter := Groups.filter_lines (r.empty_not_mem_group block) r.collapse
  rw [← (r.group_perm _).length_eq, ← hfilter, h]
  exact List.length_filter_le _ _

/-! ## The second run -/

section Cut

variable (hsrc : parseLines src = before ++ block ++ after)
  (hcut : IsCut (before.map BufferLine.text) (block.map BufferLine.text)
    (after.map BufferLine.text))

include hsrc hcut

theorem readBefore_of_cut : ReadBefore before (written (block ++ after)) := by
  have hblock : block ≠ [] := by simpa using hcut.ne_nil
  rw [List.append_assoc] at hsrc
  exact readBefore_of_parseLines hsrc (List.append_ne_nil_of_left_ne_nil hblock after)

/-- The first terminator is still the first one after the block is replaced. Only a block of one
line at the start of the text takes its terminator away with it. -/
theorem firstTerminator_of_cut {last : Option Terminator} {after' : List BufferLine}
    (hone : before = [] → ∀ l, block = [l] →
      firstTerminator (⟨[], last⟩ :: after') = newlineOf src) :
    firstTerminator (before ++ insertedLines (newlineOf src) last
      ((r.group (imports (block.map BufferLine.text))).lines r.collapse) ++ after') =
        newlineOf src := by
  by_cases hbefore : before = []
  · obtain ⟨init, t, hnew⟩ :=
      (List.eq_nil_or_concat' _).resolve_left (r.lines_ne_nil hcut.toIsBlock r.collapse)
    rw [hnew, insertedLines_concat, hbefore]
    rcases init with _ | ⟨s, init⟩
    · obtain ⟨t', ht'⟩ := eq_singleton_of_lines hcut.toIsBlock hnew
      obtain ⟨l, hl, -⟩ := List.map_eq_singleton_iff.mp ht'
      exact hone hbefore l hl
    · rfl
  · have hread := readBefore_of_cut hsrc hcut
    rw [List.append_assoc, firstTerminator_append hread hbefore, ← firstTerminator_parseLines,
      hsrc, List.append_assoc, firstTerminator_append hread hbefore]

/-- A second run gives the last of the regenerated lines the terminator of the others, if the lines
are read back. -/
theorem out_format_of_cut (hblank : ¬ (r.group (imports (block.map BufferLine.text))).StartsBlank
      r.collapse) {last : Option Terminator} {after' : List BufferLine}
    (hafter : parseLines (written after') = after') (hclosed : Closed (after'.map BufferLine.text))
    (hfuse : ∀ e ∈ last, ¬ e.Fuses (written after')) (hopen : last = none → after' = [])
    (hone : before = [] → ∀ l, block = [l] →
      firstTerminator (⟨[], last⟩ :: after') = newlineOf src) :
    let new := (r.group (imports (block.map BufferLine.text))).lines r.collapse
    let nl := newlineOf src
    (r.format (written (before ++ insertedLines nl last new ++ after'))).out =
      written (before ++ insertedLines nl (last.map fun _ => nl) new ++ after') := by
  intro new nl
  have hnew : Insertable new := insertable_lines hcut.toIsBlock hblank (clean_middle hsrc)
  have hout : parseLines (written (before ++ insertedLines nl last new ++ after')) =
      before ++ insertedLines nl last new ++ after' :=
    parseLines_insertedLines hnew (readBefore_of_cut hsrc hcut) hafter hfuse hopen
  have hcut' : IsCut (before.map BufferLine.text) ((insertedLines nl last new).map BufferLine.text)
      (after'.map BufferLine.text) := by
    rw [map_text_insertedLines]
    exact ⟨isBlock_lines hcut.toIsBlock hblank, hcut.lead, hclosed⟩
  have hnl : newlineOf (written (before ++ insertedLines nl last new ++ after')) = nl := by
    rw [← firstTerminator_parseLines, hout]
    exact firstTerminator_of_cut hsrc hcut hone
  rw [format_of_cut hout hcut', hnl, map_text_insertedLines, imports_lines hcut.toIsBlock,
    group_imports_group, endsOpen_insertedLines _ _ hnew.ne_nil]
  cases last with
  | none => simp [hopen rfl, new]
  | some e => simp [new]

section Rerun

variable (hblank : ¬ (r.group (imports (block.map BufferLine.text))).StartsBlank r.collapse)

include hblank

theorem format_format_of_not_fuses (h : ¬ (newlineOf src).Fuses (written after)) :
    r.format (r.format src).out = ⟨(r.format src).out, false⟩ := by
  suffices hsame : (r.format (r.format src).out).out = (r.format src).out by
    rw [format_eq r (r.format src).out, hsame]
    simp
  have hnewline : newlineOf src = firstTerminator (before ++ block ++ after) := by
    rw [← hsrc, firstTerminator_parseLines]
  rw [format_of_cut hsrc hcut]
  rcases hopen : after.isEmpty && endsOpen block with _ | _
  · exact out_format_of_cut hsrc hcut hblank (parseLines_written_right hsrc) hcut.closed
      (by simpa using h) (by simp) (fun _ _ _ => rfl)
  · obtain ⟨hafter, hend⟩ : after = [] ∧ endsOpen block = true := by simpa using hopen
    refine out_format_of_cut hsrc hcut hblank (parseLines_written_right hsrc) hcut.closed
      (by simp) (fun _ => hafter) fun hbefore l hl => ?_
    -- the text is one open line
    rw [hnewline, hbefore, hl, hafter]
    rw [hl] at hend
    simp_all [firstTerminator, endsOpen]

/-- The line feed behind the block is read as part of the last terminator of the block. -/
theorem out_format_of_fuses {rest : Text} (hcr : newlineOf src = .cr)
    (hrest : written after = 10 :: rest) :
    ∃ lead, (r.format src).out = lead ++ 10 :: rest ∧
      (r.format (lead ++ 10 :: rest)).out = lead ++ rest := by
  have hafter : after = ⟨[], some .lf⟩ :: parseLines rest := by
    rw [← parseLines_written_right hsrc, hrest, parseLines]
  have hclosed : Closed ((parseLines rest).map BufferLine.text) := by
    have hall := hcut.closed
    rw [hafter] at hall
    cases hall with
    | code _ hrole => simp at hrole
    | blank _ hrest => exact hrest
  have hread : parseLines (written (parseLines rest)) = parseLines rest := by
    rw [written_parseLines]
  -- in a text that starts with a block of one line, the first terminator would be the fused one
  have hone : before = [] → ∀ l, block = [l] →
      firstTerminator (⟨[], some .crlf⟩ :: parseLines rest) = newlineOf src := by
    rintro rfl l rfl
    exact absurd ⟨hcr, by simp [hrest]⟩ (not_fuses_of_parseLines hsrc (by simp [hafter]))
  have hagain := out_format_of_cut hsrc hcut hblank hread hclosed
    (by simp [Terminator.Fuses]) (by simp) hone
  refine ⟨written (before ++ insertedLines .cr (some .cr)
    ((r.group (imports (block.map BufferLine.text))).lines r.collapse)), ?_, ?_⟩
  · rw [format_of_cut hsrc hcut, ← hrest, ← written_append, hcr]
    simp [hafter]
  · simp only [hcr, Option.map_some, written_append, written_parseLines,
      written_insertedLines_crlf (r.lines_ne_nil hcut.toIsBlock r.collapse)] at hagain
    simpa using hagain

theorem format_format_of_fuses (h : (newlineOf src).Fuses (written after)) :
    r.format (r.format src).out = ⟨(r.format src).out.eraseIdx
      ((r.format src).out.length - (written after).length), true⟩ := by
  obtain ⟨hcr, hhead⟩ := h
  obtain ⟨rest, hrest⟩ := List.head?_eq_some_iff.mp hhead
  obtain ⟨lead, hout, hagain⟩ := out_format_of_fuses hsrc hcut hblank hcr hrest
  have hlen : (lead ++ 10 :: rest).length - (written after).length = lead.length := by
    simp [hrest]
  rw [hout, format_eq, hagain, hlen, List.eraseIdx_append_of_length_le (Nat.le_refl _)]
  simp

end Rerun

end Cut

/-- **Formatting again.** A text without a block stays as it is. If the regenerated block does not
start with a separator, a second run changes nothing, unless the block got carriage returns and the
text goes on with a line feed behind it. Then the second run takes this one byte away. -/
theorem format_again (r : Rules) (src : Text) :
    let out := (r.format src).out
    (r.plan (parse src).texts = none → r.format out = ⟨out, false⟩) ∧
    ∀ e, r.plan (parse src).texts = some e →
      let rest := src.drop (offset src e.range.stop)
      (r.collapse = true → e.lines.head? ≠ some []) ∧
      (e.lines.head? ≠ some [] →
        (¬ (newlineOf src).Fuses rest → r.format out = ⟨out, false⟩) ∧
        ((newlineOf src).Fuses rest →
          r.format out = ⟨out.eraseIdx (out.length - rest.length), true⟩)) := by
  intro out
  constructor
  · intro h
    have hsame : r.format src = ⟨src, false⟩ := format_of_plan_eq_none h
    show r.format (r.format src).out = ⟨(r.format src).out, false⟩
    rw [hsame, hsame]
  · intro e h rest
    obtain ⟨before, block, after, hsrc, hcut, rfl⟩ := exists_cut_of_plan_texts h
    have hsrc : parseLines src = before ++ block ++ after := hsrc
    have hrest : rest = written after := by
      rw [← drop_offset hsrc, List.length_append]
      rfl
    rw [hrest, head?_lines_ne_iff hcut.toIsBlock]
    refine ⟨fun hcollapse hblank => ?_, fun hblank => ⟨?_, ?_⟩⟩
    · simp [hblank.1] at hcollapse
    · exact format_format_of_not_fuses hsrc hcut hblank
    · exact format_format_of_fuses hsrc hcut hblank

/-- Three kinds of terminators, and a blank line behind the block that does not fuse with it. -/
theorem format_again_mixed :
    standard.plan (parse "x\rimport B\r\nimport A\n\r\ny").texts =
      some ⟨⟨1, 2⟩, ["import A", "import B"]⟩ ∧
    standard.format "x\rimport A\rimport B\r\r\ny" = ⟨"x\rimport A\rimport B\r\r\ny", false⟩ := by
  have hplan : standard.plan (parse "x\rimport B\r\nimport A\n\r\ny").texts =
      some ⟨⟨1, 2⟩, ["import A", "import B"]⟩ := by
    decide +kernel
  have hout : (standard.format "x\rimport B\r\nimport A\n\r\ny").out =
      "x\rimport A\rimport B\r\r\ny" := by
    decide +kernel
  refine ⟨hplan, ?_⟩
  rw [← hout]
  exact (((format_again standard _).2 _ hplan).2 (by decide +kernel)).1 (by decide +kernel)

/-- The first run joins the blank line behind the block to the block's last terminator, and the
second run takes its line feed away. -/
theorem format_loses_blank_line :
    standard.plan (parse "x\rimport A\r\n\nfoo").texts = some ⟨⟨1, 1⟩, ["import A"]⟩ ∧
    standard.format "x\rimport A\r\n\nfoo" = ⟨"x\rimport A\r\nfoo", true⟩ ∧
    standard.format "x\rimport A\r\nfoo" = ⟨"x\rimport A\rfoo", true⟩ := by
  decide +kernel

end Rules

end ImportBlock
