import ImportBlock.Proofs.Rereading

/-!
# When formatting changes nothing

Whether a text has changed is told by its bytes. Lines that are read back from their bytes are equal
when the bytes are (`written_eq_written_iff`). The block of a text is read back, and so are the new
lines, which all end alike. So a formatted text is the given one only if its block already has the
planned lines with the planned terminators (`out_format_eq_iff`).
-/

namespace ImportBlock

open Block

namespace Buffer

theorem written_eq_written_iff {ls ls' : List BufferLine} (h : parseLines (written ls) = ls)
    (h' : parseLines (written ls') = ls') : written ls = written ls' ↔ ls = ls' := by
  constructor
  · intro heq
    rw [← h, heq, h']
  · exact congrArg written

/-- New lines are read back if the last of them is not empty. -/
theorem parseLines_written_insertedLines {nl : Terminator} {last : Option Terminator}
    {new : List Text} (hlast : ∀ t ∈ last, t = nl) (hclean : ∀ t ∈ new, t.Clean)
    (hne : new.getLast? ≠ some []) :
    parseLines (written (insertedLines nl last new)) = insertedLines nl last new := by
  have htexts : (insertedLines nl last new).map BufferLine.text = new :=
    map_text_insertedLines nl last new
  have hended : Ended (insertedLines nl last new) :=
    ended_setLastEnding last (ended_of_forall (by simp))
  have hread : ∀ l ∈ insertedLines nl last new, l.text.Clean := by
    intro l hl
    apply hclean
    rw [← htexts]
    exact List.mem_map_of_mem hl
  rw [parseLines_written hread hended, reread_eq_self_iff]
  refine ⟨(uniform_insertedLines nl hlast new).apart, fun hopen => hne ?_⟩
  rw [← htexts, List.getLast?_map, hopen]
  rfl

theorem map_ending_eq_iff {nl : Terminator} {ls : List BufferLine} :
    ls.map (fun l => ⟨l.text, some nl⟩) = ls ↔ ∀ l ∈ ls, l.ending = some nl := by
  have hid : ls.map (fun l => (⟨l.text, some nl⟩ : BufferLine)) = ls ↔
      ls.map (fun l => (⟨l.text, some nl⟩ : BufferLine)) = ls.map id := by
    rw [List.map_id]
  rw [hid, List.map_inj_left]
  refine forall₂_congr fun l _ => ?_
  obtain ⟨t, e⟩ := l
  simp [eq_comm]

/-- The lines that take the place of a block are its own lines. -/
theorem insertedLines_eq_iff {nl : Terminator} {new : List Text} {block : List BufferLine}
    (after : List BufferLine) (hblock : block ≠ []) :
    insertedLines nl (if after.isEmpty && endsOpen block then none else some nl) new = block ↔
      block.map BufferLine.text = new ∧ (∀ l ∈ block.dropLast, l.ending = some nl) ∧
      ∀ l ∈ block.getLast?, l.ending = some nl ∨ l.ending = none ∧ after = [] := by
  obtain ⟨init, l, rfl⟩ := (List.eq_nil_or_concat' block).resolve_left hblock
  -- the last line keeps its terminator, or its lack of one
  have hlast : (⟨l.text, if after.isEmpty && endsOpen (init ++ [l]) then none else some nl⟩ :
      BufferLine) = l ↔ l.ending = some nl ∨ l.ending = none ∧ after = [] := by
    rw [endsOpen_append _ (by simp)]
    obtain ⟨t, _ | e⟩ := l
    · by_cases hafter : after = [] <;> simp [endsOpen, hafter]
    · simp [endsOpen, eq_comm]
  have hsame : insertedLines nl (if after.isEmpty && endsOpen (init ++ [l]) then none else some nl)
      ((init ++ [l]).map BufferLine.text) = init ++ [l] ↔ (∀ l ∈ init, l.ending = some nl) ∧
        (l.ending = some nl ∨ l.ending = none ∧ after = []) := by
    rw [List.map_append, List.map_singleton, insertedLines_concat, List.append_singleton_inj,
      List.map_map, hlast]
    exact and_congr_left' map_ending_eq_iff
  rw [List.dropLast_concat, List.getLast?_concat]
  constructor
  · intro h
    obtain rfl : (init ++ [l]).map BufferLine.text = new := by
      rw [← map_text_insertedLines nl _ new, h]
    simpa using hsame.mp h
  · rintro ⟨rfl, hinit, hend⟩
    exact hsame.mpr ⟨hinit, hend l rfl⟩

end Buffer

namespace Rules

open Buffer

theorem parseLines_written_lines {r : Rules} {block : List Text} {nl : Terminator}
    {last : Option Terminator} (hclean : ∀ t ∈ block, t.Clean) (hlast : ∀ t ∈ last, t = nl) :
    parseLines (written (insertedLines nl last ((r.group (imports block)).lines r.collapse))) =
      insertedLines nl last ((r.group (imports block)).lines r.collapse) :=
  parseLines_written_insertedLines hlast (fun _ ht => clean_of_mem_lines hclean ht)
    (r.getLast?_lines_ne block)

theorem out_format_eq_iff {r : Rules} {src : Text} {before block after : List BufferLine}
    (hsrc : parseLines src = before ++ block ++ after)
    (hcut : IsCut (before.map BufferLine.text) (block.map BufferLine.text)
      (after.map BufferLine.text)) :
    (r.format src).out = src ↔
      block.map BufferLine.text =
        (r.group (imports (block.map BufferLine.text))).lines r.collapse ∧
      (∀ l ∈ block.dropLast, l.ending = some (newlineOf src)) ∧
      ∀ l ∈ block.getLast?, l.ending = some (newlineOf src) ∨ l.ending = none ∧ after = [] := by
  have hblock : block ≠ [] := by simpa using hcut.ne_nil
  have hgiven : src = written (before ++ block ++ after) := by
    rw [← hsrc, written_parseLines]
  -- the bytes around the block are the same
  rw [Eq.congr (format_of_cut hsrc hcut) hgiven, written_append, written_append, written_append,
    written_append, List.append_left_inj, List.append_right_inj,
    written_eq_written_iff (parseLines_written_lines (clean_middle hsrc) eq_of_mem_last)
      (parseLines_written_middle hsrc)]
  exact insertedLines_eq_iff after hblock

/-- **The changed flag.** Formatting reports no change exactly when the text has no import block, or
when the lines of the block are the planned ones and each ends with the first terminator of the
text, except that the last may be the open end of the text. -/
theorem format_unchanged_iff (r : Rules) (src : Text) :
    (r.format src).changed = false ↔
      locate (parse src).texts = none ∨
      ∃ e, r.plan (parse src).texts = some e ∧
        let block := ((parse src).lines.drop e.range.start).take e.range.length
        block.map BufferLine.text = e.lines ∧
        (∀ l ∈ block.dropLast, l.ending = some (newlineOf src)) ∧
        ∀ l ∈ block.getLast?, l.ending = some (newlineOf src) ∨
          l.ending = none ∧ e.range.stop = (parse src).size := by
  have hflag : (r.format src).changed = false ↔ (r.format src).out = src := by
    rw [format_eq]
    simp
  rw [hflag]
  cases hplan : r.plan (parse src).texts with
  | none =>
    have hnone : locate (parse src).texts = none := Option.map_eq_none_iff.mp hplan
    simp [format_of_plan_eq_none hplan, hnone]
  | some e =>
    obtain ⟨before, block, after, hsrc, hcut, rfl⟩ := exists_cut_of_plan_texts hplan
    have hsome : locate (parse src).texts ≠ none := by
      intro hnone
      simp [plan, hnone] at hplan
    have hselect : ((parse src).lines.drop before.length).take block.length = block := by
      simp [hsrc]
    have hend : before.length + block.length = (parse src).size ↔ after = [] := by
      simp [size, hsrc]
    rw [out_format_eq_iff hsrc hcut]
    simp only [hsome, false_or, Option.some.injEq, exists_eq_left', LineRange.stop, hselect, hend]

/-- The block has the planned lines and is the open end of the text. -/
theorem format_unchanged_iff_open :
    let src : Text := "x\r\nimport A\r\nimport B"
    standard.plan (parse src).texts = some ⟨⟨1, 2⟩, ["import A", "import B"]⟩ ∧
      (standard.format src).changed = false := by
  intro src
  have hplan : standard.plan (parse src).texts = some ⟨⟨1, 2⟩, ["import A", "import B"]⟩ := by
    decide +kernel
  refine ⟨hplan, (format_unchanged_iff standard src).mpr (Or.inr ⟨_, hplan, ?_⟩)⟩
  decide +kernel

/-- The block has the planned lines, but the second does not end like the first. -/
example : (standard.format "import A\r\nimport B\n").changed = true := by decide +kernel

end Rules

end ImportBlock
