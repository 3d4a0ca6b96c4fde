import ImportBlock.Diff
import ImportBlock.Proofs.EditScripts
import ImportBlock.Proofs.Reading

/-!
# The lines of a diff

A diff folds all terminators into line feeds, compares rows and splits each chunk of rows into lines
again. None of this uses the lines that a buffer reads, but it comes to the same lines:

1. Folding changes the terminators of the lines that are read and nothing else
   (`parseLines_foldEndings`).
2. In a folded text, the rows are the lines with their terminators (`rows_eq`), and splitting is
   reading (`splitLines_eq`).
3. The rows of a chunk are neighbours in one of the texts. Put together they are read as the lines
   they came from, also where the chunk ends with a blank line or with the open end of the text
   (`splitLines_flatten`).
-/

namespace ImportBlock

/-- The line with a line feed in the place of its terminator. -/
def BufferLine.folded (l : BufferLine) : BufferLine := ⟨l.text, l.ending.map fun _ => .lf⟩

namespace Diff

open Buffer

/-! ## Folding -/

theorem foldEndings_clean_append {t : Text} (ht : t.Clean) (rest : Text) :
    foldEndings (t ++ rest) = t ++ foldEndings rest := by
  induction t with
  | nil => rfl
  | cons b t ih =>
    obtain ⟨⟨-, hcr⟩, ht⟩ := Text.clean_cons.mp ht
    rw [List.cons_append, foldEndings.eq_def]
    simpa [hcr] using ih ht

theorem foldEndings_open {t : Text} (ht : t.Clean) : foldEndings t = t := by
  simpa [foldEndings] using foldEndings_clean_append ht []

theorem foldEndings_line {t rest : Text} {e : Terminator} (ht : t.Clean) (he : ¬ e.Fuses rest) :
    foldEndings (t ++ e.bytes ++ rest) = t ++ 10 :: foldEndings rest := by
  rw [List.append_assoc, foldEndings_clean_append ht]
  cases e with
  | lf => simp [Terminator.bytes, foldEndings]
  | crlf => simp [Terminator.bytes, foldEndings]
  | cr =>
    have hrest : ∀ rest', rest ≠ 10 :: rest' := by
      rintro rest' rfl
      exact he ⟨rfl, rfl⟩
    simp only [Terminator.bytes, List.cons_append, List.nil_append, foldEndings]

theorem cr_not_mem_foldEndings (src : Text) : 13 ∉ foldEndings src := by
  fun_induction foldEndings src with
  | case1 => simp
  | case2 rest ih => simpa using ih
  | case3 rest _ ih => simpa using ih
  | case4 b rest _ hcr ih => simpa [eq_comm] using ⟨hcr, ih⟩

theorem parseLines_foldEndings (src : Text) :
    parseLines (foldEndings src) = (parseLines src).map BufferLine.folded := by
  induction src using line_induction with
  | nil => rfl
  | last t ht hne =>
    rw [foldEndings_open ht, parseLines_open ht hne]
    rfl
  | line t e rest ht he ih =>
    have hlf : ¬ Terminator.lf.Fuses (foldEndings rest) := by simp [Terminator.Fuses]
    have hline := parseLines_line ht hlf
    rw [List.append_assoc] at hline
    rw [foldEndings_line ht he, parseLines_line ht he, List.map_cons, ← ih]
    exact hline

/-! ## Texts with line feeds only -/

/-- A text without carriage returns is empty, an open line, or a line in front of such a text. -/
theorem feed_induction {P : Text → Prop} (nil : P [])
    (last : ∀ t : Text, t.Clean → t ≠ [] → P t)
    (line : ∀ t rest : Text, t.Clean → P rest → P (t ++ 10 :: rest)) {src : Text}
    (h : 13 ∉ src) : P src := by
  induction src using line_induction with
  | nil => exact nil
  | last t ht hne => exact last t ht hne
  | line t e rest ht he ih =>
    cases e with
    | lf =>
      rw [List.append_assoc]
      exact line t rest ht (ih fun hmem => h (by simp [hmem]))
    | crlf => simp [Terminator.bytes] at h
    | cr => simp [Terminator.bytes] at h

theorem parseLines_feed {t : Text} (ht : t.Clean) (rest : Text) :
    parseLines (t ++ 10 :: rest) = ⟨t, some .lf⟩ :: parseLines rest := by
  have hlf : ¬ Terminator.lf.Fuses rest := by simp [Terminator.Fuses]
  simpa [Terminator.bytes] using parseLines_line ht hlf

theorem rows_open {t : Text} (ht : t.Clean) (hne : t ≠ []) : rows t = [t] := by
  induction t with
  | nil => exact absurd rfl hne
  | cons b t ih =>
    obtain ⟨⟨hlf, -⟩, ht⟩ := Text.clean_cons.mp ht
    by_cases htail : t = []
    · simp [rows, htail, hlf]
    · simp [rows, hlf, ih ht htail]

theorem rows_feed {t : Text} (ht : t.Clean) (rest : Text) :
    rows (t ++ 10 :: rest) = (t ++ [10]) :: rows rest := by
  induction t with
  | nil => simp [rows]
  | cons b t ih =>
    obtain ⟨⟨hlf, -⟩, ht⟩ := Text.clean_cons.mp ht
    simp [rows, hlf, ih ht]

theorem rows_eq {t : Text} (h : 13 ∉ t) : rows t = (parseLines t).map BufferLine.bytes := by
  refine feed_induction (P := fun t => rows t = (parseLines t).map BufferLine.bytes) rfl ?_ ?_ h
  · intro t ht hne
    rw [rows_open ht hne, parseLines_open ht hne]
    rfl
  · intro t rest ht ih
    rw [rows_feed ht, parseLines_feed ht, ih]
    rfl

theorem splitAt_open {t : Text} (ht : t.Clean) : t.splitAt 10 = [t] := by
  induction t with
  | nil => rfl
  | cons b t ih =>
    obtain ⟨⟨hlf, -⟩, ht⟩ := Text.clean_cons.mp ht
    simp [Text.splitAt, hlf, ih ht]

theorem splitAt_feed {t : Text} (ht : t.Clean) (rest : Text) :
    (t ++ 10 :: rest).splitAt 10 = t :: rest.splitAt 10 := by
  induction t with
  | nil => simp [Text.splitAt]
  | cons b t ih =>
    obtain ⟨⟨hlf, -⟩, ht⟩ := Text.clean_cons.mp ht
    simp [Text.splitAt, hlf, ih ht]

theorem dropEnd_concat (t : Text) (b : UInt8) :
    (t ++ [b]).dropEnd [10] = if b = 10 then t else t ++ [b] := by
  have hends : Text.endsWith (t ++ [b]) [10] = decide (b = 10) := by
    unfold Text.endsWith
    rw [Bool.eq_iff_iff, List.isSuffixOf_iff_suffix, decide_eq_true_iff]
    constructor
    · rintro ⟨t', ht'⟩
      exact ((List.append_singleton_inj.mp ht').2).symm
    · rintro rfl
      exact ⟨t, rfl⟩
  unfold Text.dropEnd
  rw [hends]
  by_cases hb : b = 10 <;> simp [hb]

theorem dropEnd_append (s : Text) {t : Text} (h : t ≠ []) :
    (s ++ t).dropEnd [10] = s ++ t.dropEnd [10] := by
  obtain ⟨t, b, rfl⟩ := (List.eq_nil_or_concat' t).resolve_left h
  rw [← List.append_assoc, dropEnd_concat, dropEnd_concat]
  split_ifs <;> simp

theorem dropEnd_open {t : Text} (ht : t.Clean) : t.dropEnd [10] = t := by
  rcases List.eq_nil_or_concat' t with rfl | ⟨t, b, rfl⟩
  · rfl
  · obtain ⟨hlf, -⟩ := ht b (by simp)
    rw [dropEnd_concat, if_neg hlf]

theorem splitLines_of_ne_nil {t : Text} (h : t ≠ []) :
    splitLines t = (t.dropEnd [10]).splitAt 10 := by
  unfold splitLines
  rw [if_neg (by simpa using h)]

/-- Splitting at line feeds is reading lines. -/
theorem splitLines_eq {t : Text} (h : 13 ∉ t) :
    splitLines t = (parseLines t).map BufferLine.text := by
  refine feed_induction (P := fun t => splitLines t = (parseLines t).map BufferLine.text) rfl
    ?_ ?_ h
  · intro t ht hne
    rw [splitLines_of_ne_nil hne, dropEnd_open ht, splitAt_open ht, parseLines_open ht hne]
    rfl
  · intro t rest ht ih
    rw [splitLines_of_ne_nil (by simp), parseLines_feed ht, List.map_cons, ← ih]
    by_cases hrest : rest = []
    · -- the line feed at the end starts no further line
      rw [hrest, dropEnd_concat, if_pos rfl, splitAt_open ht]
      rfl
    · rw [List.append_cons, dropEnd_append _ hrest, ← List.append_cons, splitAt_feed ht,
        splitLines_of_ne_nil hrest]

/-! ## Chunks -/

theorem dropEnd_bytes {l : BufferLine} (ht : l.text.Clean) (h : 13 ∉ l.bytes) :
    l.bytes.dropEnd [10] = l.text := by
  obtain ⟨t, _ | _ | _ | _⟩ := l
  · exact dropEnd_open ht
  · exact dropEnd_concat t 10
  · simp [BufferLine.bytes, Terminator.bytes] at h
  · simp [BufferLine.bytes, Terminator.bytes] at h

/-- Neighbouring rows, put together, are split into the lines they came from. -/
theorem splitLines_flatten {t : Text} {items : List Text} (h : 13 ∉ t)
    (hitems : items <:+: rows t) : splitLines items.flatten = items.map (Text.dropEnd · [10]) := by
  obtain ⟨front, back, hrows⟩ := hitems
  rw [rows_eq h] at hrows
  obtain ⟨ls, back, hlines, hls, rfl⟩ := List.map_eq_append_iff.mp hrows.symm
  obtain ⟨front, ls, rfl, rfl, rfl⟩ := List.map_eq_append_iff.mp hls
  have hbytes : t = written front ++ written ls ++ written back := by
    rw [← written_append, ← written_append, ← hlines, written_parseLines]
  have hcr : 13 ∉ written ls := fun hmem => h (by simp [hbytes, hmem])
  have hsplit := splitLines_eq hcr
  rw [parseLines_written_middle hlines] at hsplit
  show splitLines (written ls) = _
  rw [hsplit, List.map_map]
  refine List.map_congr_left fun l hl => ?_
  have hmem : l ∈ parseLines t := by simp [hlines, hl]
  refine (dropEnd_bytes (clean_of_mem_parseLines hmem) fun hcr' => hcr ?_).symm
  exact List.mem_flatMap.mpr ⟨l, hl, hcr'⟩

theorem items_infix_spelled {o : Change} {cs : List (Chunk Text)} {c : Chunk Text} (hc : c ∈ cs)
    (h : c.change ≠ o) : c.items <:+: Chunk.spelled o cs := by
  obtain ⟨front, back, rfl⟩ := List.append_of_mem hc
  exact ⟨Chunk.spelled o front, Chunk.spelled o back, by simp [h]⟩

/-- The lines of one chunk, unless it is left out. -/
theorem texts_of_chunk {o : Change} {cs : List (Chunk Text)} {t : Text} (h : 13 ∉ t)
    (hcs : Chunk.spelled o cs = rows t) {c : Chunk Text} (hc : c ∈ cs) :
    ((chunkLines c).filter fun l => l.change != o).map DiffLine.text =
      if c.change = o then [] else c.items.map (Text.dropEnd · [10]) := by
  unfold chunkLines
  by_cases ho : c.change = o
  · simp [ho, List.filter_map, Function.comp_def]
  · have hitems : c.items <:+: rows t := hcs ▸ items_infix_spelled hc ho
    rw [if_neg ho, ← splitLines_flatten h hitems]
    simp [ho, List.filter_map, Function.comp_def]

/-- The lines of a script that spells the rows of a text are the lines of the text. -/
theorem texts_of_spelled {o : Change} {cs : List (Chunk Text)} {t : Text} (h : 13 ∉ t)
    (hcs : Chunk.spelled o cs = rows t) :
    ((cs.flatMap chunkLines).filter fun l => l.change != o).map DiffLine.text =
      (parseLines t).map BufferLine.text := by
  have hrows : (rows t).flatten = t := by
    rw [rows_eq h]
    exact written_parseLines t
  calc ((cs.flatMap chunkLines).filter fun l => l.change != o).map DiffLine.text
    _ = cs.flatMap fun c => if c.change = o then [] else c.items.map (Text.dropEnd · [10]) := by
      rw [List.filter_flatMap, List.map_flatMap]
      exact List.flatMap_congr fun c hc => texts_of_chunk h hcs hc
    _ = (Chunk.spelled o cs).map (Text.dropEnd · [10]) := by
      unfold Chunk.spelled
      rw [List.map_flatMap]
      refine List.flatMap_congr fun c _ => ?_
      split_ifs <;> rfl
    _ = splitLines (rows t).flatten := by
      rw [hcs, splitLines_flatten h (List.infix_refl _)]
    _ = (parseLines t).map BufferLine.text := by rw [hrows, splitLines_eq h]

/-- Without the lines of one change, a diff has the lines of one of the texts. -/
theorem texts_filter_lines {o : Change} (ho : o ≠ .keep) (before after : Text) :
    ((lines before after).filter fun l => l.change != o).map DiffLine.text =
      (parse (if o = .add then before else after)).texts := by
  obtain ⟨hfirst, hsecond⟩ :=
    Chunk.script_spells (rows (foldEndings before)) (rows (foldEndings after))
  have hspelled : Chunk.spelled o
      (Chunk.script (rows (foldEndings before)) (rows (foldEndings after))) =
        rows (foldEndings (if o = .add then before else after)) := by
    cases o with
    | keep => exact absurd rfl ho
    | remove => exact hsecond
    | add => exact hfirst
  have htexts := texts_of_spelled (cr_not_mem_foldEndings _) hspelled
  rw [parseLines_foldEndings, List.map_map] at htexts
  exact htexts

/-- **The lines of a diff.** What a diff keeps and removes is the lines of the first text, in order,
and what it keeps and adds those of the second, as a buffer reads them. -/
theorem lines_spell_both (before after : Text) :
    ((lines before after).filter fun l => l.change != .add).map DiffLine.text =
      (parse before).texts ∧
    ((lines before after).filter fun l => l.change != .remove).map DiffLine.text =
      (parse after).texts :=
  ⟨texts_filter_lines (by simp) before after, texts_filter_lines (by simp) before after⟩

end Diff

end ImportBlock
