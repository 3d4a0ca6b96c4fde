import ImportBlock.Proofs.Grouping
import ImportBlock.Proofs.Reading
import ImportBlock.Source.Buffer
import Mathlib.Data.List.Basic

/-!
# The bytes of a formatted text

An edit of a buffer keeps the lines around the import block with their terminators and gives each
new line the first terminator of the text (`splice_append`). Put in bytes: the formatted text is the
given one with the bytes of the block replaced (`format_splices`).
-/

namespace ImportBlock

/-- Does the text end with a byte that belongs to no terminator? -/
def Text.endsOpen (t : Text) : Bool :=
  match t.getLast? with
  | some b => b != 10 && b != 13
  | none => false

theorem Text.endsOpen_append {t : Text} (s : Text) (h : t ≠ []) :
    Text.endsOpen (s ++ t) = t.endsOpen := by
  unfold endsOpen
  rw [List.getLast?_append_of_ne_nil s h]

theorem Text.endsOpen_of_clean {t : Text} (ht : t.Clean) (hne : t ≠ []) : t.endsOpen = true := by
  obtain ⟨hlf, hcr⟩ := ht (t.getLast hne) (List.getLast_mem hne)
  unfold endsOpen
  rw [List.getLast?_eq_some_getLast hne]
  simp [hlf, hcr]

theorem Terminator.endsOpen_bytes (e : Terminator) : e.bytes.endsOpen = false := by
  cases e <;> rfl

namespace Buffer

/-- The first terminator that occurs in a text, a line feed if there is none. -/
def newlineOf (src : Text) : Terminator :=
  match firstEnd src with
  | some (e, _) => e
  | none => .lf

/-! ## Facts about the text, read off its lines -/

theorem firstTerminator_parseLines (src : Text) :
    firstTerminator (parseLines src) = newlineOf src := by
  unfold newlineOf
  induction src using line_induction with
  | nil => rfl
  | last t ht hne =>
    rw [firstEnd_open ht, parseLines_open ht hne]
    rfl
  | line t e rest ht he ih =>
    rw [firstEnd_line ht he, parseLines_line ht he]
    rfl

theorem parseLines_ne_nil {src : Text} (h : src ≠ []) : parseLines src ≠ [] := by
  intro hnil
  have hsrc := written_parseLines src
  rw [hnil] at hsrc
  exact h hsrc.symm

theorem endsOpen_append {ls' : List BufferLine} (ls : List BufferLine) (h : ls' ≠ []) :
    endsOpen (ls ++ ls') = endsOpen ls' := by
  unfold endsOpen
  rw [List.getLast?_append_of_ne_nil ls h]

theorem endsOpen_parseLines (src : Text) : endsOpen (parseLines src) = src.endsOpen := by
  induction src using line_induction with
  | nil => rfl
  | last t ht hne =>
    rw [parseLines_open ht hne, Text.endsOpen_of_clean ht hne]
    rfl
  | line t e rest ht he ih =>
    rw [parseLines_line ht he]
    by_cases hne : rest = []
    · subst hne
      rw [List.append_nil, Text.endsOpen_append t e.bytes_ne_nil, e.endsOpen_bytes]
      rfl
    · rw [Text.endsOpen_append _ hne, ← ih, ← List.singleton_append,
        endsOpen_append _ (parseLines_ne_nil hne)]

/-! ## Edits -/

/-- New lines with the terminator `nl`, the last one with its own, or none. -/
def insertedLines (nl : Terminator) (last : Option Terminator) (new : List Text) :
    List BufferLine :=
  setLastEnding last (new.map fun t => ⟨t, some nl⟩)

theorem setLastEnding_append (e : Option Terminator) (ls : List BufferLine)
    {ls' : List BufferLine} (h : ls' ≠ []) :
    setLastEnding e (ls ++ ls') = ls ++ setLastEnding e ls' := by
  induction ls with
  | nil => rfl
  | cons l ls ih =>
    rcases hrest : ls ++ ls' with _ | ⟨l', rest⟩
    · simp [h] at hrest
    · rw [List.cons_append, hrest, setLastEnding, ← hrest, ih, List.cons_append]

theorem insertedLines_concat (nl : Terminator) (last : Option Terminator) (new : List Text)
    (t : Text) :
    insertedLines nl last (new ++ [t]) = new.map (fun t => ⟨t, some nl⟩) ++ [⟨t, last⟩] := by
  unfold insertedLines
  rw [List.map_append, setLastEnding_append _ _ (by simp)]
  rfl

theorem insertedLines_self (nl : Terminator) (new : List Text) :
    insertedLines nl (some nl) new = new.map fun t => ⟨t, some nl⟩ := by
  rcases List.eq_nil_or_concat' new with rfl | ⟨new, t, rfl⟩
  · rfl
  · rw [insertedLines_concat, List.map_append]
    rfl

/-- A replacement with the lines cut at both of its ends. -/
theorem splice_cut (before removed after : List BufferLine) (nl : Terminator) (new : List Text) :
    (⟨before ++ removed ++ after, nl⟩ : Buffer).splice before.length
        (before.length + removed.length) new =
      ⟨if after.isEmpty && endsOpen removed then
          setLastEnding none (before ++ new.map fun t => ⟨t, some nl⟩)
        else if after.isEmpty && removed.isEmpty && endsOpen before && !new.isEmpty then
          setLastEnding (some nl) before ++ setLastEnding none (new.map fun t => ⟨t, some nl⟩)
        else before ++ new.map (fun t => ⟨t, some nl⟩) ++ after, nl⟩ := by
  have htake : (before ++ removed ++ after).take before.length = before := by simp
  have hmid : ((before ++ removed ++ after).drop before.length).take
      (before.length + removed.length - before.length) = removed := by simp
  have hdrop : (before ++ removed ++ after).drop (before.length + removed.length) = after := by
    simp
  unfold splice
  simp only [htake, hmid, hdrop]
  split_ifs <;> rfl

/-- Replacing lines that are there. The new lines end open exactly when the old ones were the open
end of the buffer. -/
theorem splice_append (before removed after : List BufferLine) (nl : Terminator) {new : List Text}
    (hremoved : removed ≠ []) (hnew : new ≠ []) :
    (⟨before ++ removed ++ after, nl⟩ : Buffer).splice before.length
        (before.length + removed.length) new =
      ⟨before ++ insertedLines nl (if after.isEmpty && endsOpen removed then none else some nl) new
        ++ after, nl⟩ := by
  rw [splice_cut]
  rcases hopen : after.isEmpty && endsOpen removed with _ | _
  · have hnotEmpty : removed.isEmpty = false := by simpa using hremoved
    simp [insertedLines_self, hnotEmpty]
  · have hafter : after = [] := by simp_all
    have hins : new.map (fun t => (⟨t, some nl⟩ : BufferLine)) ≠ [] := by simpa using hnew
    subst hafter
    simp [insertedLines, setLastEnding_append none before hins]

theorem written_insertedLines_self (nl : Terminator) (new : List Text) :
    written (insertedLines nl (some nl) new) = new.flatMap (· ++ nl.bytes) := by
  unfold written
  rw [insertedLines_self, List.flatMap_map]
  rfl

theorem written_insertedLines_none (nl : Terminator) (new : List Text) :
    written (insertedLines nl none new) = Text.join nl.bytes new := by
  induction new with
  | nil => rfl
  | cons t new ih =>
    rcases new with _ | ⟨t', new⟩
    · simp [insertedLines, setLastEnding, BufferLine.bytes, Text.join_singleton]
    · rw [Text.join_cons_cons, ← ih]
      rfl

end Buffer

namespace Rules

open Buffer

/-- A plan for a buffer cuts its lines, terminators included. -/
theorem exists_cut_of_plan_texts {r : Rules} {b : Buffer} {e : Edit}
    (h : r.plan b.texts = some e) :
    ∃ before block after, b.lines = before ++ block ++ after ∧
      Block.IsCut (before.map BufferLine.text) (block.map BufferLine.text)
        (after.map BufferLine.text) ∧
      e = ⟨⟨before.length, block.length⟩,
        (r.group (Block.imports (block.map BufferLine.text))).lines r.collapse⟩ := by
  obtain ⟨before, block, after, htexts, hcut, he⟩ := exists_cut_of_plan h
  obtain ⟨ls, after', hls, hbefore, rfl⟩ := List.map_eq_append_iff.mp htexts
  obtain ⟨before', block', rfl, rfl, rfl⟩ := List.map_eq_append_iff.mp hbefore
  exact ⟨before', block', after', hls, hcut, by simpa using he⟩

variable {r : Rules} {src : Text} {before block after : List BufferLine}

theorem format_of_plan_eq_none (h : r.plan (parse src).texts = none) :
    r.format src = ⟨src, false⟩ := by
  unfold format
  simp only [h]

theorem out_format (r : Rules) (src : Text) :
    (r.format src).out = written ((parse src).regroup r).lines := by
  unfold format regroup
  cases h : r.plan (parse src).texts with
  | none =>
    simp only [h]
    exact (written_parseLines src).symm
  | some e =>
    simp only [h]
    rfl

theorem lines_regroup_of_cut (hsrc : parseLines src = before ++ block ++ after)
    (hcut : Block.IsCut (before.map BufferLine.text) (block.map BufferLine.text)
      (after.map BufferLine.text)) :
    ((parse src).regroup r).lines = before ++ insertedLines (newlineOf src)
      (if after.isEmpty && endsOpen block then none else some (newlineOf src))
      ((r.group (Block.imports (block.map BufferLine.text))).lines r.collapse) ++ after := by
  have htexts : (parse src).texts = before.map BufferLine.text ++ block.map BufferLine.text ++
      after.map BufferLine.text := by
    simp [texts, parse, hsrc]
  have hparse : parse src = ⟨before ++ block ++ after, newlineOf src⟩ := by
    rw [parse, firstTerminator_parseLines, hsrc]
  have hblock : block ≠ [] := by simpa using hcut.ne_nil
  unfold regroup
  simp only [htexts, r.plan_of_cut hcut]
  rw [hparse, edit, LineRange.stop, List.length_map, List.length_map,
    splice_append _ _ _ _ hblock (r.lines_ne_nil hcut.toIsBlock _)]

theorem format_of_cut (hsrc : parseLines src = before ++ block ++ after)
    (hcut : Block.IsCut (before.map BufferLine.text) (block.map BufferLine.text)
      (after.map BufferLine.text)) :
    (r.format src).out = written (before ++ insertedLines (newlineOf src)
      (if after.isEmpty && endsOpen block then none else some (newlineOf src))
      ((r.group (Block.imports (block.map BufferLine.text))).lines r.collapse) ++ after) := by
  rw [out_format, lines_regroup_of_cut hsrc hcut]

/-- No line follows the block, and its last line is open, exactly when the text ends open right
behind the block. -/
theorem open_block_iff (hsrc : parseLines src = before ++ block ++ after) (hblock : block ≠ []) :
    (after.isEmpty && endsOpen block) = true ↔
      offset src (before.length + block.length) = src.length ∧ src.endsOpen = true := by
  have hlen : offset src (before.length + block.length) ≤ src.length := Nat.sub_le _ _
  have hdrop := drop_offset hsrc
  rw [List.length_append] at hdrop
  have hend : offset src (before.length + block.length) = src.length ↔ after = [] := by
    constructor
    · intro heq
      rw [heq, List.drop_length] at hdrop
      have hafter := parseLines_written_right hsrc
      rw [← hdrop] at hafter
      exact hafter.symm
    · rintro rfl
      rw [written_nil, List.drop_eq_nil_iff] at hdrop
      omega
  rw [hend, Bool.and_eq_true, List.isEmpty_iff]
  refine and_congr_right fun hnil => ?_
  rw [← endsOpen_parseLines, hsrc, hnil, List.append_nil, endsOpen_append _ hblock]

/-- **Formatting.** Without an import block the text stays as it is. Otherwise the bytes of the
block, its last terminator included, are replaced by the planned lines, each with the first
terminator of the text. The last of them is open when the block is the open end of the text. -/
theorem format_splices (r : Rules) (src : Text) :
    (r.plan (parse src).texts = none → r.format src = ⟨src, false⟩) ∧
    ∀ e, r.plan (parse src).texts = some e →
      let p := offset src e.range.start
      let q := offset src e.range.stop
      let nl := (newlineOf src).bytes
      (r.format src).out = src.take p ++
        (if q = src.length ∧ src.endsOpen = true then Text.join nl e.lines
          else e.lines.flatMap (· ++ nl)) ++ src.drop q := by
  refine ⟨format_of_plan_eq_none, fun e h => ?_⟩
  obtain ⟨before, block, after, hsrc, hcut, rfl⟩ := exists_cut_of_plan_texts h
  have hsrc : parseLines src = before ++ block ++ after := hsrc
  have hblock : block ≠ [] := by simpa using hcut.ne_nil
  have hsplit : parseLines src = before ++ (block ++ after) := by rw [hsrc, List.append_assoc]
  have htake := take_offset hsplit
  have hdrop := drop_offset hsrc
  rw [List.length_append] at hdrop
  show _ = src.take (offset src before.length) ++ (if offset src (before.length + block.length) =
    src.length ∧ src.endsOpen = true then _ else _) ++
    src.drop (offset src (before.length + block.length))
  rw [htake, hdrop, format_of_cut hsrc hcut, written_append, written_append,
    if_congr (open_block_iff hsrc hblock) rfl rfl]
  split_ifs
  · rw [written_insertedLines_none]
  · rw [written_insertedLines_self]

/-- A block at the open end of a text with two kinds of terminators. -/
theorem format_splices_open :
    standard.plan (parse "x\r\nimport B\rimport A").texts =
      some ⟨⟨1, 2⟩, ["import A", "import B"]⟩ ∧
    (standard.format "x\r\nimport B\rimport A").out = "x\r\nimport A\r\nimport B" := by
  have hplan : standard.plan (parse "x\r\nimport B\rimport A").texts =
      some ⟨⟨1, 2⟩, ["import A", "import B"]⟩ := by
    decide +kernel
  refine ⟨hplan, ((format_splices standard _).2 _ hplan).trans ?_⟩
  decide +kernel

end Rules

end ImportBlock
