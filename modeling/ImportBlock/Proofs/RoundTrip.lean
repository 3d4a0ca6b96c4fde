import ImportBlock.Proofs.Reading
import Mathlib.Data.List.Chain

/-!
# Lines that are written and read again

A reader sees bytes only. It takes a carriage return and the line feed of an empty line behind it
for one terminator, and it does not see an empty open line at the end. `reread` carries both out on
lists of lines, and it is what reading gives for every list that can be written
(`parseLines_written`). So the lines that survive are those that `reread` leaves alone
(`reread_eq_self_iff`).
-/

namespace ImportBlock

/-- The two lines, one written behind the other, are read as one: a carriage return ends the first,
and the second has nothing but a line feed. -/
def BufferLine.Joins (l l' : BufferLine) : Prop := l.ending = some .cr ∧ l' = ⟨[], some .lf⟩

instance (l l' : BufferLine) : Decidable (l.Joins l') := inferInstanceAs (Decidable (_ ∧ _))

namespace Buffer

/-- The lines are what they hold and how they end. -/
theorem texts_endings_eq_iff {b b' : Buffer} :
    b.texts = b'.texts ∧ b.endings = b'.endings ↔ b.lines = b'.lines := by
  constructor
  · rintro ⟨htexts, hendings⟩
    have hzip : ∀ c : Buffer, List.zipWith BufferLine.mk c.texts c.endings = c.lines := by
      intro c
      simp [texts, endings, List.zipWith_map]
    rw [← hzip b, ← hzip b', htexts, hendings]
  · intro h
    simp [texts, endings, h]

/-- No line is joined to the one behind it. -/
def Apart (ls : List BufferLine) : Prop := ls.IsChain fun l l' => ¬ l.Joins l'

instance (ls : List BufferLine) : Decidable (Apart ls) :=
  inferInstanceAs (Decidable (ls.IsChain _))

/-- The lines that are read from the text of the given ones. -/
def reread : List BufferLine → List BufferLine
  | [] => []
  | [l] => if l = ⟨[], none⟩ then [] else [l]
  | l :: l' :: ls =>
    if l.Joins l' then ⟨l.text, some .crlf⟩ :: reread ls else l :: reread (l' :: ls)

/-! ## Reading what was written -/

/-- Only an empty line that ends with a line feed starts with one. -/
theorem fuses_written_iff {l : BufferLine} {ls : List BufferLine} (hclean : l.text.Clean)
    (hended : Ended (l :: ls)) (e : Terminator) :
    e.Fuses (written (l :: ls)) ↔ e = .cr ∧ l = ⟨[], some .lf⟩ := by
  refine and_congr_right fun _ => ?_
  obtain ⟨t, e'⟩ := l
  rcases t with _ | ⟨b, t⟩
  · cases e' with
    | none =>
      have hlast : ls = [] := by
        by_contra hne
        exact ((ended_cons hne).mp hended).1 rfl
      simp [hlast, BufferLine.bytes]
    | some e' => cases e' <;> simp [BufferLine.bytes, Terminator.bytes]
  · have hb : b ≠ 10 := (hclean b (by simp)).1
    cases e' <;> simp [BufferLine.bytes, hb]

/-- Writing lines and reading the text is `reread`. -/
theorem parseLines_written {ls : List BufferLine} (hclean : ∀ l ∈ ls, l.text.Clean)
    (hended : Ended ls) : parseLines (written ls) = reread ls := by
  fun_induction reread ls with
  | case1 => rfl
  | case2 => rfl
  | case3 l hne =>
    obtain ⟨t, e⟩ := l
    have ht : t.Clean := hclean ⟨t, e⟩ (by simp)
    cases e with
    | none => simpa [BufferLine.bytes] using parseLines_open ht (by simpa using hne)
    | some e => exact parseLines_line ht (by simp [Terminator.Fuses])
  | case4 l l' ls hjoins ih =>
    obtain ⟨t, e⟩ := l
    obtain ⟨rfl, rfl⟩ : e = some .cr ∧ l' = ⟨[], some .lf⟩ := hjoins
    have ht : t.Clean := hclean ⟨t, some .cr⟩ (by simp)
    have hbytes : written (⟨t, some .cr⟩ :: ⟨[], some .lf⟩ :: ls) =
        t ++ Terminator.crlf.bytes ++ written ls := by
      simp [BufferLine.bytes, Terminator.bytes]
    have hcrlf : ¬ Terminator.crlf.Fuses (written ls) := by simp [Terminator.Fuses]
    have hrest : ∀ l ∈ ls, l.text.Clean := fun l hl => hclean l (by simp [hl])
    rw [hbytes, parseLines_line ht hcrlf, ih hrest hended.of_cons.of_cons]
  | case5 l l' ls hjoins ih =>
    obtain ⟨hend, hrest⟩ := (ended_cons (by simp)).mp hended
    obtain ⟨t, e⟩ := l
    have ht : t.Clean := hclean ⟨t, e⟩ (by simp)
    obtain ⟨e, rfl⟩ := Option.ne_none_iff_exists'.mp hend
    have he : ¬ e.Fuses (written (l' :: ls)) := by
      rw [fuses_written_iff (hclean l' (by simp)) hrest]
      rintro ⟨rfl, hl'⟩
      exact hjoins ⟨rfl, hl'⟩
    rw [← ih (fun l hl => hclean l (by simp [hl])) hrest]
    exact parseLines_line ht he

/-! ## Lines that are read back -/

theorem reread_eq_self_iff {ls : List BufferLine} :
    reread ls = ls ↔ Apart ls ∧ ls.getLast? ≠ some ⟨[], none⟩ := by
  unfold Apart
  fun_induction reread ls with
  | case1 => simp
  | case2 => simp
  | case3 l hne => simp [hne]
  | case4 l l' ls hjoins ih =>
    -- the first line has another terminator now
    have hne : (⟨l.text, some .crlf⟩ : BufferLine) ≠ l := by
      intro h
      have hend := congrArg BufferLine.ending h
      rw [hjoins.1] at hend
      simp at hend
    simp [hne, hjoins]
  | case5 l l' ls hjoins ih =>
    rw [List.cons_eq_cons, ih, List.isChain_cons_cons, List.getLast?_cons_cons]
    simp [hjoins]

theorem reread_parseLines (src : Text) : reread (parseLines src) = parseLines src := by
  rw [← parseLines_written (fun _ hl => clean_of_mem_parseLines hl) (ended_parseLines src),
    written_parseLines]

/-- **Reading and writing.** A text is written back as it was read, from lines without terminators
inside. A buffer of such lines is read back as it was written exactly when no carriage return is
followed by an empty line that ends with a line feed, and the last line is not empty and open. -/
theorem parse_bytes_inverse :
    (∀ src, (parse src).bytes = src ∧ (∀ t ∈ (parse src).texts, t.Clean) ∧
      (parse src).texts.length = (parse src).endings.length) ∧
    ∀ b : Buffer, (∀ t ∈ b.texts, t.Clean) → (∀ e ∈ b.endings.dropLast, e ≠ none) →
      ((parse b.bytes).texts = b.texts ∧ (parse b.bytes).endings = b.endings ↔
        Apart b.lines ∧ b.lines.getLast? ≠ some ⟨[], none⟩) := by
  constructor
  · intro src
    refine ⟨written_parseLines src, ?_, by simp [texts, endings]⟩
    intro t ht
    obtain ⟨l, hl, rfl⟩ := List.mem_map.mp ht
    exact clean_of_mem_parseLines hl
  · intro b hclean hended
    have hlines : parseLines b.bytes = reread b.lines := by
      refine parseLines_written (fun l hl => hclean l.text (List.mem_map_of_mem hl)) fun l hl => ?_
      apply hended
      rw [endings, ← List.map_dropLast]
      exact List.mem_map_of_mem hl
    rw [texts_endings_eq_iff, ← reread_eq_self_iff, ← hlines]
    rfl

/-- All three terminators next to each other, none of them joined to the next. -/
theorem parse_bytes_inverse_mixed :
    let b : Buffer := ⟨[⟨"a", some .cr⟩, ⟨[], some .crlf⟩, ⟨[], some .lf⟩, ⟨"b", none⟩], .cr⟩
    (∀ t ∈ b.texts, t.Clean) ∧ (∀ e ∈ b.endings.dropLast, e ≠ none) ∧
      (parse b.bytes).texts = b.texts ∧ (parse b.bytes).endings = b.endings := by
  intro b
  have hclean : ∀ t ∈ b.texts, t.Clean := by decide +kernel
  have hended : ∀ e ∈ b.endings.dropLast, e ≠ none := by decide
  exact ⟨hclean, hended, (parse_bytes_inverse.2 b hclean hended).mpr (by decide +kernel)⟩

end Buffer

end ImportBlock
