import ImportBlock.Source.Buffer
import Mathlib.Data.List.Basic
import Mathlib.Logic.Function.Iterate

/-!
# Reading and writing lines

A text is cut into lines from the left: bytes other than terminators, a terminator, and the rest
(`line_induction`). Writing what was read gives the text back (`written_parseLines`). Lines that are
written in front of a text are read back when no carriage return among them is followed by a line
feed that belongs to what comes next (`ReadBefore`, `parseLines_written_append`).

The offset of a line counts the bytes in front of it (`offset`). It cuts the text where the list of
lines is cut (`take_offset`, `drop_offset`).
-/

namespace ImportBlock

/-- No byte of the text belongs to a terminator. -/
def Text.Clean (t : Text) : Prop := ∀ b ∈ t, b ≠ 10 ∧ b ≠ 13

instance (t : Text) : Decidable t.Clean := inferInstanceAs (Decidable (∀ b ∈ t, _))

theorem Text.clean_nil : Text.Clean [] := by simp [Clean]

theorem Text.clean_cons {b : UInt8} {t : Text} :
    Text.Clean (b :: t) ↔ (b ≠ 10 ∧ b ≠ 13) ∧ t.Clean :=
  List.forall_mem_cons

theorem Text.clean_append {s t : Text} : Text.Clean (s ++ t) ↔ s.Clean ∧ t.Clean :=
  List.forall_mem_append

/-- The terminator and the start of the text after it read as another terminator. -/
def Terminator.Fuses (e : Terminator) (rest : Text) : Prop := e = .cr ∧ rest.head? = some 10

instance (e : Terminator) (rest : Text) : Decidable (e.Fuses rest) :=
  inferInstanceAs (Decidable (_ ∧ _))

theorem Terminator.bytes_ne_nil (e : Terminator) : e.bytes ≠ [] := by
  cases e <;> simp [bytes]

namespace Buffer

/-- The terminators of the lines. -/
def endings (b : Buffer) : List (Option Terminator) := b.lines.map BufferLine.ending

/-- The text of a list of lines. -/
def written (ls : List BufferLine) : Text := ls.flatMap BufferLine.bytes

@[simp] theorem written_nil : written [] = [] := rfl

@[simp] theorem written_cons (l : BufferLine) (ls : List BufferLine) :
    written (l :: ls) = l.bytes ++ written ls := rfl

@[simp] theorem written_append (ls ls' : List BufferLine) :
    written (ls ++ ls') = written ls ++ written ls' := List.flatMap_append

/-! ## One line at a time -/

theorem parseLines_clean_append {t rest : Text} {l : BufferLine} {ls : List BufferLine}
    (ht : t.Clean) (hl : parseLines rest = l :: ls) :
    parseLines (t ++ rest) = ⟨t ++ l.text, l.ending⟩ :: ls := by
  induction t with
  | nil => exact hl
  | cons b t ih =>
    obtain ⟨⟨hlf, hcr⟩, ht⟩ := Text.clean_cons.mp ht
    rw [List.cons_append, parseLines.eq_def]
    simp [hcr, ih ht]

/-- A line with its terminator is read as one line. -/
theorem parseLines_line {t rest : Text} {e : Terminator} (ht : t.Clean) (he : ¬ e.Fuses rest) :
    parseLines (t ++ e.bytes ++ rest) = ⟨t, some e⟩ :: parseLines rest := by
  have hend : parseLines (e.bytes ++ rest) = ⟨[], some e⟩ :: parseLines rest := by
    cases e with
    | lf => simp [Terminator.bytes, parseLines]
    | crlf => simp [Terminator.bytes, parseLines]
    | cr =>
      have hrest : ∀ rest', rest ≠ 10 :: rest' := by
        rintro rest' rfl
        exact he ⟨rfl, rfl⟩
      rw [parseLines.eq_def]
      simp only [Terminator.bytes, List.cons_append, List.nil_append]
  rw [List.append_assoc, parseLines_clean_append ht hend, List.append_nil]

theorem parseLines_open {t : Text} (ht : t.Clean) (hne : t ≠ []) : parseLines t = [⟨t, none⟩] := by
  obtain ⟨t', b, rfl⟩ := List.eq_nil_or_concat t |>.resolve_left hne
  obtain ⟨hlf, hcr⟩ := ht b (by simp)
  have hlast : parseLines [b] = [⟨[b], none⟩] := by
    rw [parseLines.eq_def]
    simp [parseLines]
  simpa using parseLines_clean_append (fun x hx => ht x (by simp [hx])) hlast

/-- Every text is empty, an open line, or a line with its terminator in front of a text. -/
theorem line_induction {P : Text → Prop} (nil : P [])
    (last : ∀ t : Text, t.Clean → t ≠ [] → P t)
    (line : ∀ (t : Text) (e : Terminator) (rest : Text), t.Clean → ¬ e.Fuses rest → P rest →
      P (t ++ e.bytes ++ rest)) (src : Text) : P src := by
  -- the bytes of the current line are kept in front while the rest is taken apart
  suffices h : ∀ t : Text, t.Clean → P (t ++ src) from h [] Text.clean_nil
  have hline : ∀ (e : Terminator) (rest : Text), ¬ e.Fuses rest →
      (∀ t : Text, t.Clean → P (t ++ rest)) → ∀ t : Text, t.Clean → P (t ++ (e.bytes ++ rest)) := by
    intro e rest he ih t ht
    rw [← List.append_assoc]
    exact line t e rest ht he (ih [] Text.clean_nil)
  have hbyte : ∀ (b : UInt8) (rest : Text), b ≠ 10 → b ≠ 13 →
      (∀ t : Text, t.Clean → P (t ++ rest)) → ∀ t : Text, t.Clean → P (t ++ b :: rest) := by
    intro b rest hlf hcr ih t ht
    have hb : Text.Clean [b] := by simp [Text.Clean, hlf, hcr]
    simpa using ih (t ++ [b]) (Text.clean_append.mpr ⟨ht, hb⟩)
  fun_induction parseLines src with
  | case1 =>
    intro t ht
    rw [List.append_nil]
    by_cases hne : t = []
    · exact hne ▸ nil
    · exact last t ht hne
  | case2 rest ih => exact hline .lf rest (by simp [Terminator.Fuses]) ih
  | case3 rest ih => exact hline .crlf rest (by simp [Terminator.Fuses]) ih
  | case4 rest hrest ih =>
    refine hline .cr rest ?_ ih
    rintro ⟨-, hhead⟩
    obtain ⟨rest', rfl⟩ := List.head?_eq_some_iff.mp hhead
    exact hrest rest' rfl
  | case5 b rest hlf _ hcr _ _ _ ih => exact hbyte b rest hlf hcr ih
  | case6 b rest hlf _ hcr _ ih => exact hbyte b rest hlf hcr ih

/-! ## Round trips -/

theorem written_parseLines (src : Text) : written (parseLines src) = src := by
  induction src using line_induction with
  | nil => rfl
  | last t ht hne =>
    rw [parseLines_open ht hne]
    simp [BufferLine.bytes]
  | line t e rest ht he ih =>
    rw [parseLines_line ht he, written_cons, ih]
    rfl

/-- No line that was read holds a byte of a terminator. -/
theorem clean_of_mem_parseLines {src : Text} {l : BufferLine} (h : l ∈ parseLines src) :
    l.text.Clean := by
  induction src using line_induction with
  | nil => simp [parseLines] at h
  | last t ht hne =>
    rw [parseLines_open ht hne, List.mem_singleton] at h
    rwa [h]
  | line t e rest ht he ih =>
    rw [parseLines_line ht he, List.mem_cons] at h
    rcases h with rfl | h
    · exact ht
    · exact ih h

/-- Every line but the last has a terminator. -/
def Ended (ls : List BufferLine) : Prop := ∀ l ∈ ls.dropLast, l.ending ≠ none

theorem ended_append {ls' : List BufferLine} (ls : List BufferLine) (h : ls' ≠ []) :
    Ended (ls ++ ls') ↔ (∀ l ∈ ls, l.ending ≠ none) ∧ Ended ls' := by
  unfold Ended
  rw [List.dropLast_append_of_ne_nil h, List.forall_mem_append]

theorem ended_cons {l : BufferLine} {ls : List BufferLine} (h : ls ≠ []) :
    Ended (l :: ls) ↔ l.ending ≠ none ∧ Ended ls := by
  rw [← List.singleton_append, ended_append [l] h, List.forall_mem_singleton]

theorem Ended.of_cons {l : BufferLine} {ls : List BufferLine} (h : Ended (l :: ls)) : Ended ls := by
  rcases ls with _ | ⟨l', ls⟩
  · simp [Ended]
  · exact ((ended_cons (by simp)).mp h).2

theorem ended_parseLines (src : Text) : Ended (parseLines src) := by
  induction src using line_induction with
  | nil => simp [Ended, parseLines]
  | last t ht hne => simp [Ended, parseLines_open ht hne]
  | line t e rest ht he ih =>
    rw [parseLines_line ht he]
    by_cases hrest : parseLines rest = []
    · simp [Ended, hrest]
    · exact (ended_cons hrest).mpr ⟨by simp, ih⟩

/-- The lines, written in front of `rest`, are read back: each has a terminator, and none of these
fuses with what follows it. -/
def ReadBefore : List BufferLine → Text → Prop
  | [], _ => True
  | ⟨_, none⟩ :: _, _ => False
  | ⟨t, some e⟩ :: ls, rest => t.Clean ∧ ¬ e.Fuses (written ls ++ rest) ∧ ReadBefore ls rest

theorem parseLines_written_append {ls : List BufferLine} {rest : Text} (h : ReadBefore ls rest) :
    parseLines (written ls ++ rest) = ls ++ parseLines rest := by
  fun_induction ReadBefore ls rest with
  | case1 => rfl
  | case2 => exact h.elim
  | case3 t e ls rest ih =>
    obtain ⟨ht, he, hls⟩ := h
    rw [written_cons, List.append_assoc]
    show parseLines (t ++ e.bytes ++ (written ls ++ rest)) = _
    rw [parseLines_line ht he, ih hls, List.cons_append]

/-- All lines of a text but the last are read back in front of what follows them. -/
theorem readBefore_of_parseLines {src : Text} {ls ls' : List BufferLine}
    (h : parseLines src = ls ++ ls') (hne : ls' ≠ []) : ReadBefore ls (written ls') := by
  induction src using line_induction generalizing ls with
  | nil =>
    have hnil : ls' = [] := (List.append_eq_nil_iff.mp h.symm).2
    exact absurd hnil hne
  | last t ht ht' =>
    rw [parseLines_open ht ht'] at h
    rcases ls with _ | ⟨l, ls⟩
    · trivial
    · have hnil : ls' = [] := (List.append_eq_nil_iff.mp (List.cons.inj h).2.symm).2
      exact absurd hnil hne
  | line t e rest ht he ih =>
    rw [parseLines_line ht he] at h
    rcases ls with _ | ⟨l, ls⟩
    · trivial
    · rw [List.cons_append, List.cons.injEq] at h
      obtain ⟨rfl, hrest⟩ := h
      refine ⟨ht, ?_, ih hrest⟩
      rwa [← written_append, ← hrest, written_parseLines]

/-- Lines are read back in front of another text, too, if that does not start with a line feed. -/
theorem ReadBefore.of_head? {ls : List BufferLine} {rest rest' : Text} (h : ReadBefore ls rest)
    (hhead : rest'.head? ≠ some 10) : ReadBefore ls rest' := by
  induction ls with
  | nil => trivial
  | cons l ls ih =>
    obtain ⟨t, _ | e⟩ := l
    · exact h.elim
    · obtain ⟨ht, he, hls⟩ := h
      refine ⟨ht, fun hfuse => ?_, ih hls⟩
      by_cases hnil : written ls = []
      · rw [hnil] at hfuse
        exact hhead hfuse.2
      · rw [Terminator.Fuses, List.head?_append_of_ne_nil _ hnil] at he hfuse
        exact he hfuse

/-! ## Offsets -/

/-- The first terminator that occurs in a text, and what follows it. -/
def firstEnd : Text → Option (Terminator × Text)
  | [] => none
  | 10 :: rest => some (.lf, rest)
  | 13 :: 10 :: rest => some (.crlf, rest)
  | 13 :: rest => some (.cr, rest)
  | _ :: rest => firstEnd rest

/-- What follows the first line of a text. -/
def afterLine (src : Text) : Text :=
  match firstEnd src with
  | some (_, rest) => rest
  | none => []

/-- The number of bytes in front of line `k`, all bytes if there is no such line. -/
def offset (src : Text) (k : ℕ) : ℕ := src.length - (afterLine^[k] src).length

theorem firstEnd_clean_append {t : Text} (ht : t.Clean) (rest : Text) :
    firstEnd (t ++ rest) = firstEnd rest := by
  induction t with
  | nil => rfl
  | cons b t ih =>
    obtain ⟨⟨hlf, hcr⟩, ht⟩ := Text.clean_cons.mp ht
    rw [List.cons_append, firstEnd.eq_def]
    simpa [hcr] using ih ht

theorem firstEnd_open {t : Text} (ht : t.Clean) : firstEnd t = none := by
  rw [← List.append_nil t, firstEnd_clean_append ht]
  rfl

theorem firstEnd_line {t rest : Text} {e : Terminator} (ht : t.Clean) (he : ¬ e.Fuses rest) :
    firstEnd (t ++ e.bytes ++ rest) = some (e, rest) := by
  rw [List.append_assoc, firstEnd_clean_append ht]
  cases e with
  | lf => rfl
  | crlf => rfl
  | cr =>
    have hrest : ∀ rest', rest ≠ 10 :: rest' := by
      rintro rest' rfl
      exact he ⟨rfl, rfl⟩
    simp only [Terminator.bytes, List.cons_append, List.nil_append, firstEnd]

theorem parseLines_afterLine (src : Text) :
    parseLines (afterLine src) = (parseLines src).drop 1 := by
  unfold afterLine
  induction src using line_induction with
  | nil => rfl
  | last t ht hne =>
    rw [firstEnd_open ht, parseLines_open ht hne]
    rfl
  | line t e rest ht he ih =>
    rw [firstEnd_line ht he, parseLines_line ht he]
    rfl

theorem parseLines_iterate_afterLine (src : Text) (k : ℕ) :
    parseLines (afterLine^[k] src) = (parseLines src).drop k := by
  induction k with
  | zero => rfl
  | succ k ih => rw [Function.iterate_succ_apply', parseLines_afterLine, ih, List.drop_drop]

section Append

variable {src : Text} {ls ls' : List BufferLine} (h : parseLines src = ls ++ ls')

include h

/-- Skipping lines of the text is dropping them from the list. -/
theorem iterate_afterLine : afterLine^[ls.length] src = written ls' := by
  have hdrop : (parseLines src).drop ls.length = ls' := by simp [h]
  rw [← hdrop, ← parseLines_iterate_afterLine, written_parseLines]

/-- The last lines of a text, written alone, are read back. -/
theorem parseLines_written_right : parseLines (written ls') = ls' := by
  rw [← iterate_afterLine h, parseLines_iterate_afterLine, h, List.drop_left]

theorem written_append_written : written ls ++ written ls' = src := by
  rw [← written_append, ← h, written_parseLines]

theorem offset_eq : offset src ls.length = (written ls).length := by
  have hlen := congrArg List.length (written_append_written h)
  rw [List.length_append] at hlen
  unfold offset
  rw [iterate_afterLine h]
  omega

/-- The bytes in front of a line are those of the lines in front of it. -/
theorem take_offset : src.take (offset src ls.length) = written ls := by
  rw [offset_eq h, ← written_append_written h, List.take_left]

/-- The bytes from a line on are those of the lines from there on. -/
theorem drop_offset : src.drop (offset src ls.length) = written ls' := by
  rw [offset_eq h, ← written_append_written h, List.drop_left]

end Append

section Middle

variable {src : Text} {front ls back : List BufferLine} (h : parseLines src = front ++ ls ++ back)

include h

theorem clean_middle : ∀ t ∈ ls.map BufferLine.text, t.Clean := by
  intro t ht
  obtain ⟨l, hl, rfl⟩ := List.mem_map.mp ht
  have hmem : l ∈ parseLines src := by simp [h, hl]
  exact clean_of_mem_parseLines hmem

/-- Lines that stand between others in a text, written alone, are read back. -/
theorem parseLines_written_middle : parseLines (written ls) = ls := by
  by_cases hback : back = []
  · rw [hback, List.append_nil] at h
    exact parseLines_written_right h
  · rw [List.append_assoc] at h
    have hread : ReadBefore ls [] :=
      (readBefore_of_parseLines (parseLines_written_right h) hback).of_head? (by simp)
    simpa [parseLines] using parseLines_written_append hread

end Middle

end Buffer

end ImportBlock
