import ImportBlock.Proofs.Splicing

/-!
# Runs of replacements

A replacement may touch the terminators at the end of the buffer, so that an open last line stays
open and no other line becomes open. `splice_cases` lists what can happen to the lines; what every
replacement keeps follows from it (`ended_splice`, `endsOpen_splice`).

An editor keeps the lines and their terminators in two lists and works on them by index (`Columns`).
There each access can miss. `replace?_columns` shows that none does: the checked replacement of the
two columns always succeeds, and it is the replacement of the lines.
-/

namespace ImportBlock

/-! ## Checked access -/

namespace Columns

variable {α : Type}

/-- The element at an index. -/
def at? (xs : List α) (i : Int) : Option α :=
  if 0 ≤ i ∧ i < xs.length then xs[i.toNat]? else none

/-- The elements from one index up to another. -/
def slice? (xs : List α) (i j : Int) : Option (List α) :=
  if 0 ≤ i ∧ i ≤ j ∧ j ≤ xs.length then some ((xs.drop i.toNat).take (j - i).toNat) else none

/-- The elements with the one at an index replaced. -/
def put? (xs : List α) (i : Int) (a : α) : Option (List α) :=
  if 0 ≤ i ∧ i < xs.length then some (xs.set i.toNat a) else none

theorem slice?_left (xs ys : List α) : slice? (xs ++ ys) 0 xs.length = some xs := by
  have hbound : (0 : Int) ≤ 0 ∧ 0 ≤ (xs.length : Int) ∧ (xs.length : Int) ≤ (xs ++ ys).length := by
    rw [List.length_append]
    omega
  unfold slice?
  rw [if_pos hbound]
  simp

theorem slice?_right (xs ys : List α) :
    slice? (xs ++ ys) xs.length (xs ++ ys).length = some ys := by
  have hbound : 0 ≤ (xs.length : Int) ∧ (xs.length : Int) ≤ (xs ++ ys).length ∧
      ((xs ++ ys).length : Int) ≤ (xs ++ ys).length := by
    rw [List.length_append]
    omega
  have hlen : ((xs ++ ys).length - xs.length : Int).toNat = ys.length := by
    rw [List.length_append]
    omega
  unfold slice?
  rw [if_pos hbound, hlen, Int.toNat_natCast, List.drop_left, List.take_length]

theorem at?_last {xs : List α} (ys : List α) (h : xs ≠ []) :
    at? (xs ++ ys) (xs.length - 1) = xs.getLast? := by
  have hpos : 0 < xs.length := List.length_pos_iff.mpr h
  have hbound : 0 ≤ (xs.length - 1 : Int) ∧ (xs.length - 1 : Int) < (xs ++ ys).length := by
    rw [List.length_append]
    omega
  have hindex : (xs.length - 1 : Int).toNat = xs.length - 1 := by omega
  unfold at?
  rw [if_pos hbound, hindex, List.getElem?_append_left (by omega), List.getLast?_eq_getElem?]

theorem put?_last {xs : List α} (ys : List α) (h : xs ≠ []) (a : α) :
    put? (xs ++ ys) (xs.length - 1) a = some (xs.dropLast ++ [a] ++ ys) := by
  obtain ⟨xs, x, rfl⟩ := (List.eq_nil_or_concat' xs).resolve_left h
  have hindex : ((xs ++ [x]).length - 1 : Int) = xs.length := by simp
  have hbound : 0 ≤ (xs.length : Int) ∧ (xs.length : Int) < (xs ++ [x] ++ ys).length := by
    simp only [List.length_append, List.length_singleton]
    omega
  unfold put?
  rw [hindex, if_pos hbound]
  simp

end Columns

/-- The lines of a buffer and their terminators, each in a list of its own. -/
structure Columns where
  texts : List Text
  endings : List (Option Terminator)
  newline : Terminator
  deriving DecidableEq, Repr

namespace Columns

/-- Is the line at an index open? Looks there only under a condition. -/
def isOpenIf? (p : Prop) [Decidable p] (endings : List (Option Terminator)) (i : Int) :
    Option Bool :=
  if p then (at? endings i).map Option.isNone else some false

/-- Set the terminator of the line at an index, under a condition. -/
def putIf? (p : Prop) [Decidable p] (endings : List (Option Terminator)) (i : Int)
    (e : Option Terminator) : Option (List (Option Terminator)) :=
  if p then put? endings i e else some endings

/-- Set the terminators at the end of the buffer. The new last line stays open if the lines before
it took the place of an open end; lines behind an open last line close it and end open. -/
def settle? (newline : Terminator) (start added : Nat) (cutsOpen followsOpen : Bool)
    (endings : List (Option Terminator)) : Option (List (Option Terminator)) := do
  let endings ← putIf? (cutsOpen ∧ 0 < endings.length) endings (endings.length - 1) none
  let endings ← putIf? (followsOpen ∧ 0 < added) endings (start - 1) (some newline)
  putIf? (followsOpen ∧ 0 < added) endings (endings.length - 1) none

/-- Replace a span, with every index checked. -/
def replace? (c : Columns) (s : Span) (new : List Text) : Option Columns := do
  let size := c.texts.length
  let start := Span.clamp size s.start
  let stop := max start (Span.clamp size s.stop)
  let cutsOpen ← isOpenIf? (start < stop ∧ stop = size) c.endings (stop - 1)
  let texts := (← slice? c.texts 0 start) ++ new ++ (← slice? c.texts stop size)
  let endings := (← slice? c.endings 0 start) ++ new.map (fun _ => some c.newline)
    ++ (← slice? c.endings stop c.endings.length)
  let followsOpen ← isOpenIf? (start = size ∧ 0 < start) c.endings (start - 1)
  let endings ← settle? c.newline start new.length cutsOpen followsOpen endings
  return ⟨texts, endings, c.newline⟩

/-- Replace one span after the other. -/
def replaceAll? (c : Columns) (es : List (Span × List Text)) : Option Columns :=
  es.foldlM (fun c e => c.replace? e.1 e.2) c

end Columns

namespace Buffer

/-- The buffer as two lists. -/
def columns (b : Buffer) : Columns := ⟨b.texts, b.endings, b.newline⟩

/-- Replace one span after the other. -/
def replaceAll (b : Buffer) (es : List (Span × List Text)) : Buffer :=
  es.foldl (fun b e => b.replace e.1 e.2) b

/-! ## What a replacement keeps -/

/-- The clamped ends of a span cut the lines. -/
theorem exists_cut_of_span (b : Buffer) (s : Span) :
    ∃ before removed after, b.lines = before ++ removed ++ after ∧
      Span.clamp b.size s.start = before.length ∧
      max (Span.clamp b.size s.start) (Span.clamp b.size s.stop) =
        before.length + removed.length := by
  have hstart : Span.clamp b.size s.start ≤ b.lines.length := Nat.min_le_right _ _
  have hstop : Span.clamp b.size s.stop ≤ b.lines.length := Nat.min_le_right _ _
  generalize Span.clamp b.size s.start = start at hstart
  generalize Span.clamp b.size s.stop = stop at hstop
  refine ⟨b.lines.take start, (b.lines.drop start).take (max start stop - start),
    b.lines.drop (max start stop), ?_, ?_, ?_⟩
  · have hsplit : (b.lines.drop start).drop (max start stop - start) =
        b.lines.drop (max start stop) := by
      rw [List.drop_drop]
      congr 1
      omega
    rw [← hsplit, List.append_assoc, List.take_append_drop, List.take_append_drop]
  · rw [List.length_take]
    omega
  · rw [List.length_take, List.length_take, List.length_drop]
    omega

theorem replace_of_cut {b : Buffer} {s : Span} {before removed after : List BufferLine}
    (hlines : b.lines = before ++ removed ++ after)
    (hstart : Span.clamp b.size s.start = before.length)
    (hstop : max (Span.clamp b.size s.start) (Span.clamp b.size s.stop) =
      before.length + removed.length) (new : List Text) :
    b.replace s new = (⟨before ++ removed ++ after, b.newline⟩ : Buffer).splice before.length
      (before.length + removed.length) new := by
  rw [← hlines, ← hstop, ← hstart]
  rfl

@[simp] theorem endsOpen_nil : endsOpen [] = false := rfl

theorem setLastEnding_concat (e : Option Terminator) (ls : List BufferLine) (l : BufferLine) :
    setLastEnding e (ls ++ [l]) = ls ++ [⟨l.text, e⟩] :=
  setLastEnding_append e ls (by simp)

theorem Ended.forall_of_not_endsOpen {ls : List BufferLine} (h : Ended ls)
    (hlast : endsOpen ls = false) : ∀ l ∈ ls, l.ending ≠ none := by
  rcases List.eq_nil_or_concat' ls with rfl | ⟨ls, l, rfl⟩
  · simp
  · obtain ⟨hls, -⟩ := (ended_append ls (by simp)).mp h
    refine List.forall_mem_append.mpr ⟨hls, ?_⟩
    rw [endsOpen_append _ (by simp)] at hlast
    simpa [endsOpen, Option.isSome_iff_ne_none] using hlast

theorem endsOpen_of_forall {ls : List BufferLine} (h : ∀ l ∈ ls, l.ending ≠ none) :
    endsOpen ls = false := by
  rcases List.eq_nil_or_concat' ls with rfl | ⟨ls, l, rfl⟩
  · rfl
  · have hl := h l (by simp)
    rw [endsOpen_append _ (by simp)]
    simpa [endsOpen, Option.isSome_iff_ne_none] using hl

theorem ended_of_forall {ls : List BufferLine} (h : ∀ l ∈ ls, l.ending ≠ none) : Ended ls :=
  fun l hl => h l (List.dropLast_subset _ hl)

theorem ended_setLastEnding (e : Option Terminator) {ls : List BufferLine} (h : Ended ls) :
    Ended (setLastEnding e ls) := by
  rcases List.eq_nil_or_concat' ls with rfl | ⟨ls, l, rfl⟩
  · exact h
  · unfold Ended at h ⊢
    rw [setLastEnding_concat, List.dropLast_concat]
    rwa [List.dropLast_concat] at h

theorem endsOpen_setLastEnding (e : Option Terminator) {ls : List BufferLine} (h : ls ≠ []) :
    endsOpen (setLastEnding e ls) = e.isNone := by
  obtain ⟨ls, l, rfl⟩ := (List.eq_nil_or_concat' ls).resolve_left h
  rw [setLastEnding_concat, endsOpen_append _ (by simp)]
  rfl

section Splice

variable (before removed after : List BufferLine) (nl : Terminator) (new : List Text)
  (hended : Ended (before ++ removed ++ after))

include hended

/-- The lines after a replacement. The end of the buffer was open and is open again, or lines with
terminators stand in front of what is kept of the end, or nothing was replaced by nothing. -/
theorem splice_cases :
    let lines := ((⟨before ++ removed ++ after, nl⟩ : Buffer).splice before.length
      (before.length + removed.length) new).lines
    (endsOpen (before ++ removed ++ after) = true ∧
      ∃ front, (∀ l ∈ front, l.ending ≠ none) ∧ lines = setLastEnding none front) ∨
    ((after = [] → endsOpen (before ++ removed ++ after) = false) ∧
      ∃ front, (∀ l ∈ front, l.ending ≠ none) ∧ lines = front ++ after) ∨
    lines = before ++ removed ++ after := by
  intro lines
  have hlines : lines = _ := congrArg Buffer.lines (splice_cut before removed after nl new)
  have hinserted : ∀ l ∈ new.map fun t => (⟨t, some nl⟩ : BufferLine), l.ending ≠ none := by simp
  clear_value lines
  by_cases hafter : after = []
  · subst hafter
    rw [List.append_nil] at hended ⊢
    by_cases hremoved : removed = []
    · subst hremoved
      rw [List.append_nil] at hended ⊢
      rcases hopen : endsOpen before with _ | _
      · have hbefore := hended.forall_of_not_endsOpen hopen
        exact .inr (.inl ⟨fun _ => rfl, _, List.forall_mem_append.mpr ⟨hbefore, hinserted⟩,
          by simp [hlines, hopen]⟩)
      · by_cases hnew : new = []
        · exact .inr (.inr (by simp [hlines, hnew]))
        · -- the open line gets a terminator, and the last of the new ones loses its own
          have hne : before ≠ [] := by
            rintro rfl
            simp at hopen
          have hclosed := (ended_setLastEnding (some nl) hended).forall_of_not_endsOpen
            (endsOpen_setLastEnding (some nl) hne)
          refine .inl ⟨rfl, _, List.forall_mem_append.mpr ⟨hclosed, hinserted⟩, ?_⟩
          rw [setLastEnding_append none _ (by simpa using hnew)]
          simp [hlines, hopen, hnew]
    · obtain ⟨hbefore, -⟩ := (ended_append before hremoved).mp hended
      have hfront := List.forall_mem_append.mpr ⟨hbefore, hinserted⟩
      rw [endsOpen_append before hremoved]
      rcases hopen : endsOpen removed with _ | _
      · exact .inr (.inl ⟨fun _ => rfl, _, hfront, by simp [hlines, hopen, hremoved]⟩)
      · exact .inl ⟨rfl, _, hfront, by simp [hlines, hopen]⟩
  · obtain ⟨hkept, -⟩ := (ended_append (before ++ removed) hafter).mp hended
    have hbefore : ∀ l ∈ before, l.ending ≠ none := fun l hl => hkept l (by simp [hl])
    exact .inr (.inl ⟨fun h => absurd h hafter, _,
      List.forall_mem_append.mpr ⟨hbefore, hinserted⟩, by simp [hlines, hafter]⟩)

theorem ended_splice :
    Ended ((⟨before ++ removed ++ after, nl⟩ : Buffer).splice before.length
      (before.length + removed.length) new).lines := by
  rcases splice_cases before removed after nl new hended with
    ⟨-, front, hfront, hlines⟩ | ⟨-, front, hfront, hlines⟩ | hlines <;> rw [hlines]
  · exact ended_setLastEnding none (ended_of_forall hfront)
  · by_cases hafter : after = []
    · rw [hafter, List.append_nil]
      exact ended_of_forall hfront
    · exact (ended_append _ hafter).mpr ⟨hfront, ((ended_append _ hafter).mp hended).2⟩
  · exact hended

theorem endsOpen_splice (hne : ((⟨before ++ removed ++ after, nl⟩ : Buffer).splice before.length
      (before.length + removed.length) new).lines ≠ []) :
    endsOpen ((⟨before ++ removed ++ after, nl⟩ : Buffer).splice before.length
      (before.length + removed.length) new).lines = endsOpen (before ++ removed ++ after) := by
  rcases splice_cases before removed after nl new hended with
    ⟨hopen, front, -, hlines⟩ | ⟨hopen, front, hfront, hlines⟩ | hlines <;> rw [hlines] at hne ⊢
  · have hfront : front ≠ [] := by
      rintro rfl
      exact hne rfl
    rw [endsOpen_setLastEnding none hfront, hopen]
    rfl
  · by_cases hafter : after = []
    · rw [hopen hafter, hafter, List.append_nil]
      exact endsOpen_of_forall hfront
    · rw [endsOpen_append _ hafter, endsOpen_append _ hafter]

end Splice

section Replace

variable {b : Buffer} (s : Span) (new : List Text)

theorem newline_replace : (b.replace s new).newline = b.newline := by
  obtain ⟨before, removed, after, hlines, hstart, hstop⟩ := exists_cut_of_span b s
  rw [replace_of_cut hlines hstart hstop, splice_cut]

theorem Ended.replace (h : Ended b.lines) : Ended (b.replace s new).lines := by
  obtain ⟨before, removed, after, hlines, hstart, hstop⟩ := exists_cut_of_span b s
  rw [hlines] at h
  rw [replace_of_cut hlines hstart hstop]
  exact ended_splice before removed after b.newline new h

/-- The end of a buffer stays open, or closed, as long as the buffer has lines. -/
theorem Ended.endsOpen_replace (h : Ended b.lines) (hne : (b.replace s new).lines ≠ []) :
    endsOpen (b.replace s new).lines = endsOpen b.lines := by
  obtain ⟨before, removed, after, hlines, hstart, hstop⟩ := exists_cut_of_span b s
  rw [replace_of_cut hlines hstart hstop] at hne ⊢
  rw [hlines] at h ⊢
  exact endsOpen_splice before removed after b.newline new h hne

end Replace

/-! ## No access misses -/

theorem map_text_setLastEnding (e : Option Terminator) (ls : List BufferLine) :
    (setLastEnding e ls).map BufferLine.text = ls.map BufferLine.text := by
  rcases List.eq_nil_or_concat' ls with rfl | ⟨ls, l, rfl⟩
  · rfl
  · simp [setLastEnding_concat]

theorem isOpenIf?_last {p : Prop} [Decidable p] {ls : List BufferLine} (ls' : List BufferLine)
    (hp : p) (h : ls ≠ []) :
    Columns.isOpenIf? p ((ls ++ ls').map BufferLine.ending) (ls.length - 1) =
      some (endsOpen ls) := by
  have hmap : ls.map BufferLine.ending ≠ [] := by simpa using h
  have hat := Columns.at?_last (ls'.map BufferLine.ending) hmap
  rw [List.length_map] at hat
  unfold Columns.isOpenIf? endsOpen
  rw [if_pos hp, List.map_append, hat, List.getLast?_map, List.getLast?_eq_some_getLast h]
  rfl

theorem putIf?_setLastEnding {p : Prop} [Decidable p] (e : Option Terminator) {ls : List BufferLine}
    (ls' : List BufferLine) (hp : p) (h : ls ≠ []) :
    Columns.putIf? p ((ls ++ ls').map BufferLine.ending) (ls.length - 1) e =
      some ((setLastEnding e ls ++ ls').map BufferLine.ending) := by
  obtain ⟨ls, l, rfl⟩ := (List.eq_nil_or_concat' ls).resolve_left h
  have hmap : (ls ++ [l]).map BufferLine.ending ≠ [] := by simp
  have hput := Columns.put?_last (ls'.map BufferLine.ending) hmap e
  rw [List.length_map] at hput
  unfold Columns.putIf?
  rw [if_pos hp, List.map_append, hput, setLastEnding_concat]
  simp

theorem putIf?_end {p : Prop} [Decidable p] (e : Option Terminator) {ls : List BufferLine} (hp : p)
    (h : ls ≠ []) :
    Columns.putIf? p (ls.map BufferLine.ending) ((ls.map BufferLine.ending).length - 1) e =
      some ((setLastEnding e ls).map BufferLine.ending) := by
  have hput := putIf?_setLastEnding e [] hp h
  rwa [List.append_nil, List.append_nil, ← List.length_map BufferLine.ending] at hput

theorem putIf?_open {p : Prop} [Decidable p] (ls : List BufferLine) (hp : p) :
    Columns.putIf? (p ∧ 0 < (ls.map BufferLine.ending).length) (ls.map BufferLine.ending)
        ((ls.map BufferLine.ending).length - 1) none =
      some ((setLastEnding none ls).map BufferLine.ending) := by
  by_cases hne : ls = []
  · simp [hne, setLastEnding, Columns.putIf?]
  · refine putIf?_end none ⟨hp, ?_⟩ hne
    rw [List.length_map]
    exact List.length_pos_iff.mpr hne

theorem putIf?_of_not {p : Prop} [Decidable p] (hp : ¬ p) (endings : List (Option Terminator))
    (i : Int) (e : Option Terminator) : Columns.putIf? p endings i e = some endings :=
  if_neg hp

section Cut

variable {b : Buffer} {before removed after : List BufferLine}
  (hlines : b.lines = before ++ removed ++ after)

include hlines

theorem size_eq : b.size = before.length + removed.length + after.length := by
  unfold size
  rw [hlines, List.length_append, List.length_append]

theorem cutsOpen_eq :
    Columns.isOpenIf? (before.length < before.length + removed.length ∧
        before.length + removed.length = b.size) b.endings
        ((before.length + removed.length : ℕ) - 1) =
      some (after.isEmpty && endsOpen removed) := by
  have hsize := size_eq hlines
  by_cases hremoved : removed = []
  · unfold Columns.isOpenIf?
    rw [if_neg (by simp [hremoved]), hremoved]
    simp
  · have hpos : 0 < removed.length := List.length_pos_iff.mpr hremoved
    by_cases hafter : after = []
    · subst hafter
      have hne := List.append_ne_nil_of_right_ne_nil before hremoved
      rw [endings, hlines, ← List.length_append,
        isOpenIf?_last [] (by simp [hsize, hpos]) hne, endsOpen_append _ hremoved]
      rfl
    · have hpos : 0 < after.length := List.length_pos_iff.mpr hafter
      unfold Columns.isOpenIf?
      rw [if_neg (by omega)]
      simp [hafter]

theorem followsOpen_eq :
    Columns.isOpenIf? (before.length = b.size ∧ 0 < before.length) b.endings
        ((before.length : ℕ) - 1) =
      some (after.isEmpty && removed.isEmpty && endsOpen before) := by
  have hsize := size_eq hlines
  by_cases hrest : removed ++ after = []
  · obtain ⟨rfl, rfl⟩ := List.append_eq_nil_iff.mp hrest
    by_cases hbefore : before = []
    · simp [Columns.isOpenIf?, hbefore]
    · have hpos : 0 < before.length := List.length_pos_iff.mpr hbefore
      rw [endings, hlines, List.append_nil, isOpenIf?_last [] (by simp [hsize, hpos]) hbefore]
      simp
  · have hpos : 0 < (removed ++ after).length := List.length_pos_iff.mpr hrest
    rw [List.length_append] at hpos
    unfold Columns.isOpenIf?
    rw [if_neg (by omega)]
    rw [List.append_eq_nil_iff, not_and_or] at hrest
    rcases hrest with h | h <;> simp [h]

theorem slice?_map {α : Type} (f : BufferLine → α) :
    Columns.slice? (b.lines.map f) 0 before.length = some (before.map f) ∧
      Columns.slice? (b.lines.map f) (before.length + removed.length : ℕ) b.size =
        some (after.map f) := by
  have hleft := Columns.slice?_left (before.map f) ((removed ++ after).map f)
  have hright := Columns.slice?_right ((before ++ removed).map f) (after.map f)
  rw [← List.map_append, ← List.append_assoc, ← hlines, List.length_map] at hleft
  rw [← List.map_append, ← hlines, List.length_map, List.length_map, List.length_append] at hright
  exact ⟨hleft, hright⟩

end Cut

/-- The terminators are set as the lines are spliced. -/
theorem settle?_eq (before removed after : List BufferLine) (nl : Terminator) (new : List Text) :
    Columns.settle? nl before.length new.length (after.isEmpty && endsOpen removed)
        (after.isEmpty && removed.isEmpty && endsOpen before)
        ((before ++ new.map (fun t => (⟨t, some nl⟩ : BufferLine)) ++ after).map
          BufferLine.ending) =
      some (((⟨before ++ removed ++ after, nl⟩ : Buffer).splice before.length
        (before.length + removed.length) new).lines.map BufferLine.ending) := by
  have hfollows_iff : (after.isEmpty && removed.isEmpty && endsOpen before && !new.isEmpty) = true ↔
      (after.isEmpty && removed.isEmpty && endsOpen before) = true ∧ 0 < new.length := by
    simp [List.length_pos_iff]
  rw [splice_cut]
  unfold Columns.settle?
  simp only [Option.bind_eq_bind]
  by_cases hcut : (after.isEmpty && endsOpen removed) = true
  · obtain ⟨hafter, hopen⟩ : after = [] ∧ endsOpen removed = true := by simpa using hcut
    have hremoved : removed ≠ [] := by
      rintro rfl
      simp at hopen
    have hfollows : ¬ ((after.isEmpty && removed.isEmpty && endsOpen before) = true ∧
        0 < new.length) := by
      simp [hremoved]
    rw [putIf?_open _ hcut, Option.bind_some, putIf?_of_not hfollows, Option.bind_some,
      putIf?_of_not hfollows, if_pos hcut, hafter, List.append_nil]
  · rw [putIf?_of_not fun h => hcut h.1, Option.bind_some, if_neg hcut,
      if_congr hfollows_iff rfl rfl]
    by_cases hfollows : (after.isEmpty && removed.isEmpty && endsOpen before) = true ∧
        0 < new.length
    · have hnew : new.map (fun t => (⟨t, some nl⟩ : BufferLine)) ≠ [] := by
        simpa [List.length_pos_iff] using hfollows.2
      have hbefore : before ≠ [] := by
        rintro rfl
        simp at hfollows
      have hafter : after = [] := by simp_all
      rw [if_pos hfollows, hafter, List.append_nil, ← hafter,
        putIf?_setLastEnding _ _ hfollows hbefore, Option.bind_some,
        putIf?_end none hfollows (List.append_ne_nil_of_right_ne_nil _ hnew),
        setLastEnding_append none _ hnew]
    · rw [putIf?_of_not hfollows, Option.bind_some, putIf?_of_not hfollows, if_neg hfollows]

/-- Whatever becomes of the terminators, the lines themselves are spliced. -/
theorem texts_splice (b : Buffer) (start stop : ℕ) (new : List Text) :
    (b.splice start stop new).texts = b.texts.take start ++ new ++ b.texts.drop stop := by
  unfold splice texts
  dsimp only
  split_ifs <;> simp_all [map_text_setLastEnding, Function.comp_def]

theorem map_text_splice (before removed after : List BufferLine) (nl : Terminator)
    (new : List Text) :
    ((⟨before ++ removed ++ after, nl⟩ : Buffer).splice before.length
      (before.length + removed.length) new).lines.map BufferLine.text =
      before.map BufferLine.text ++ new ++ after.map BufferLine.text := by
  have hlen : (before.map BufferLine.text ++ removed.map BufferLine.text).length =
      before.length + removed.length := by
    simp
  refine (texts_splice _ _ _ new).trans ?_
  rw [texts, List.map_append, List.map_append, List.drop_left' hlen]
  simp

/-- **No access misses.** The checked replacement of the two columns is the replacement of the
lines. -/
theorem replace?_columns (b : Buffer) (s : Span) (new : List Text) :
    b.columns.replace? s new = some (b.replace s new).columns := by
  obtain ⟨before, removed, after, hlines, hstart, hstop⟩ := exists_cut_of_span b s
  have hreplace := replace_of_cut hlines hstart hstop new
  rw [hstart] at hstop
  have hsize : b.texts.length = b.size := List.length_map _
  have hsize' : b.endings.length = b.size := List.length_map _
  obtain ⟨hfront, hback⟩ : Columns.slice? b.texts _ _ = _ ∧ Columns.slice? b.texts _ _ = _ :=
    slice?_map hlines BufferLine.text
  obtain ⟨hfront', hback'⟩ : Columns.slice? b.endings _ _ = _ ∧ Columns.slice? b.endings _ _ = _ :=
    slice?_map hlines BufferLine.ending
  have hendings : before.map BufferLine.ending ++ new.map (fun _ => some b.newline) ++
      after.map BufferLine.ending = (before ++ new.map (fun t => (⟨t, some b.newline⟩ : BufferLine))
        ++ after).map BufferLine.ending := by
    simp [Function.comp_def]
  have hcolumns : (b.replace s new).columns = ⟨before.map BufferLine.text ++ new ++
      after.map BufferLine.text, (b.replace s new).endings, b.newline⟩ := by
    rw [columns, newline_replace, texts, hreplace, map_text_splice]
  rw [hcolumns]
  unfold Columns.replace?
  simp only [columns, hsize, hsize', hstart, hstop, cutsOpen_eq hlines, followsOpen_eq hlines,
    hfront, hback, hfront', hback', hendings, settle?_eq, Option.bind_eq_bind, Option.bind_some]
  rw [← hreplace]
  rfl

/-! ## Runs -/

theorem replaceAll?_columns (b : Buffer) (es : List (Span × List Text)) :
    b.columns.replaceAll? es = some (b.replaceAll es).columns := by
  induction es generalizing b with
  | nil => rfl
  | cons e es ih =>
    unfold Columns.replaceAll? at ih ⊢
    rw [List.foldlM_cons, replace?_columns, Option.bind_eq_bind, Option.bind_some, ih]
    rfl

theorem Ended.replaceAll {b : Buffer} (h : Ended b.lines) (es : List (Span × List Text)) :
    Ended (b.replaceAll es).lines := by
  induction es generalizing b with
  | nil => exact h
  | cons e es ih => exact ih (h.replace e.1 e.2)

theorem newline_replaceAll (b : Buffer) (es : List (Span × List Text)) :
    (b.replaceAll es).newline = b.newline := by
  induction es generalizing b with
  | nil => rfl
  | cons e es ih => exact (ih (b.replace e.1 e.2)).trans (newline_replace e.1 e.2)

/-- **Replacing lines.** Whatever spans of the buffer of a text are replaced, no access misses.
After each replacement every line has its terminator or, at the end of the buffer, none; the
terminator of new lines is the first of the text; and as long as the buffer has lines, its end stays
open or stays closed. -/
theorem replace_keeps_endings (src : Text) (es : List (Span × List Text)) (s : Span)
    (new : List Text) :
    let b := (parse src).replaceAll es
    let b' := b.replace s new
    ((parse src).columns.replaceAll? es = some b.columns ∧
      b.columns.replace? s new = some b'.columns) ∧
    b'.columns.texts.length = b'.columns.endings.length ∧
    (∀ e ∈ b'.columns.endings.dropLast, e ≠ none) ∧
    b'.newline = (parse src).newline ∧
    (b.lines ≠ [] → b'.lines ≠ [] → endsOpen b'.lines = endsOpen b.lines) := by
  intro b b'
  have hended : Ended b.lines := Ended.replaceAll (ended_parseLines src) es
  refine ⟨⟨replaceAll?_columns _ es, replace?_columns b s new⟩, ?_, ?_, ?_, ?_⟩
  · simp [columns, texts, endings]
  · intro e he
    rw [columns, endings, ← List.map_dropLast] at he
    obtain ⟨l, hl, rfl⟩ := List.mem_map.mp he
    exact hended.replace s new l hl
  · exact (newline_replace s new).trans (newline_replaceAll (parse src) es)
  · exact fun _ hne => hended.endsOpen_replace s new hne

/-- The first line is removed, and a line is put behind the open one that is left. The end of the
second span is negative, because the sum wraps around. -/
theorem replace_keeps_endings_wrapped :
    let b := (parse "a\r\nb").replaceAll [(⟨0, 1⟩, [])]
    let b' := b.replace ⟨9223372036854775807, 1⟩ ["c"]
    b.lines = [⟨"b", none⟩] ∧ b'.lines = [⟨"b", some .crlf⟩, ⟨"c", none⟩] ∧
      endsOpen b'.lines = endsOpen b.lines := by
  intro b b'
  have hb : b.lines = [⟨"b", none⟩] := by decide +kernel
  have hb' : b'.lines = [⟨"b", some .crlf⟩, ⟨"c", none⟩] := by decide +kernel
  refine ⟨hb, hb', ?_⟩
  exact (replace_keeps_endings "a\r\nb" [(⟨0, 1⟩, [])] ⟨9223372036854775807, 1⟩ ["c"]).2.2.2.2
    (ne_of_eq_of_ne hb (by simp)) (ne_of_eq_of_ne hb' (by simp))

end Buffer

end ImportBlock
