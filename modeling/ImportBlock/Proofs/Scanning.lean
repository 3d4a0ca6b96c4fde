import ImportBlock.Proofs.Location
import ImportBlock.Source.Block
import Mathlib.Algebra.Group.Nat.Defs
import Mathlib.Order.Bounds.Basic

/-!
# Scanning for the import block

`IsRange lines range` says by indices which range is the import block. There is at most one such
range (`IsRange.unique`), and `locate` gives it (`locate_eq_some_iff_isRange`).

A reader that takes the lines one at a time comes to the same range. It keeps the indices of the
first and the last import it has seen, and it stops at the first line of code behind an import.

1. `Scan.Sound lines i` is what such a reader knows after `i` lines. One more line keeps it
   (`Scan.Sound.step`), and so does a whole run (`Scan.Sound.run`).
2. At the end of a run that is the definition of the range, or there is no import (`scan_cases`).
-/

namespace ImportBlock

/-! ## Ranges as machine words -/

/-- The range as a span of machine words. -/
def LineRange.toSpan (r : LineRange) : Span := ⟨Int64.ofNat r.start, Int64.ofNat r.length⟩

theorem LineRange.toInt_toSpan {r : LineRange} {n : ℕ} (h : r.stop ≤ n) (hn : n < 2 ^ 63) :
    r.toSpan.start.toInt = r.start ∧ r.toSpan.stop.toInt = r.stop := by
  have hle : r.start ≤ r.stop := Nat.le_add_right _ _
  have hsum : r.toSpan.stop = Int64.ofNat r.stop := (Int64.ofNat_add r.start r.length).symm
  rw [hsum]
  exact ⟨Int64.toInt_ofNat_of_lt (by omega), Int64.toInt_ofNat_of_lt (by omega)⟩

/-- A range among the lines is cut out by its words, whatever stands behind the lines. -/
theorem LineRange.select?_toSpan {r : LineRange} {l : Slice} (h : r.stop ≤ l.lines.length)
    (hlines : l.lines.length < 2 ^ 63) : r.toSpan.select? l = some (r.select l.lines) := by
  obtain ⟨hstart, hstop⟩ := toInt_toSpan h hlines
  have hle : r.start ≤ r.stop := Nat.le_add_right r.start r.length
  have hlength : r.stop - r.start = r.length := Nat.add_sub_cancel_left r.start r.length
  have hmemory : l.lines.length ≤ l.capacity := Nat.le_add_right _ _
  have hfirst : Span.index? l.capacity r.toSpan.start = some r.start := by
    unfold Span.index?
    rw [hstart, if_pos (by omega), Int.toNat_natCast]
  have hlast : Span.index? l.capacity r.toSpan.stop = some r.stop := by
    unfold Span.index?
    rw [hstop, if_pos (by omega), Int.toNat_natCast]
  have hlines : (l.memory.drop r.start).take r.length = r.select l.lines := by
    have hwithin : r.length ≤ (l.lines.drop r.start).length := by
      rw [List.length_drop]
      omega
    unfold Slice.memory select
    rw [List.drop_append_of_le_length (hle.trans h), List.take_append_of_le_length hwithin]
  unfold Span.select?
  rw [hfirst, hlast]
  simp [hle, hlength, hlines]

namespace Block

open Line

variable {lines : List Text} {r r' : LineRange}

/-! ## The range by indices -/

/-- What the line at an index is, if there is one. -/
def roleAt (lines : List Text) (i : ℕ) : Option Role := lines[i]?.map role

/-- The range is the import block: it starts with the first import of all and ends with an import,
has only blank lines and imports, and is followed by blank lines and then code, or by nothing
more. -/
structure IsRange (lines : List Text) (r : LineRange) : Prop where
  first : IsLeast {i | roleAt lines i = some .statement} r.start
  nonempty : r.start < r.stop
  within : r.stop ≤ lines.length
  last : roleAt lines (r.stop - 1) = some .statement
  inside : ∀ i, r.start ≤ i → i < r.stop →
    roleAt lines i = some .blank ∨ roleAt lines i = some .statement
  after : ∃ n, r.stop ≤ n ∧ (∀ i, r.stop ≤ i → i < n → roleAt lines i = some .blank) ∧
    (n = lines.length ∨ roleAt lines n = some .code)

theorem lt_length_of_roleAt {i : ℕ} {x : Role} (h : roleAt lines i = some x) :
    i < lines.length := by
  obtain ⟨l, hl, -⟩ := Option.map_eq_some_iff.mp h
  exact (List.getElem?_eq_some_iff.mp hl).1

theorem exists_roleAt_iff {x : Role} :
    (∃ i, roleAt lines i = some x) ↔ ∃ l ∈ lines, role l = x := by
  constructor
  · rintro ⟨i, hi⟩
    obtain ⟨l, hl, hx⟩ := Option.map_eq_some_iff.mp hi
    exact ⟨l, List.mem_of_getElem? hl, hx⟩
  · rintro ⟨l, hl, hx⟩
    obtain ⟨i, hi⟩ := List.mem_iff_getElem?.mp hl
    exact ⟨i, by simp [roleAt, hi, hx]⟩

/-- Behind its end a range has code or nothing before any import, so no other range reaches
farther. -/
theorem IsRange.stop_le (h : IsRange lines r) (h' : IsRange lines r') : r'.stop ≤ r.stop := by
  by_contra hlt
  obtain ⟨n, hn, hblank, hend⟩ := h.after
  have hstart := h.first.unique h'.first
  have hnonempty := h.nonempty
  -- the last import of the other range is not one of the blank lines up to `n`
  have hreach : n < r'.stop := by
    by_contra hle
    have hlast := hblank (r'.stop - 1) (by omega) (by omega)
    rw [h'.last] at hlast
    cases hlast
  rcases hend with rfl | hcode
  · have := h'.within
    omega
  · rcases h'.inside n (by omega) hreach with hx | hx <;> simp [hx] at hcode

theorem IsRange.unique (h : IsRange lines r) (h' : IsRange lines r') : r = r' := by
  have hstart := h.first.unique h'.first
  have hstop := Nat.le_antisymm (h'.stop_le h) (h.stop_le h')
  cases r
  cases r'
  simp only [LineRange.stop] at hstart hstop
  simp only [LineRange.mk.injEq]
  omega

/-- From the first import of all to another one there is no code. -/
structure Reaches (lines : List Text) (i j : ℕ) : Prop where
  first : IsLeast {k | roleAt lines k = some .statement} i
  le : i ≤ j
  last : roleAt lines j = some .statement
  inside : ∀ k, i ≤ k → k ≤ j → roleAt lines k = some .blank ∨ roleAt lines k = some .statement

theorem Reaches.single {i : ℕ} (hnone : ∀ k < i, roleAt lines k ≠ some .statement)
    (hi : roleAt lines i = some .statement) : Reaches lines i i := by
  refine ⟨⟨hi, ?_⟩, Nat.le_refl i, hi, ?_⟩
  · intro k hk
    by_contra hlt
    exact hnone k (by omega) hk
  · intro k hik hki
    obtain rfl : k = i := Nat.le_antisymm hki hik
    exact Or.inr hi

theorem Reaches.extend {i j n : ℕ} (h : Reaches lines i j) (hn : j < n)
    (hblank : ∀ k, j < k → k < n → roleAt lines k = some .blank)
    (hlast : roleAt lines n = some .statement) : Reaches lines i n := by
  have hle := h.le
  refine ⟨h.first, by omega, hlast, ?_⟩
  intro k hik hkn
  -- up to the old end, behind it, or the new end
  rcases Nat.lt_or_ge j k with hjk | hkj
  · rcases Nat.lt_or_eq_of_le hkn with hkn | rfl
    · exact Or.inl (hblank k hjk hkn)
    · exact Or.inr hlast
  · exact h.inside k hik hkj

theorem Reaches.isRange {i j n : ℕ} (h : Reaches lines i j) (hn : j < n)
    (hblank : ∀ k, j < k → k < n → roleAt lines k = some .blank)
    (hend : n = lines.length ∨ roleAt lines n = some .code) : IsRange lines ⟨i, j - i + 1⟩ := by
  have hle := h.le
  have hstop : (⟨i, j - i + 1⟩ : LineRange).stop = j + 1 := by
    show i + (j - i + 1) = j + 1
    omega
  refine ⟨h.first, ?_, ?_, ?_, ?_, n, ?_, ?_, hend⟩
  all_goals rw [hstop]
  · show i < j + 1
    omega
  · exact lt_length_of_roleAt h.last
  · exact h.last
  · intro k hk hkj
    exact h.inside k hk (by omega)
  · exact hn
  · intro k hk
    exact hblank k (by omega)

/-! ## The range of a cut -/

theorem roleAt_append_left {xs : List Text} {i : ℕ} (h : i < xs.length) (ys : List Text) :
    roleAt (xs ++ ys) i = roleAt xs i := by
  unfold roleAt
  rw [List.getElem?_append_left h]

theorem roleAt_append_right (xs ys : List Text) (i : ℕ) :
    roleAt (xs ++ ys) (xs.length + i) = roleAt ys i := by
  unfold roleAt
  rw [List.getElem?_append_right (by omega), Nat.add_sub_cancel_left]

theorem Closed.exists_end {after : List Text} (h : Closed after) :
    ∃ n, (∀ i < n, roleAt after i = some .blank) ∧
      (n = after.length ∨ roleAt after n = some .code) := by
  induction h with
  | nil => exact ⟨0, by simp, Or.inl rfl⟩
  | code ls hl => exact ⟨0, by simp, Or.inr (by simp [roleAt, hl])⟩
  | @blank l ls hl _ ih =>
    obtain ⟨n, hblank, hend⟩ := ih
    refine ⟨n + 1, ?_, hend.imp (fun e => by simp [e]) id⟩
    intro i hi
    cases i with
    | zero => simp [roleAt, hl]
    | succ i => exact hblank i (by omega)

theorem IsBlock.reaches {block : List Text} (h : IsBlock block) :
    Reaches block 0 (block.length - 1) := by
  obtain ⟨l, hl, hfirst⟩ := h.first
  obtain ⟨l', hl', hlast⟩ := h.last
  rw [Option.mem_def, List.head?_eq_getElem?] at hl
  rw [Option.mem_def, List.getLast?_eq_getElem?] at hl'
  refine ⟨⟨by simp [roleAt, hl, hfirst], fun k _ => Nat.zero_le k⟩, Nat.zero_le _,
    by simp [roleAt, hl', hlast], ?_⟩
  intro k _ hk
  have hpos : 0 < block.length := List.length_pos_iff.mpr h.ne_nil
  obtain ⟨x, hx⟩ : ∃ x, block[k]? = some x := ⟨_, List.getElem?_eq_getElem (by omega)⟩
  have hcode := h.inside x (List.mem_of_getElem? hx)
  simp only [roleAt, hx, Option.map_some, Option.some.injEq]
  cases hr : role x <;> simp_all

theorem Reaches.append_left {i j : ℕ} {before : List Text} (h : Reaches lines i j)
    (hbefore : ∀ l ∈ before, role l ≠ .statement) :
    Reaches (before ++ lines) (before.length + i) (before.length + j) := by
  have hright := roleAt_append_right before lines
  have hle := h.le
  refine ⟨⟨?_, ?_⟩, by omega, by rw [hright]; exact h.last, ?_⟩
  · show roleAt _ _ = _
    rw [hright]
    exact h.first.1
  · intro k hk
    change roleAt (before ++ lines) k = some .statement at hk
    rcases Nat.lt_or_ge k before.length with hlt | hge
    · rw [roleAt_append_left hlt] at hk
      obtain ⟨l, hl, hstat⟩ := exists_roleAt_iff.mp ⟨k, hk⟩
      exact absurd hstat (hbefore l hl)
    · obtain ⟨m, rfl⟩ := Nat.exists_eq_add_of_le hge
      rw [hright] at hk
      exact Nat.add_le_add_left (h.first.2 hk) _
  · intro k hik hkj
    obtain ⟨m, rfl⟩ := Nat.exists_eq_add_of_le (Nat.le_of_add_right_le hik)
    rw [hright]
    exact h.inside m (by omega) (by omega)

theorem Reaches.append_right {i j : ℕ} (h : Reaches lines i j) (after : List Text) :
    Reaches (lines ++ after) i j := by
  have hj := lt_length_of_roleAt h.last
  have hle := h.le
  refine ⟨⟨?_, ?_⟩, hle, by rw [roleAt_append_left hj]; exact h.last, ?_⟩
  · show roleAt _ _ = _
    rw [roleAt_append_left (by omega)]
    exact h.first.1
  · intro k hk
    by_contra hlt
    change roleAt (lines ++ after) k = some .statement at hk
    rw [roleAt_append_left (by omega)] at hk
    exact hlt (h.first.2 hk)
  · intro k hik hkj
    rw [roleAt_append_left (by omega)]
    exact h.inside k hik hkj

theorem IsCut.isRange {before block after : List Text} (h : IsCut before block after) :
    IsRange (before ++ block ++ after) ⟨before.length, block.length⟩ := by
  have hpos : 0 < block.length := List.length_pos_iff.mpr h.ne_nil
  have hreach := (h.reaches.append_left h.lead).append_right after
  have hafter := roleAt_append_right (before ++ block) after
  obtain ⟨n, hblank, hend⟩ := h.closed.exists_end
  have hrange := hreach.isRange (n := (before ++ block).length + n)
    (by rw [List.length_append]; omega) ?_ ?_
  · have hlen : before.length + (block.length - 1) - (before.length + 0) + 1 = block.length := by
      omega
    rwa [hlen] at hrange
  · intro k hk hkn
    rw [List.length_append] at hkn
    obtain ⟨m, rfl⟩ : ∃ m, k = (before ++ block).length + m :=
      Nat.exists_eq_add_of_le (by rw [List.length_append]; omega)
    rw [hafter]
    exact hblank m (by rw [List.length_append] at hkn; omega)
  · rw [hafter]
    exact hend.imp (fun e => by rw [e, ← List.length_append]) id

theorem locate_eq_some_iff_isRange : locate lines = some r ↔ IsRange lines r := by
  have hfound : ∀ r, locate lines = some r → IsRange lines r := by
    intro r h
    obtain ⟨before, block, after, rfl, hcut, rfl⟩ := locate_eq_some_iff.mp h
    exact hcut.isRange
  refine ⟨hfound r, fun h => ?_⟩
  rcases hloc : locate lines with _ | r'
  · obtain ⟨l, hl, hstat⟩ := exists_roleAt_iff.mp ⟨_, h.first.1⟩
    exact absurd hstat (locate_eq_none_iff.mp hloc l hl)
  · rw [(hfound r' hloc).unique h]

/-! ## Line by line -/

/-- How far a reader is that looks for the import block: no import so far, or the indices of the
first and the last import of the block, which may have ended. -/
inductive Scan
  | outside
  | inside (first last : ℕ)
  | ended (first last : ℕ)
  deriving DecidableEq, Repr

namespace Scan

/-- Read the line with index `i`. -/
def step (i : ℕ) (line : Text) : Scan → Scan
  | outside => if role line = .statement then inside i i else outside
  | inside first last =>
    match role line with
    | .statement => inside first i
    | .blank => inside first last
    | .code => ended first last
  | ended first last => ended first last

/-- Read lines from index `i` on, up to the end of the block. -/
def run : Scan → ℕ → List Text → Scan
  | ended first last, _, _ => ended first last
  | s, _, [] => s
  | s, i, l :: ls => run (s.step i l) (i + 1) ls

/-- The range that was found, empty if there was no import. -/
def range : Scan → LineRange
  | outside => ⟨0, 0⟩
  | inside first last => ⟨first, last - first + 1⟩
  | ended first last => ⟨first, last - first + 1⟩

end Scan

/-- The range of the import block, by one pass over the lines. -/
def scan (lines : List Text) : LineRange := (Scan.outside.run 0 lines).range

/-- What a reader knows after `i` lines. -/
def Scan.Sound (lines : List Text) (i : ℕ) : Scan → Prop
  | outside => ∀ j < i, roleAt lines j ≠ some .statement
  | inside first last => Reaches lines first last ∧ last < i ∧
    ∀ j, last < j → j < i → roleAt lines j = some .blank
  | ended first last => Reaches lines first last ∧ ∃ n, last < n ∧
    (∀ j, last < j → j < n → roleAt lines j = some .blank) ∧ roleAt lines n = some .code

theorem Scan.Sound.step {s : Scan} {i : ℕ} {l : Text} (hl : lines[i]? = some l)
    (h : s.Sound lines i) : (s.step i l).Sound lines (i + 1) := by
  have hi : roleAt lines i = some (role l) := by
    unfold roleAt
    rw [hl, Option.map_some]
  cases s with
  | outside =>
    unfold Scan.step
    split_ifs with hstat
    · rw [hstat] at hi
      exact ⟨.single h hi, Nat.lt_succ_self i, by omega⟩
    · intro j hj
      rcases Nat.lt_succ_iff_lt_or_eq.mp hj with hj | rfl
      · exact h j hj
      · rw [hi]
        simpa using hstat
  | inside first last =>
    obtain ⟨hreach, hlast, hblank⟩ := h
    cases hrole : role l with
    | blank =>
      rw [hrole] at hi
      simp only [Scan.step, hrole]
      refine ⟨hreach, by omega, ?_⟩
      intro j hj hji
      rcases Nat.lt_succ_iff_lt_or_eq.mp hji with hji | rfl
      · exact hblank j hj hji
      · exact hi
    | statement =>
      rw [hrole] at hi
      simp only [Scan.step, hrole]
      exact ⟨hreach.extend hlast hblank hi, Nat.lt_succ_self i, by omega⟩
    | code =>
      rw [hrole] at hi
      simp only [Scan.step, hrole]
      exact ⟨hreach, i, hlast, hblank, hi⟩
  | ended first last => exact h

theorem Scan.Sound.run {s : Scan} {seen rest : List Text} (hlines : lines = seen ++ rest)
    (h : s.Sound lines seen.length) : (s.run seen.length rest).Sound lines lines.length := by
  induction rest generalizing s seen with
  | nil =>
    have hlen : seen.length = lines.length := by simp [hlines]
    rw [hlen] at h ⊢
    cases s <;> exact h
  | cons l rest ih =>
    have hl : lines[seen.length]? = some l := by simp [hlines]
    have hnext := ih (hlines.trans (List.append_cons seen l rest)) (by simpa using h.step hl)
    rw [List.length_append] at hnext
    cases s with
    | outside => exact hnext
    | inside first last => exact hnext
    | ended first last =>
      -- the rest is not read
      exact h

theorem scan_cases (lines : List Text) :
    ((∀ l ∈ lines, role l ≠ .statement) ∧ scan lines = ⟨0, 0⟩) ∨ IsRange lines (scan lines) := by
  have hstart : Scan.outside.Sound lines ([] : List Text).length := by simp [Scan.Sound]
  have hend := hstart.run (List.nil_append lines).symm
  unfold scan
  rw [List.length_nil] at hend
  rcases hrun : Scan.outside.run 0 lines with _ | ⟨first, last⟩ | ⟨first, last⟩
  all_goals rw [hrun] at hend
  · refine Or.inl ⟨fun l hl hstat => ?_, rfl⟩
    obtain ⟨i, hi⟩ := exists_roleAt_iff.mpr ⟨l, hl, hstat⟩
    exact hend i (lt_length_of_roleAt hi) hi
  · obtain ⟨hreach, hlast, hblank⟩ := hend
    exact Or.inr (hreach.isRange hlast hblank (Or.inl rfl))
  · obtain ⟨hreach, n, hlast, hblank, hcode⟩ := hend
    exact Or.inr (hreach.isRange hlast hblank (Or.inr hcode))

/-- One pass over the lines finds the block that `locate` gives. -/
theorem scan_eq (lines : List Text) : scan lines = (locate lines).getD ⟨0, 0⟩ := by
  rcases scan_cases lines with ⟨hnone, hscan⟩ | hrange
  · rw [hscan, locate_eq_none hnone]
    rfl
  · rw [locate_eq_some_iff_isRange.mpr hrange]
    rfl

/-! ## The imports of the range -/

/-- The imports of a block are the normal forms of its import lines. -/
theorem IsBlock.imports_eq {block : List Text} (h : IsBlock block) :
    imports block = (block.filter fun l => isImport (normalize l)).map normalize := by
  have hsame : ∀ l ∈ block, (!(normalize l).isEmpty) = isImport (normalize l) := by
    intro l hl
    have hcode := h.inside l hl
    rcases hr : role l with _ | _ | _
    · rw [role_eq_blank_iff.mp hr]
      rfl
    · have hne : normalize l ≠ [] := by
        rw [Ne, ← role_eq_blank_iff, hr]
        simp
      simp [role_eq_statement_iff.mp hr, hne]
    · exact absurd hr hcode
  unfold imports
  rw [List.filter_map]
  exact congrArg (List.map normalize) (List.filter_congr hsame)

theorem scan_eq_empty_iff : scan lines = ⟨0, 0⟩ ↔ locate lines = none := by
  rw [scan_eq]
  rcases hloc : locate lines with _ | r
  · simp
  · have hpos := (locate_eq_some_iff_isRange.mp hloc).nonempty
    have hne : r ≠ ⟨0, 0⟩ := fun e => by simp [e, LineRange.stop] at hpos
    simpa using hne

theorem stop_scan_le (lines : List Text) : (scan lines).stop ≤ lines.length := by
  rcases scan_cases lines with ⟨-, hscan⟩ | hrange
  · rw [hscan]
    exact Nat.zero_le _
  · exact hrange.within

/-- **The import block.** Lines without an import have no block. All others have exactly one range
as `IsRange` describes it; `locate` gives it, and one pass over the lines finds it. What is
extracted from it is the normal forms of its import lines, in order. As long as words can count the
lines, the range as words never points outside them. -/
theorem locate_exact (lines : List Text) :
    (locate lines = none ↔ ∀ l ∈ lines, isImport (normalize l) = false) ∧
    (scan lines = ⟨0, 0⟩ ↔ ∀ l ∈ lines, isImport (normalize l) = false) ∧
    (∀ r, locate lines = some r ↔ IsRange lines r) ∧
    scan lines = (locate lines).getD ⟨0, 0⟩ ∧
    (∀ r, IsRange lines r →
      extract lines r =
        ((r.select lines).filter fun l => isImport (normalize l)).map normalize ∧
      ∀ x ∈ extract lines r, isImport x = true) ∧
    (lines.length < 2 ^ 63 →
      (scan lines).toSpan.extract? lines = some (extract lines (scan lines))) := by
  have hnone : locate lines = none ↔ ∀ l ∈ lines, isImport (normalize l) = false := by
    simp only [locate_eq_none_iff, role_ne_statement_iff]
  refine ⟨hnone, scan_eq_empty_iff.trans hnone, fun r => locate_eq_some_iff_isRange, scan_eq lines,
    ?_, ?_⟩
  · intro r hr
    obtain ⟨before, block, after, rfl, hcut, rfl⟩ :=
      locate_eq_some_iff.mp (locate_eq_some_iff_isRange.mpr hr)
    rw [extract_append, select_append]
    refine ⟨hcut.imports_eq, fun x hx => ?_⟩
    obtain ⟨hstat, hnormal⟩ := hcut.of_mem_imports hx
    rw [← hnormal]
    exact role_eq_statement_iff.mp hstat
  · intro hlines
    unfold Span.extract?
    rw [LineRange.select?_toSpan (stop_scan_le lines) hlines]
    rfl

/-- A block with a blank line inside, blank lines behind it, and an import after the code. -/
theorem locate_exact_spaced :
    let lines : List Text := ["// x", "import B", " ", "import  A", "", "", "y", "import C"]
    lines.length < 2 ^ 63 ∧ IsRange lines ⟨1, 3⟩ ∧
      extract lines ⟨1, 3⟩ = [Text.ofString "import B", Text.ofString "import A"] ∧
      (scan lines).toSpan.extract? lines =
        some [Text.ofString "import B", Text.ofString "import A"] := by
  intro lines
  have hlines : lines.length < 2 ^ 63 := by decide
  have hloc : locate lines = some ⟨1, 3⟩ := by decide +kernel
  obtain ⟨-, -, hrange, hscan, hextract, hspan⟩ := locate_exact lines
  have himports : extract lines ⟨1, 3⟩ = [Text.ofString "import B", Text.ofString "import A"] := by
    rw [(hextract _ ((hrange _).mp hloc)).1]
    decide +kernel
  refine ⟨hlines, (hrange _).mp hloc, himports, ?_⟩
  rw [hspan hlines, hscan, hloc, Option.getD_some, himports]

end Block

end ImportBlock
