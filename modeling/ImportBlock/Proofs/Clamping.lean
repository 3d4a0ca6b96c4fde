import ImportBlock.Proofs.Replacing
import ImportBlock.Proofs.SpliceBounds

/-!
# Replacing a span given as words

There are two ways to put lines in the place of others: an edit of a list of lines, and a
replacement in a buffer, which takes a span of words, moves both ends of it among the lines and
looks after the terminators. On a span among the lines they agree (`splice?_eq_texts_replace`), and
a planned edit is such a span (`replace_toSpan`).

Outside the lines the end of a span is moved only after the words were added, and the sum may wrap
around (`Span.stop_cases`). Where it does not, each end moves to the nearest line; where it does,
the end is usually taken for another line (`replace_nearest_iff`).
-/

namespace ImportBlock

namespace Span

variable (s : Span)

/-- The index from 0 to `n` that is nearest to an integer. -/
def nearest (n : ℕ) (x : ℤ) : ℕ := (max 0 (min x n)).toNat

theorem clamp_eq_nearest (n : ℕ) (w : Int64) : clamp n w = nearest n w.toInt := by
  unfold clamp nearest
  omega

theorem nearest_le (n : ℕ) (x : ℤ) : nearest n x ≤ n := by
  unfold nearest
  omega

/-- A sum that wraps around does no harm when it was too large and the span starts behind the lines,
and when it was too small and is zero again, or there are no lines. -/
theorem max_nearest_stop_iff (n : ℕ) :
    max (nearest n s.start.toInt) (nearest n s.stop.toInt) =
        max (nearest n s.start.toInt) (nearest n s.reach) ↔
      ¬ (2 ^ 63 ≤ s.reach ∧ s.start.toInt < n) ∧
      ¬ (s.reach < -2 ^ 63 ∧ s.reach ≠ -2 ^ 64 ∧ 0 < n) := by
  have hbounds := s.bounds
  have hreach : s.reach = s.start.toInt + s.length.toInt := rfl
  rcases s.stop_cases with ⟨hlow, hhigh, hstop⟩ | ⟨hlarge, hstop⟩ | ⟨hsmall, hstop⟩
  · exact iff_of_true (by rw [hstop]) (by omega)
  · -- the wrapped end lies in front of all lines
    have hzero : nearest n s.stop.toInt = 0 := by
      unfold nearest
      omega
    rw [hzero]
    unfold nearest
    omega
  · -- the span starts in front of all lines
    have hzero : nearest n s.start.toInt = 0 := by
      unfold nearest
      omega
    have hzero' : nearest n s.reach = 0 := by
      unfold nearest
      omega
    rw [hzero, hzero', hstop]
    unfold nearest
    omega

end Span

namespace Buffer

open ImportBlock.Span

variable (b : Buffer)

/-! ## The two ways agree -/

theorem texts_edit (e : Edit) : (b.edit e).texts = e.apply b.texts := b.texts_splice _ _ _

theorem texts_regroup (r : Rules) : (b.regroup r).texts = r.sort b.texts := by
  unfold regroup Rules.sort
  cases r.plan b.texts with
  | none => rfl
  | some e => exact b.texts_edit e

theorem texts_replace (s : Span) (new : List Text) :
    (b.replace s new).texts = b.texts.take (nearest b.size s.start.toInt) ++ new ++
      b.texts.drop (max (nearest b.size s.start.toInt) (nearest b.size s.stop.toInt)) := by
  rw [← clamp_eq_nearest, ← clamp_eq_nearest]
  exact b.texts_splice _ _ _

theorem length_texts : b.texts.length = b.size := List.length_map _

variable {b}

/-- An edit among the lines is the replacement of its range as words. -/
theorem replace_toSpan {e : Edit} (h : e.range.stop ≤ b.size) (hsize : b.size < 2 ^ 63) :
    b.replace e.range.toSpan e.lines = b.edit e := by
  obtain ⟨hstart, hstop⟩ := LineRange.toInt_toSpan h hsize
  have hle : e.range.start ≤ e.range.stop := Nat.le_add_right _ _
  have hfirst : clamp b.size e.range.toSpan.start = e.range.start := by
    unfold clamp
    omega
  have hlast : clamp b.size e.range.toSpan.stop = e.range.stop := by
    unfold clamp
    omega
  unfold replace edit
  dsimp only
  rw [hfirst, hlast, Nat.max_eq_right hle]

theorem stop_le_size_of_plan {r : Rules} {e : Edit} (h : r.plan b.texts = some e) :
    e.range.stop ≤ b.size := by
  rw [← length_texts]
  exact (r.bounds_of_plan h).2.1

section Within

variable {s : Span} (hstart : 0 ≤ s.start.toInt) (hle : s.start.toInt ≤ s.stop.toInt)
  (hstop : s.stop.toInt ≤ b.size)

include hstart hle hstop

theorem texts_replace_eq_spliced (new : List Text) :
    (b.replace s new).texts = s.spliced b.texts new := by
  have hfirst : nearest b.size s.start.toInt = s.start.toInt.toNat := by
    unfold nearest
    omega
  have hlast : max s.start.toInt.toNat (nearest b.size s.stop.toInt) = s.stop.toInt.toNat := by
    unfold nearest
    omega
  rw [texts_replace, hfirst, hlast, spliced, Slice.memory, List.append_nil]

theorem texts_replace_of_within (new : List Text) :
    (b.replace s new).texts =
      (⟨⟨s.start.toInt.toNat, s.length.toInt.toNat⟩, new⟩ : Edit).apply b.texts := by
  have hsum := toInt_stop_of_nonneg hstart (hstart.trans hle)
  have hlast : s.stop.toInt.toNat = s.start.toInt.toNat + s.length.toInt.toNat := by
    omega
  rw [texts_replace_eq_spliced hstart hle hstop, spliced, Slice.memory, List.append_nil, hlast]
  rfl

/-- The checked splice succeeds when its result can be counted by a word. -/
theorem splice?_eq_texts_replace {new : List Text} (hsize : (b.replace s new).size < 2 ^ 63) :
    s.splice? b.texts new = some (b.replace s new).texts := by
  have htexts := texts_replace_eq_spliced hstart hle hstop new
  have hfits : s.Fits b.texts := by
    unfold Fits Slice.capacity
    rw [length_texts]
    exact ⟨⟨hstart, hle.trans hstop⟩, hstart.trans hle, hstop⟩
  rw [htexts]
  apply splice?_of_fits hfits
  rwa [← htexts, length_texts]

end Within

/-- **Two ways to splice.** In a buffer, however its lines were replaced before, sorting the import
block gives the lines that sorting the list of lines gives, and so does the planned edit as a
replacement of words. Every replacement of a span among the lines gives what the edit of the list
gives, with words as well, as long as words can count the lines. -/
theorem replace_agrees_with_sort (src : Text) (es : List (Span × List Text)) (r : Rules) :
    let b := (parse src).replaceAll es
    (b.regroup r).texts = r.sort b.texts ∧
    (b.size < 2 ^ 63 → ∀ e, r.plan b.texts = some e →
      b.replace e.range.toSpan e.lines = b.regroup r ∧
      (b.replace e.range.toSpan e.lines).texts = r.sort b.texts) ∧
    ∀ (s : Span) (new : List Text), 0 ≤ s.start.toInt → s.start.toInt ≤ s.stop.toInt →
      s.stop.toInt ≤ b.size →
      (b.replace s new).texts =
        (⟨⟨s.start.toInt.toNat, s.length.toInt.toNat⟩, new⟩ : Edit).apply b.texts ∧
      ((b.replace s new).size < 2 ^ 63 →
        s.splice? b.texts new = some (b.replace s new).texts) := by
  intro b
  refine ⟨b.texts_regroup r, ?_, ?_⟩
  · intro hsize e hplan
    have hregroup : b.replace e.range.toSpan e.lines = b.regroup r := by
      rw [replace_toSpan (stop_le_size_of_plan hplan) hsize]
      unfold regroup
      rw [hplan]
    exact ⟨hregroup, by rw [hregroup, texts_regroup]⟩
  · intro s new hstart hle hstop
    exact ⟨texts_replace_of_within hstart hle hstop new,
      splice?_eq_texts_replace hstart hle hstop⟩

/-- The block is the open end of a buffer that got another first line. -/
theorem replace_agrees_with_sort_open :
    let b := (parse "y\nimport B\nimport A").replaceAll [(⟨0, 1⟩, ["x"])]
    let s : Span := ⟨1, 2⟩
    (b.size < 2 ^ 63 ∧
      Rules.standard.plan b.texts = some ⟨⟨1, 2⟩, ["import A", "import B"]⟩ ∧
      (b.replace s ["import A", "import B"]).texts = ["x", "import A", "import B"]) ∧
    0 ≤ s.start.toInt ∧ s.start.toInt ≤ s.stop.toInt ∧ s.stop.toInt ≤ b.size ∧
      (b.replace s []).size < 2 ^ 63 ∧ s.splice? b.texts [] = some [Text.ofString "x"] := by
  intro b s
  obtain ⟨-, hsort, hsplice⟩ := replace_agrees_with_sort "y\nimport B\nimport A"
    [(⟨0, 1⟩, ["x"])] .standard
  have hsize : b.size < 2 ^ 63 := by decide +kernel
  have hplan : Rules.standard.plan b.texts = some ⟨⟨1, 2⟩, ["import A", "import B"]⟩ := by
    decide +kernel
  have hstart : 0 ≤ s.start.toInt := by decide
  have hle : s.start.toInt ≤ s.stop.toInt := by decide
  have hstop : s.stop.toInt ≤ b.size := by decide +kernel
  have hcount : (b.replace s []).size < 2 ^ 63 := by decide +kernel
  refine ⟨⟨hsize, hplan, (hsort hsize _ hplan).2.trans ?_⟩, hstart, hle, hstop, hcount,
    ((hsplice s [] hstart hle hstop).2 hcount).trans ?_⟩
  all_goals decide +kernel

/-! ## Spans that reach outside -/

theorem append_drop_eq_iff {xs ys : List Text} {i j : ℕ} (hi : i ≤ ys.length) (hj : j ≤ ys.length) :
    xs ++ ys.drop i = xs ++ ys.drop j ↔ i = j := by
  constructor
  · intro h
    have hlen := congrArg List.length h
    simp only [List.length_append, List.length_drop] at hlen
    omega
  · rintro rfl
    rfl

/-- **Moving a span among the lines.** A replacement takes the lines from the one nearest to the
start of the span up to the one nearest to its end, where the end is a word that may have wrapped
around. That is the end as an integer, except in two cases: the sum is too large for a word and the
span starts among the lines, so that nothing is taken; or it is too small for a word, and lines from
the first one on are taken that the span does not reach. -/
theorem replace_nearest_iff (b : Buffer) (s : Span) (new : List Text) :
    let start := nearest b.size s.start.toInt
    (b.replace s new).texts = b.texts.take start ++ new ++
      b.texts.drop (max start (nearest b.size (s.reach.bmod (2 ^ 64)))) ∧
    ((b.replace s new).texts = b.texts.take start ++ new ++
        b.texts.drop (max start (nearest b.size s.reach)) ↔
      ¬ (2 ^ 63 ≤ s.reach ∧ s.start.toInt < b.size) ∧
      ¬ (s.reach < -2 ^ 63 ∧ s.reach ≠ -2 ^ 64 ∧ 0 < b.size)) := by
  intro start
  have hstop : s.stop.toInt = s.reach.bmod (2 ^ 64) := Int64.toInt_add s.start s.length
  have htexts := b.texts_replace s new
  refine ⟨hstop ▸ htexts, ?_⟩
  have hbound : ∀ x, max start (nearest b.size x) ≤ b.texts.length := by
    intro x
    rw [length_texts]
    exact Nat.max_le.mpr ⟨nearest_le _ _, nearest_le _ _⟩
  rw [htexts, append_drop_eq_iff (hbound _) (hbound _)]
  exact s.max_nearest_stop_iff b.size

/-- The end of the span wraps around, so that none of the lines it reaches over is taken. -/
theorem replace_wraps :
    let b := parse "a\nb\nc\nd\n"
    let s : Span := ⟨1, 9223372036854775807⟩
    let start := nearest b.size s.start.toInt
    let reached := b.texts.take start ++ [Text.ofString "x"] ++
      b.texts.drop (max start (nearest b.size s.reach))
    (b.replace s ["x"]).texts = ["a", "x", "b", "c", "d"] ∧ reached = ["a", "x"] ∧
      (b.replace s ["x"]).texts ≠ reached := by
  decide +kernel

end Buffer

end ImportBlock
