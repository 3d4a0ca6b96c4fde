import ImportBlock.Proofs.Grouping
import Mathlib.Data.List.Basic
import Mathlib.Logic.Function.Iterate

/-!
# Sorting again

The regenerated block is a block again, with the imports that were put into it, unless it starts
with a separator. Then sorting a second time changes nothing (`sort_sort_of_cut`). A separator in
front does not belong to the block that the next run finds, so that every run adds one more
(`iterate_sort_of_cut`).
-/

namespace ImportBlock

open Block Line

namespace Groups

variable {g : Groups}

/-! ## The ends of the regenerated block -/

/-- The regenerated block starts with an empty line: blank lines are not collapsed and all imports
are in the interface group. -/
def StartsBlank (g : Groups) (collapse : Bool) : Prop :=
  collapse = false ∧ g.framework = [] ∧ g.normal = []

theorem lines_of_startsBlank {collapse : Bool} (h : g.StartsBlank collapse)
    (hne : g.imports ≠ []) : g.lines collapse = [] :: g.interface ∧ g.imports = g.interface := by
  obtain ⟨rfl, hf, hn⟩ := h
  have hall : g.imports = g.interface := by simp [imports, hf, hn]
  rw [hall] at hne
  exact ⟨by simp [lines, head, splitsFramework, hf, hn, hne], hall⟩

theorem head?_lines {collapse : Bool} (h : ¬ g.StartsBlank collapse) :
    (g.lines collapse).head? = g.imports.head? := by
  unfold StartsBlank at h
  rcases hf : g.framework with _ | ⟨f, fs⟩
  · rcases hn : g.normal with _ | ⟨n, ns⟩
    · have hc : collapse = true := by simpa [hf, hn] using h
      simp [lines, head, splitsFramework, imports, hf, hn, hc]
    · simp [lines, head, splitsFramework, imports, hf, hn]
  · simp [lines, head, imports, hf]

theorem getLast?_lines (g : Groups) (collapse : Bool) :
    (g.lines collapse).getLast? = g.imports.getLast? := by
  by_cases hi : g.interface = []
  · by_cases hn : g.normal = []
    · simp [lines, head, splitsFramework, imports, hi, hn]
    · have hlines : g.lines collapse = g.head collapse := by simp [lines, hi]
      have himports : g.imports = g.framework ++ g.normal := by simp [imports, hi]
      rw [hlines, himports, head, List.getLast?_append_of_ne_nil _ hn,
        List.getLast?_append_of_ne_nil _ hn]
  · rw [lines, imports, List.getLast?_append_of_ne_nil _ hi, List.getLast?_append_of_ne_nil _ hi]

theorem mem_lines {collapse : Bool} (h : [] ∉ g.imports) {l : Text} (hl : l ∈ g.lines collapse) :
    l = [] ∨ l ∈ g.imports := by
  by_cases hne : l = []
  · exact Or.inl hne
  · rw [← filter_lines h collapse]
    exact Or.inr (List.mem_filter.mpr ⟨hl, by simpa using hne⟩)

end Groups

namespace Rules

variable {r : Rules} {before block after : List Text}

/-! ## The regenerated block is a block -/

theorem group_imports_group (r : Rules) (ls : List Text) :
    r.group (r.group ls).imports = r.group ls :=
  Grouped.group_eq ⟨.refl _, (r.group_grouped ls).ascending, (r.group_grouped ls).classified⟩

theorem of_mem_group (hb : IsBlock block) {l : Text}
    (hl : l ∈ (r.group (imports block)).imports) : role l = .statement ∧ normalize l = l :=
  hb.of_mem_imports ((r.group_perm _).mem_iff.mp hl)

/-- Lines with the imports of a block at both ends and no others inside are a block. -/
theorem isBlock_of_group (hb : IsBlock block) {new : List Text}
    (hfirst : new.head? = (r.group (imports block)).imports.head?)
    (hlast : new.getLast? = (r.group (imports block)).imports.getLast?)
    (hmem : ∀ l ∈ new, l = [] ∨ l ∈ (r.group (imports block)).imports) : IsBlock new := by
  have hne := r.group_ne_nil hb
  refine ⟨?_, ?_, ?_⟩
  · rw [hfirst, List.head?_eq_some_head hne]
    exact ⟨_, rfl, (of_mem_group hb (List.head_mem hne)).1⟩
  · rw [hlast, List.getLast?_eq_some_getLast hne]
    exact ⟨_, rfl, (of_mem_group hb (List.getLast_mem hne)).1⟩
  · intro l hl
    rcases hmem l hl with rfl | hl
    · simp
    · simp [(of_mem_group hb hl).1]

/-- The second scan finds the regenerated block. -/
theorem isBlock_lines (hb : IsBlock block)
    (h : ¬ (r.group (imports block)).StartsBlank r.collapse) :
    IsBlock ((r.group (imports block)).lines r.collapse) :=
  isBlock_of_group hb (Groups.head?_lines h) (Groups.getLast?_lines _ _)
    fun _ hl => Groups.mem_lines (r.empty_not_mem_group block) hl

theorem imports_lines (hb : IsBlock block) (collapse : Bool) :
    imports ((r.group (imports block)).lines collapse) = (r.group (imports block)).imports := by
  have hempty := r.empty_not_mem_group block
  rw [imports_of_normal, Groups.filter_lines hempty]
  intro l hl
  rcases Groups.mem_lines hempty hl with rfl | hl
  · rfl
  · exact (of_mem_group hb hl).2

/-- Behind a separator in front, the regenerated block is a block with the same imports. -/
theorem isBlock_interface (hb : IsBlock block)
    (h : (r.group (imports block)).StartsBlank r.collapse) :
    IsBlock (r.group (imports block)).interface ∧
      imports (r.group (imports block)).interface = (r.group (imports block)).imports := by
  obtain ⟨hlines, hall⟩ := Groups.lines_of_startsBlank h (r.group_ne_nil hb)
  constructor
  · rw [← hall]
    exact isBlock_of_group hb rfl rfl fun _ hl => Or.inr hl
  · have hskip := imports_lines (r := r) hb r.collapse
    rwa [hlines] at hskip

/-- The plan for the regenerated block, between any lines that do not belong to it, is to leave it
as it is. -/
theorem plan_lines (hb : IsBlock block)
    (h : ¬ (r.group (imports block)).StartsBlank r.collapse)
    (hbefore : ∀ l ∈ before, role l ≠ .statement) (hafter : Closed after) :
    r.plan (before ++ (r.group (imports block)).lines r.collapse ++ after) =
      some ⟨⟨before.length, ((r.group (imports block)).lines r.collapse).length⟩,
        (r.group (imports block)).lines r.collapse⟩ := by
  have hcut : IsCut before ((r.group (imports block)).lines r.collapse) after :=
    ⟨isBlock_lines hb h, hbefore, hafter⟩
  rw [r.plan_of_cut hcut, imports_lines hb, group_imports_group]

/-! ## Runs -/

theorem sort_sort_of_cut (hcut : IsCut before block after)
    (h : ¬ (r.group (imports block)).StartsBlank r.collapse) :
    r.sort (r.sort (before ++ block ++ after)) = r.sort (before ++ block ++ after) := by
  rw [r.sort_of_cut hcut]
  unfold sort
  rw [plan_lines hcut.toIsBlock h hcut.lead hcut.closed]
  exact apply_append ..

/-- One run over a block that has only interface imports, in order. -/
theorem sort_interface (hb : IsBlock block)
    (h : (r.group (imports block)).StartsBlank r.collapse)
    (hbefore : ∀ l ∈ before, role l ≠ .statement) (hafter : Closed after) :
    r.sort (before ++ (r.group (imports block)).interface ++ after) =
      before ++ [] :: (r.group (imports block)).interface ++ after := by
  obtain ⟨hlines, -⟩ := Groups.lines_of_startsBlank h (r.group_ne_nil hb)
  obtain ⟨hblock, himports⟩ := isBlock_interface hb h
  rw [r.sort_of_cut ⟨hblock, hbefore, hafter⟩, himports, group_imports_group, hlines]

/-- Every run puts one more empty line in front of the interface imports. -/
theorem iterate_sort_of_cut (hcut : IsCut before block after)
    (h : (r.group (imports block)).StartsBlank r.collapse) (n : ℕ) :
    r.sort^[n + 1] (before ++ block ++ after) =
      before ++ List.replicate (n + 1) [] ++ (r.group (imports block)).interface ++ after := by
  induction n with
  | zero =>
    obtain ⟨hlines, -⟩ := Groups.lines_of_startsBlank h (r.group_ne_nil hcut.toIsBlock)
    rw [Function.iterate_one, r.sort_of_cut hcut, hlines]
    simp
  | succ n ih =>
    have hlead : ∀ l ∈ before ++ List.replicate (n + 1) [], role l ≠ .statement := by
      intro l hl
      rcases List.mem_append.mp hl with hl | hl
      · exact hcut.lead l hl
      · rw [List.eq_of_mem_replicate hl]
        simp
    rw [Function.iterate_succ_apply', ih, sort_interface hcut.toIsBlock h hlead hcut.closed,
      List.replicate_succ' (n := n + 1)]
    simp

theorem run_sortInPlace (r : Rules) (lines : List Text) :
    (r.sortInPlace.run lines).2 = r.sort lines := by
  unfold sortInPlace sort
  cases h : r.plan lines with
  | none =>
    simp [h]
    rfl
  | some e =>
    simp [h]
    rfl

theorem run_sortInPlaceTimes (r : Rules) (n : ℕ) (lines : List Text) :
    ((r.sortInPlaceTimes n).run lines).2 = r.sort^[n] lines := by
  induction n generalizing lines with
  | zero => rfl
  | succ n ih =>
    rw [Function.iterate_succ_apply, ← run_sortInPlace, ← ih]
    rfl

theorem head?_lines_ne_iff (hb : IsBlock block) :
    ((r.group (imports block)).lines r.collapse).head? ≠ some [] ↔
      ¬ (r.group (imports block)).StartsBlank r.collapse := by
  constructor
  · intro hne h
    rw [(Groups.lines_of_startsBlank h (r.group_ne_nil hb)).1] at hne
    exact hne rfl
  · intro h hhead
    rw [Groups.head?_lines h] at hhead
    exact r.empty_not_mem_group block (List.mem_of_mem_head? hhead)

/-- **Sorting again.** A second run changes nothing unless the regenerated block starts with a
separator, which happens when blank lines are kept and all imports are interface modules. In that
case every run adds an empty line in front of the block. Sorting in place is no different. -/
theorem sort_again (r : Rules) (lines : List Text) (range : LineRange)
    (h : Block.locate lines = some range) :
    let g := r.group (Block.extract lines range)
    (r.collapse = true ∨ g.framework ≠ [] ∨ g.normal ≠ [] →
      r.sort (r.sort lines) = r.sort lines) ∧
    (r.collapse = false ∧ g.framework = [] ∧ g.normal = [] →
      g.interface ≠ [] ∧ ∀ n, 1 ≤ n → r.sort^[n] lines =
        lines.take range.start ++ List.replicate n [] ++ g.interface ++ lines.drop range.stop) ∧
    (r.sort (r.sort lines) = r.sort lines ↔ (g.lines r.collapse).head? ≠ some []) ∧
    ∀ n, ((r.sortInPlaceTimes n).run lines).2 = r.sort^[n] lines := by
  obtain ⟨before, block, after, rfl, hcut, rfl⟩ := Block.locate_eq_some_iff.mp h
  intro g
  have hg : g = r.group (imports block) := by
    show r.group (extract _ _) = _
    rw [extract_append]
  rw [hg]
  have hruns : (r.group (imports block)).StartsBlank r.collapse → ∀ n, 1 ≤ n →
      r.sort^[n] (before ++ block ++ after) =
        before ++ List.replicate n [] ++ (r.group (imports block)).interface ++ after := by
    intro hblank n hn
    obtain ⟨m, rfl⟩ : ∃ m, n = m + 1 := ⟨n - 1, by omega⟩
    exact iterate_sort_of_cut hcut hblank m
  refine ⟨?_, ?_, ?_, fun n => r.run_sortInPlaceTimes n _⟩
  · intro hkeep
    refine sort_sort_of_cut hcut fun hblank => ?_
    simp [hblank.1, hblank.2.1, hblank.2.2] at hkeep
  · intro hblank
    obtain ⟨-, hall⟩ := Groups.lines_of_startsBlank hblank (r.group_ne_nil hcut.toIsBlock)
    refine ⟨hall ▸ r.group_ne_nil hcut.toIsBlock, ?_⟩
    simpa [LineRange.stop] using hruns hblank
  · rw [head?_lines_ne_iff hcut.toIsBlock]
    refine ⟨fun hsame hblank => ?_, sort_sort_of_cut hcut⟩
    -- the second run is one line longer than the first
    have hone := hruns hblank 1 (by omega)
    have htwo := hruns hblank (1 + 1) (by omega)
    rw [Function.iterate_succ_apply', Function.iterate_one, hsame] at htwo
    rw [Function.iterate_one, htwo] at hone
    have hlen := congrArg List.length hone
    simp at hlen

/-- Three runs over a single interface import. -/
theorem sort_again_interface :
    Block.locate ["// header", "import AInterfaces", "x"] = some ⟨1, 1⟩ ∧
    standard.sort^[3] ["// header", "import AInterfaces", "x"] =
      (["// header", "", "", "", "import AInterfaces", "x"] : List Text) := by
  have hloc : Block.locate ["// header", "import AInterfaces", "x"] = some ⟨1, 1⟩ := by
    decide +kernel
  refine ⟨hloc, ?_⟩
  exact ((sort_again standard _ _ hloc).2.1 (by decide +kernel)).2 3 (by omega)

end Rules

end ImportBlock
