import ImportBlock.Proofs.Resorting
import Mathlib.Data.List.Chain

/-!
# Separators

Whether the regenerated block has a separator in some place is decided by two conditions, the second
of which looks at the lines in front. Taken together they say that a collapsed block is the groups
that have lines, with one empty line in between (`lines_true`). Import lines are never empty, so the
separators can be counted (`count_intercalate`) and no two of them are neighbours
(`isChain_intercalate`). Without collapsing there is one more separator if the normal group is
missing in front of the interface group (`lines_false_of_normal`, `lines_of_no_normal`).
-/

namespace ImportBlock

open Block

/-! ## Parts with empty lines in between -/

section Parts

variable {p : List Text} {ps : List (List Text)}

theorem count_intercalate (h : ∀ q ∈ p :: ps, [] ∉ q) :
    ([[]].intercalate (p :: ps)).count [] = ps.length := by
  induction ps generalizing p with
  | nil =>
    rw [List.intercalate_singleton]
    exact List.count_eq_zero.mpr (h p (by simp))
  | cons q ps ih =>
    obtain ⟨hp, hps⟩ := List.forall_mem_cons.mp h
    rw [List.intercalate_cons_cons, List.count_append, List.count_append, ih hps,
      List.count_eq_zero.mpr hp, List.length_cons]
    simp [Nat.add_comm]

theorem head?_intercalate (hp : p ≠ []) : ([[]].intercalate (p :: ps)).head? = p.head? := by
  rcases ps with _ | ⟨q, ps⟩
  · rw [List.intercalate_singleton]
  · rw [List.intercalate_cons_cons, List.append_assoc, List.head?_append_of_ne_nil _ hp]

/-- An empty line stands between two parts, whose own lines are not empty. -/
theorem isChain_intercalate (h : ∀ q ∈ ps, q ≠ [] ∧ [] ∉ q) :
    ([[]].intercalate ps).IsChain fun t u => t ≠ [] ∨ u ≠ [] := by
  have hpart : ∀ q ∈ ps, q.IsChain fun t u : Text => t ≠ [] ∨ u ≠ [] := by
    intro q hq
    refine List.Pairwise.isChain (List.pairwise_of_forall_mem_list fun t ht u _ => Or.inl ?_)
    exact fun e => (h q hq).2 (e ▸ ht)
  induction ps with
  | nil => exact .nil
  | cons p ps ih =>
    obtain ⟨⟨-, hp⟩, hps⟩ := List.forall_mem_cons.mp h
    rcases ps with _ | ⟨q, ps⟩
    · rw [List.intercalate_singleton]
      exact hpart p (by simp)
    · obtain ⟨⟨hne, hq⟩, -⟩ := List.forall_mem_cons.mp hps
      rw [List.intercalate_cons_cons, List.append_assoc, List.singleton_append,
        List.isChain_append]
      refine ⟨hpart p (by simp), ?_, ?_⟩
      · have hrest := ih hps fun q hq => hpart q (by simp [hq])
        refine List.isChain_cons.mpr ⟨fun t ht => Or.inr ?_, hrest⟩
        rw [head?_intercalate hne] at ht
        exact fun e => hq (e ▸ List.mem_of_mem_head? ht)
      · intro t ht u _
        exact Or.inl fun e => hp (e ▸ List.mem_of_getLast? ht)

end Parts

namespace Groups

/-- The groups that have lines, in their order. -/
def parts (g : Groups) : List (List Text) :=
  [g.framework, g.normal, g.interface].filter fun ls => !ls.isEmpty

theorem parts_ne_nil {g : Groups} (h : g.imports ≠ []) : g.parts ≠ [] := by
  intro hnil
  have hempty : ∀ ls ∈ [g.framework, g.normal, g.interface], ls = [] := by
    simpa [parts, List.filter_eq_nil_iff] using hnil
  exact h (by simp_all [imports])

theorem of_mem_parts {g : Groups} (h : [] ∉ g.imports) {ls : List Text} (hls : ls ∈ g.parts) :
    ls ≠ [] ∧ [] ∉ ls := by
  obtain ⟨hmem, hne⟩ := List.mem_filter.mp hls
  refine ⟨by simpa using hne, fun hempty => h ?_⟩
  simp only [List.mem_cons, List.not_mem_nil, or_false] at hmem
  rcases hmem with rfl | rfl | rfl
  · exact g.get_subset_imports .framework hempty
  · exact g.get_subset_imports .normal hempty
  · exact g.get_subset_imports .interface hempty

/-- A collapsed block has one empty line between the groups that have lines. -/
theorem lines_true (g : Groups) : g.lines true = [[]].intercalate g.parts := by
  unfold lines head splitsFramework parts
  by_cases hf : g.framework = [] <;> by_cases hn : g.normal = [] <;>
    by_cases hi : g.interface = [] <;> simp [hf, hn, hi, List.intercalate]

theorem lines_false_of_normal {g : Groups} (h : ¬ (g.normal = [] ∧ g.interface ≠ [])) :
    g.lines false = g.lines true := by
  unfold lines head splitsFramework
  by_cases hn : g.normal = []
  · have hi : g.interface = [] := by simpa [hn] using h
    simp [hn, hi]
  · simp [hn]

/-- Without normal imports the interface group has an empty line of its own in front. -/
theorem lines_of_no_normal {g : Groups} (hn : g.normal = []) (hi : g.interface ≠ []) :
    ∃ front, g.lines true = front ++ g.interface ∧ g.lines false = front ++ [] :: g.interface := by
  refine ⟨if g.framework = [] then [] else g.framework ++ [[]], ?_, ?_⟩ <;>
    by_cases hf : g.framework = [] <;> simp [lines, head, splitsFramework, hf, hn, hi]

end Groups

namespace Rules

theorem plan_collapse {r : Rules} {before block after : List Text}
    (hcut : IsCut before block after) (collapse : Bool) :
    { r with collapse }.plan (before ++ block ++ after) =
      some ⟨⟨before.length, block.length⟩, (r.group (imports block)).lines collapse⟩ :=
  plan_of_cut { r with collapse } hcut

/-- **Separators.** In a collapsed block no separator stands at either end or next to another one,
and there is one less than there are groups with lines. Without collapsing the block is the same,
unless there are interface imports and no normal ones: then it has one more empty line, right in
front of the interface group. -/
theorem plan_separators (r : Rules) (lines : List Text) (range : LineRange)
    (h : locate lines = some range) :
    let g := r.group (extract lines range)
    ∃ collapsed spaced,
      { r with collapse := true }.plan lines = some ⟨range, collapsed⟩ ∧
      { r with collapse := false }.plan lines = some ⟨range, spaced⟩ ∧
      collapsed.head? ≠ some [] ∧ collapsed.getLast? ≠ some [] ∧
      collapsed.IsChain (fun t u => t ≠ [] ∨ u ≠ []) ∧
      collapsed.count [] + 1 = g.parts.length ∧
      (¬ (g.normal = [] ∧ g.interface ≠ []) → spaced = collapsed) ∧
      (g.normal = [] ∧ g.interface ≠ [] →
        ∃ front, collapsed = front ++ g.interface ∧ spaced = front ++ [] :: g.interface) := by
  obtain ⟨before, block, after, rfl, hcut, rfl⟩ := locate_eq_some_iff.mp h
  rw [extract_append]
  intro g
  have hempty : [] ∉ g.imports := r.empty_not_mem_group block
  refine ⟨g.lines true, g.lines false, plan_collapse hcut true, plan_collapse hcut false,
    ?_, ?_, ?_, ?_, Groups.lines_false_of_normal, fun h => Groups.lines_of_no_normal h.1 h.2⟩
  · rw [Groups.head?_lines fun hblank => Bool.noConfusion hblank.1]
    exact fun hhead => hempty (List.mem_of_mem_head? hhead)
  · rw [Groups.getLast?_lines]
    exact fun hlast => hempty (List.mem_of_getLast? hlast)
  · rw [Groups.lines_true]
    exact isChain_intercalate fun ls hls => Groups.of_mem_parts hempty hls
  · obtain ⟨p, ps, hparts⟩ :=
      List.exists_cons_of_ne_nil (Groups.parts_ne_nil (r.group_ne_nil hcut.toIsBlock))
    have hparts : g.parts = p :: ps := hparts
    rw [Groups.lines_true, hparts, count_intercalate, List.length_cons]
    intro ls hls
    exact (Groups.of_mem_parts hempty (hparts ▸ hls)).2

/-- A framework and an interface, with two blank lines in between unless these are collapsed. -/
theorem plan_separators_no_normal :
    let last : Text := "import AInterfaces"
    let lines : List Text := ["x", last, "import UIKit", "y"]
    locate lines = some ⟨1, 2⟩ ∧
      ∃ collapsed spaced,
        { standard with collapse := true }.plan lines = some ⟨⟨1, 2⟩, collapsed⟩ ∧
        { standard with collapse := false }.plan lines = some ⟨⟨1, 2⟩, spaced⟩ ∧
        collapsed.count [] = 1 ∧
        ∃ front, collapsed = front ++ [last] ∧ spaced = front ++ [[], last] := by
  intro last lines
  have hlocate : locate lines = some ⟨1, 2⟩ := by decide +kernel
  have hgroups : standard.group (extract lines ⟨1, 2⟩) =
      ⟨["import UIKit"], [], [last]⟩ := by decide +kernel
  obtain ⟨collapsed, spaced, hcollapsed, hspaced, -, -, -, hcount, -, hmore⟩ :=
    plan_separators standard lines ⟨1, 2⟩ hlocate
  rw [hgroups] at hcount hmore
  exact ⟨hlocate, collapsed, spaced, hcollapsed, hspaced, Nat.succ.inj hcount,
    hmore ⟨rfl, List.cons_ne_nil _ _⟩⟩

end Rules

end ImportBlock
