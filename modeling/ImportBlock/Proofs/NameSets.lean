import ImportBlock.Proofs.FrameworkNames
import ImportBlock.Proofs.Grouping
import Mathlib.Data.Set.Defs

/-!
# Framework names as a set

`find?` gives the first name that occurs in a target, so the order of the names can be seen in its
result. The groups depend only on whether there is one (`isSome_find?_iff`), which is a question to
the set of names. Rules with more names (`Widens`) put a line into the same group as before or move
it to the framework group. Two lists with the same names are widened by each other, so neither moves
a line.
-/

namespace ImportBlock

theorem Text.filter_sort (p : Text → Bool) (ts : List Text) :
    (sort ts).filter p = sort (ts.filter p) := by
  have hascending : Ascending ((sort ts).filter p) := (sort_ascending ts).filter p
  refine hascending.eq_of_perm (sort_ascending _) ?_
  exact ((sort_perm ts).filter p).trans (sort_perm _).symm

namespace Frameworks

/-- What a list of names stands for: the names without blanks around them, blank ones left out. -/
def fragments (names : List Text) : Set Text := {t | t ≠ [] ∧ ∃ n ∈ names, n.trim = t}

theorem mem_names_iff {names : List Text} {t : Text} :
    t ∈ (ofNames names).names ↔ t ∈ fragments names := by
  show t ∈ distinct _ ↔ t ≠ [] ∧ ∃ n ∈ names, n.trim = t
  rw [mem_distinct, List.mem_filter, List.mem_map, and_comm]
  simp

theorem fragments_subset_iff {names names' : List Text} :
    fragments names ⊆ fragments names' ↔ (ofNames names).names ⊆ (ofNames names').names := by
  constructor
  · intro h t ht
    exact mem_names_iff.mpr (h (mem_names_iff.mp ht))
  · intro h t ht
    exact mem_names_iff.mp (h (mem_names_iff.mpr ht))

theorem isSome_find?_iff {names : List Text} {target : Text} :
    ((ofNames names).find? target).isSome = true ↔
      ∃ t ∈ fragments names, target.hasPart t = true := by
  unfold find?
  rw [List.find?_isSome]
  exact exists_congr fun t => and_congr_left' mem_names_iff

end Frameworks

namespace Rules

/-- The second rules know every framework that the first ones do, and the same interfaces. -/
structure Widens (r r' : Rules) : Prop where
  frameworks : ∀ target, (r.frameworks.find? target).isSome = true →
    (r'.frameworks.find? target).isSome = true
  interfaceSuffix : r'.interfaceSuffix = r.interfaceSuffix

theorem widens_of_subset {names names' : List Text}
    (h : Frameworks.fragments names ⊆ Frameworks.fragments names') (suffix : Text)
    (collapse : Bool) :
    Widens (ofSettings (some names) suffix collapse)
      (ofSettings (some names') suffix collapse) where
  frameworks target hsome := by
    obtain ⟨t, ht, hpart⟩ := Frameworks.isSome_find?_iff.mp hsome
    exact Frameworks.isSome_find?_iff.mpr ⟨t, h ht, hpart⟩
  interfaceSuffix := rfl

section Widens

variable {r r' : Rules} (h : Widens r r')

include h

/-- A line stays in its group, or the framework group gets it from another one. -/
theorem Widens.classify (line : Text) :
    r'.classify line = r.classify line ∨
      r.classify line ≠ .framework ∧ r'.classify line = .framework := by
  unfold Rules.classify
  by_cases hold : (r.frameworks.find? (line.dropStart Line.importWord)).isSome = true
  · rw [if_pos hold, if_pos (h.frameworks _ hold)]
    exact Or.inl rfl
  · rw [if_neg hold, h.interfaceSuffix]
    by_cases hnew : (r'.frameworks.find? (line.dropStart Line.importWord)).isSome = true
    · rw [if_pos hnew]
      refine Or.inr ⟨?_, rfl⟩
      split_ifs <;> simp
    · rw [if_neg hnew]
      exact Or.inl rfl

/-- The groups other than the framework group lose the lines that are framework lines now. -/
theorem Widens.bucket_eq_filter {b : Bucket} (hb : b ≠ .framework) (lines : List Text) :
    r'.bucket b lines = (r.bucket b lines).filter fun l => r'.classify l != .framework := by
  unfold bucket
  rw [Text.filter_sort, List.filter_filter]
  congr 1
  refine List.filter_congr fun l _ => ?_
  rcases h.classify l with hsame | ⟨-, hnew⟩
  · rw [hsame]
    by_cases hl : r.classify l = b <;> simp [hl, hb]
  · simp [hnew, hb.symm]

theorem Widens.framework_eq_filter (lines : List Text) :
    r.bucket .framework lines =
      (r'.bucket .framework lines).filter fun l => r.classify l == .framework := by
  unfold bucket
  rw [Text.filter_sort, List.filter_filter]
  congr 1
  refine List.filter_congr fun l _ => ?_
  rcases h.classify l with hsame | ⟨hold, -⟩
  · rw [hsame, Bool.and_self]
  · simp [hold]

end Widens

/-- Rules that widen each other agree on every line. -/
theorem Widens.antisymm {r r' : Rules} (h : Widens r r') (h' : Widens r' r) (line : Text) :
    r.classify line = r'.classify line := by
  rcases h.classify line with hsame | ⟨hold, hnew⟩
  · exact hsame.symm
  · rcases h'.classify line with hsame | ⟨hold', -⟩
    · exact hsame
    · exact absurd hnew hold'

/-- Sorting asks for the group of each line and for nothing else. -/
theorem sort_eq_of_classify {r r' : Rules} (h : ∀ line, r.classify line = r'.classify line)
    (hcollapse : r.collapse = r'.collapse) (lines : List Text) : r.sort lines = r'.sort lines := by
  have hbucket : ∀ b, r.bucket b = r'.bucket b := by
    intro b
    funext ls
    simp only [bucket, h]
  unfold sort plan group
  rw [hcollapse]
  simp only [hbucket]

/-- **Framework names as a set.** Two lists of names with the same fragments, in whatever order,
with repetitions, blanks around the names or blank names, put every line into the same group and
sort all lines alike. With more fragments a line stays in its group, or it moves from the normal or
the interface group to the framework group; no group gets or loses a line in another way. -/
theorem names_act_as_set (names names' : List Text) (suffix : Text) (collapse : Bool) :
    let r := ofSettings (some names) suffix collapse
    let r' := ofSettings (some names') suffix collapse
    (Frameworks.fragments names = Frameworks.fragments names' →
      (∀ line, r.classify line = r'.classify line) ∧ ∀ lines, r.sort lines = r'.sort lines) ∧
    (Frameworks.fragments names ⊆ Frameworks.fragments names' →
      (∀ line, r'.classify line = r.classify line ∨
        r.classify line ≠ .framework ∧ r'.classify line = .framework) ∧
      ∀ lines,
        (r'.group lines).normal =
          (r.group lines).normal.filter (fun l => r'.classify l != .framework) ∧
        (r'.group lines).interface =
          (r.group lines).interface.filter (fun l => r'.classify l != .framework) ∧
        (r.group lines).framework =
          (r'.group lines).framework.filter fun l => r.classify l == .framework) := by
  intro r r'
  constructor
  · intro hsame
    have hwider : Widens r r' := widens_of_subset (fun t ht => hsame ▸ ht) suffix collapse
    have hnarrower : Widens r' r := widens_of_subset (fun t ht => hsame.symm ▸ ht) suffix collapse
    have hclassify := hwider.antisymm hnarrower
    exact ⟨hclassify, sort_eq_of_classify hclassify rfl⟩
  · intro hsub
    have hwider : Widens r r' := widens_of_subset hsub suffix collapse
    exact ⟨hwider.classify, fun lines => ⟨hwider.bucket_eq_filter (by simp) lines,
      hwider.bucket_eq_filter (by simp) lines, hwider.framework_eq_filter lines⟩⟩

/-- One name is a part of another. The second list has them in another order, with a blank name and
a tab, the third has one name more. -/
theorem names_act_as_set_overlapping :
    let names : List Text := ["UIKit", "Kit", " UIKit "]
    let respelled : List Text := ["\tKit", "", "UIKit"]
    let more : List Text := ["Kit", "Core", "UIKit"]
    let lines : List Text := ["import B", "import CoreInterfaces", "import UIKit", "import Kit"]
    Frameworks.fragments names = Frameworks.fragments respelled ∧
      (ofSettings (some names) [] false).sort lines =
        (ofSettings (some respelled) [] false).sort lines ∧
      Frameworks.fragments names ⊆ Frameworks.fragments more ∧
      ((ofSettings (some names) [] false).group lines).interface = ["import CoreInterfaces"] ∧
      ((ofSettings (some more) [] false).group lines).interface = [] := by
  intro names respelled more lines
  have hsame : Frameworks.fragments names = Frameworks.fragments respelled := by
    ext t
    rw [← Frameworks.mem_names_iff, ← Frameworks.mem_names_iff]
    have hperm : (Frameworks.ofNames names).names.Perm (Frameworks.ofNames respelled).names := by
      decide +kernel
    exact hperm.mem_iff
  have hsub : Frameworks.fragments names ⊆ Frameworks.fragments more :=
    Frameworks.fragments_subset_iff.mpr (by decide +kernel)
  have hinterface : ((ofSettings (some names) [] false).group lines).interface =
      ["import CoreInterfaces"] := by decide +kernel
  refine ⟨hsame, ((names_act_as_set names respelled [] false).1 hsame).2 lines, hsub, hinterface,
    ?_⟩
  rw [(((names_act_as_set names more [] false).2 hsub).2 lines).2.1, hinterface]
  decide +kernel

end Rules

end ImportBlock
