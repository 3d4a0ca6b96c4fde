import ImportBlock.Proofs.Location
import ImportBlock.Source.Groups
import ImportBlock.Text.Basic

/-!
# What grouping and sorting do to the lines

Texts have one ascending order (`Ascending.eq_of_perm`), so the imports of a block determine its
groups (`Grouped.group_eq`), and the regenerated block determines the imports up to their order
(`perm_of_lines_eq`).
-/

/-!
## Ascending lists of texts

The bytewise order is the lexicographic order of byte lists (`le_iff`), so its laws come from
there. Sorting gives an ascending list (`sort_ascending`), and an ascending list is determined by
the texts in it (`Ascending.eq_of_perm`).
-/

namespace ImportBlock.Text

/-- No text is followed by a smaller one. -/
def Ascending (ts : List Text) : Prop := ts.Pairwise (· ≤ ·)

theorem le_iff (s t : Text) : le s t = true ↔ s ≤ t := by
  fun_induction le s t with
  | case1 t => simp
  | case2 a s => simp
  | case3 a s b t ih =>
    rw [List.cons_le_cons_iff, ← ih]
    simp

theorem le_of_not_le {s t : Text} (h : ¬ le s t = true) : t ≤ s := by
  rw [le_iff] at h
  exact (List.le_total s t).resolve_left h

theorem Ascending.insertSorted {us : List Text} (h : Ascending us) (t : Text) :
    Ascending (insertSorted t us) := by
  induction us with
  | nil => simp [Text.insertSorted, Ascending]
  | cons u us ih =>
    obtain ⟨hu, hus⟩ := List.pairwise_cons.mp h
    rw [Text.insertSorted]
    split
    · next hle =>
      have htu : t ≤ u := (le_iff t u).mp hle
      refine List.pairwise_cons.mpr ⟨?_, h⟩
      intro v hv
      rcases List.mem_cons.mp hv with rfl | hv
      · exact htu
      · exact List.le_trans htu (hu v hv)
    · next hle =>
      refine List.pairwise_cons.mpr ⟨?_, ih hus⟩
      intro v hv
      rcases List.mem_cons.mp ((insertSorted_perm t us).mem_iff.mp hv) with rfl | hv
      · exact le_of_not_le hle
      · exact hu v hv

theorem sort_ascending (ts : List Text) : Ascending (sort ts) := by
  induction ts with
  | nil => exact List.Pairwise.nil
  | cons t ts ih => exact ih.insertSorted t

/-- There is one way to put texts in ascending order. -/
theorem Ascending.eq_of_perm {ts us : List Text} (ht : Ascending ts) (hu : Ascending us)
    (h : ts.Perm us) : ts = us :=
  h.eq_of_pairwise (fun _ _ _ _ => List.le_antisymm) ht hu

theorem mem_sort {t : Text} {ts : List Text} : t ∈ sort ts ↔ t ∈ ts := (sort_perm ts).mem_iff

end ImportBlock.Text

/-!
## What sorting does to the lines

`Rules.Grouped r g imports` says that the groups `g` hold the given imports: nothing is lost, added
or merged, each group ascends and has its own lines only. These facts determine the groups
(`Grouped.group_eq`). The regenerated block is the groups one after the other with empty lines in
between (`filter_lines`), and `sort` puts it where the import block was (`sort_regroups`). The
order and the spacing of the imports do not matter (`sort_canonical`).
-/

namespace ImportBlock

namespace Groups

/-- The lines of one group. -/
def get (g : Groups) : Bucket → List Text
  | .framework => g.framework
  | .normal => g.normal
  | .interface => g.interface

/-- The import lines, one group after the other. -/
def imports (g : Groups) : List Text := g.framework ++ g.normal ++ g.interface

theorem ext_get {g g' : Groups} (h : ∀ b, g.get b = g'.get b) : g = g' := by
  cases g
  cases g'
  have h₁ := h .framework
  have h₂ := h .normal
  have h₃ := h .interface
  simp_all [get]

theorem get_subset_imports (g : Groups) (b : Bucket) : g.get b ⊆ g.imports := by
  intro l hl
  cases b <;> simp_all [get, imports]

/-- Without its separators the regenerated block is the import lines. -/
theorem filter_lines {g : Groups} (h : [] ∉ g.imports) (collapse : Bool) :
    (g.lines collapse).filter (fun l => !l.isEmpty) = g.imports := by
  have hkeep : ∀ ls : List Text, ls ⊆ g.imports → ls.filter (fun l => !l.isEmpty) = ls := by
    intro ls hls
    rw [List.filter_eq_self]
    intro l hl
    have hne : l ≠ [] := fun e => h (e ▸ hls hl)
    simpa using hne
  have hsep : ∀ c : Bool,
      (if c = true then [[]] else [] : List Text).filter (fun l => !l.isEmpty) = [] := by
    intro c
    cases c <;> rfl
  unfold lines head
  simp only [List.filter_append, hsep, List.append_nil]
  rw [hkeep g.framework (g.get_subset_imports .framework),
    hkeep g.normal (g.get_subset_imports .normal),
    hkeep g.interface (g.get_subset_imports .interface)]
  rfl

end Groups

namespace Rules

/-! ### The groups -/

/-- The groups hold the imports: each as often as it occurs, in its own group and in order. -/
structure Grouped (r : Rules) (g : Groups) (imports : List Text) : Prop where
  perm : (g.framework ++ g.normal ++ g.interface).Perm imports
  ascending : ∀ b, Text.Ascending (g.get b)
  classified : ∀ b, ∀ l ∈ g.get b, r.classify l = b

theorem group_get (r : Rules) (imports : List Text) (b : Bucket) :
    (r.group imports).get b = r.bucket b imports := by
  cases b <;> rfl

theorem group_perm (r : Rules) (imports : List Text) : (r.group imports).imports.Perm imports := by
  have hsplit : (imports.filter (fun l => r.classify l == .framework) ++
      imports.filter (fun l => r.classify l == .normal) ++
      imports.filter (fun l => r.classify l == .interface)).Perm imports := by
    induction imports with
    | nil => exact .refl _
    | cons l ls ih =>
      rcases hl : r.classify l with _ | _ | _
      · simpa [hl] using ih
      · simp only [List.append_assoc] at ih
        simpa [hl] using List.perm_middle.trans (ih.cons l)
      · simpa [hl] using List.perm_middle.trans (ih.cons l)
  have hsort : ∀ b, (r.bucket b imports).Perm (imports.filter fun l => r.classify l == b) :=
    fun b => Text.sort_perm _
  exact (((hsort .framework).append (hsort .normal)).append (hsort .interface)).trans hsplit

theorem group_grouped (r : Rules) (imports : List Text) : r.Grouped (r.group imports) imports where
  perm := r.group_perm imports
  ascending b := by
    rw [group_get]
    exact Text.sort_ascending _
  classified b l hl := by
    rw [group_get, bucket, Text.mem_sort, List.mem_filter] at hl
    simpa using hl.2

variable {r : Rules} {g : Groups} {imports : List Text}

/-- A group is what its bucket picks from all the import lines. -/
theorem Grouped.filter_imports (h : r.Grouped g imports) (b : Bucket) :
    g.imports.filter (fun l => r.classify l == b) = g.get b := by
  have hall : (g.get b).filter (fun l => r.classify l == b) = g.get b := by
    rw [List.filter_eq_self]
    intro l hl
    simpa using h.classified b l hl
  have hnone : ∀ b', b' ≠ b → (g.get b').filter (fun l => r.classify l == b) = [] := by
    intro b' hb
    rw [List.filter_eq_nil_iff]
    intro l hl
    simpa [h.classified b' l hl] using hb
  unfold Groups.imports
  rw [List.filter_append, List.filter_append]
  show (g.get .framework).filter _ ++ (g.get .normal).filter _ ++ (g.get .interface).filter _ = _
  cases b with
  | framework => rw [hall, hnone .normal (by simp), hnone .interface (by simp)]; simp
  | normal => rw [hall, hnone .framework (by simp), hnone .interface (by simp)]; simp
  | interface => rw [hall, hnone .framework (by simp), hnone .normal (by simp)]; simp

/-- The imports determine the groups. -/
theorem Grouped.group_eq (h : r.Grouped g imports) : r.group imports = g := by
  apply Groups.ext_get
  intro b
  rw [group_get]
  refine (Text.sort_ascending _).eq_of_perm (h.ascending b) ?_
  rw [← h.filter_imports b]
  exact (Text.sort_perm _).trans (h.perm.symm.filter _)

/-! ### The sorted lines -/

theorem plan_of_cut (r : Rules) {before block after : List Text}
    (h : Block.IsCut before block after) :
    r.plan (before ++ block ++ after) = some ⟨⟨before.length, block.length⟩,
      (r.group (Block.imports block)).lines r.collapse⟩ := by
  unfold plan
  rw [h.locate, Option.map_some, Block.extract_append]

theorem plan_eq_none_iff {lines : List Text} :
    r.plan lines = none ↔ ∀ l ∈ lines, Line.role l ≠ .statement := by
  unfold plan
  rw [Option.map_eq_none_iff, Block.locate_eq_none_iff]

/-- Every plan replaces the block of a cut. -/
theorem exists_cut_of_plan {lines : List Text} {e : Edit} (h : r.plan lines = some e) :
    ∃ before block after, lines = before ++ block ++ after ∧ Block.IsCut before block after ∧
      e = ⟨⟨before.length, block.length⟩, (r.group (Block.imports block)).lines r.collapse⟩ := by
  obtain ⟨range, hrange, -⟩ := Option.map_eq_some_iff.mp h
  obtain ⟨before, block, after, rfl, hcut, -⟩ := Block.locate_eq_some_iff.mp hrange
  rw [r.plan_of_cut hcut] at h
  exact ⟨before, block, after, rfl, hcut, (Option.some.inj h).symm⟩

theorem apply_append (before block after new : List Text) :
    (⟨⟨before.length, block.length⟩, new⟩ : Edit).apply (before ++ block ++ after) =
      before ++ new ++ after := by
  simp [Edit.apply, LineRange.stop]

theorem sort_of_cut (r : Rules) {before block after : List Text}
    (h : Block.IsCut before block after) :
    r.sort (before ++ block ++ after) =
      before ++ (r.group (Block.imports block)).lines r.collapse ++ after := by
  unfold sort
  rw [r.plan_of_cut h]
  exact apply_append ..

theorem sort_of_plan_eq_none {lines : List Text} (h : r.plan lines = none) :
    r.sort lines = lines := by
  unfold sort
  rw [h]

/-- `out` is the given lines with their import block replaced by one whose lines, up to empty ones,
are the three groups of the block's imports. -/
def Regrouped (r : Rules) (lines out : List Text) : Prop :=
  ∃ range block g, Block.locate lines = some range ∧
    range.start < range.stop ∧ range.stop ≤ lines.length ∧
    out = lines.take range.start ++ block ++ lines.drop range.stop ∧
    block.filter (fun l => !l.isEmpty) = g.framework ++ g.normal ++ g.interface ∧
    r.Grouped g (((range.select lines).map Line.normalize).filter fun l => !l.isEmpty)

theorem empty_not_mem_group (r : Rules) (block : List Text) :
    [] ∉ (r.group (Block.imports block)).imports := by
  rw [(r.group_perm _).mem_iff]
  simp [Block.imports]

theorem group_ne_nil (r : Rules) {block : List Text} (hb : Block.IsBlock block) :
    (r.group (Block.imports block)).imports ≠ [] := by
  intro h
  have hperm := r.group_perm (Block.imports block)
  rw [h] at hperm
  exact hb.imports_ne_nil hperm.nil_eq.symm

theorem lines_ne_nil (r : Rules) {block : List Text} (hb : Block.IsBlock block)
    (collapse : Bool) : (r.group (Block.imports block)).lines collapse ≠ [] := by
  intro hnil
  have hfilter := Groups.filter_lines (r.empty_not_mem_group block) collapse
  rw [hnil] at hfilter
  exact r.group_ne_nil hb hfilter.symm

theorem regrouped_of_cut (r : Rules) {before block after : List Text}
    (h : Block.IsCut before block after) :
    r.Regrouped (before ++ block ++ after) (r.sort (before ++ block ++ after)) := by
  have hpos : 0 < block.length := List.length_pos_iff.mpr h.ne_nil
  refine ⟨_, (r.group (Block.imports block)).lines r.collapse, r.group (Block.imports block),
    h.locate, ?_, ?_, ?_, ?_, ?_⟩
  · simp only [LineRange.stop]
    omega
  · simp [LineRange.stop]
  · rw [r.sort_of_cut h]
    simp [LineRange.stop]
  · exact Groups.filter_lines (r.empty_not_mem_group block) r.collapse
  · rw [Block.select_append]
    exact r.group_grouped (Block.imports block)

/-- **Sorting.** Lines without an import stay as they are. In all other lines the import block is
replaced by its imports in normal form, grouped, each group in ascending order. -/
theorem sort_regroups (r : Rules) (lines : List Text) :
    ((∀ l ∈ lines, Line.isImport (Line.normalize l) = false) → r.sort lines = lines) ∧
    ((∃ l ∈ lines, Line.isImport (Line.normalize l) = true) →
      r.Regrouped lines (r.sort lines)) := by
  constructor
  · intro h
    apply sort_of_plan_eq_none
    rw [plan_eq_none_iff]
    intro l hl hstat
    rw [Line.role_eq_statement_iff, h l hl] at hstat
    cases hstat
  · rintro ⟨l, hl, himport⟩
    obtain ⟨before, block, after, rfl, hcut⟩ :=
      Block.exists_cut ⟨l, hl, Line.role_eq_statement_iff.mpr himport⟩
    exact r.regrouped_of_cut hcut

/-- A block with a duplicate, uneven spacing and a blank line inside. -/
theorem sort_regroups_duplicates :
    (∃ l ∈ (["import B", "", "import  B", "import UIKit", "x"] : List Text),
      Line.isImport (Line.normalize l) = true) ∧
    standard.Regrouped ["import B", "", "import  B", "import UIKit", "x"]
      ["import UIKit", "", "import B", "import B", "x"] := by
  have himport : ∃ l ∈ (["import B", "", "import  B", "import UIKit", "x"] : List Text),
      Line.isImport (Line.normalize l) = true := ⟨"import B", by simp, by decide⟩
  have hsort : standard.sort ["import B", "", "import  B", "import UIKit", "x"] =
      (["import UIKit", "", "import B", "import B", "x"] : List Text) := by decide +kernel
  refine ⟨himport, ?_⟩
  rw [← hsort]
  exact (sort_regroups standard _).2 himport

/-! ### One form for all orders -/

/-- The groups do not depend on the order of the imports. -/
theorem group_eq_of_perm (r : Rules) {imports imports' : List Text} (h : imports.Perm imports') :
    r.group imports = r.group imports' := by
  have hgrouped := r.group_grouped imports'
  exact Grouped.group_eq ⟨hgrouped.perm.trans h.symm, hgrouped.ascending, hgrouped.classified⟩

/-- The regenerated block determines the imports up to their order. -/
theorem perm_of_lines_eq (r : Rules) {block block' : List Text} {collapse : Bool}
    (h : (r.group (Block.imports block)).lines collapse =
      (r.group (Block.imports block')).lines collapse) :
    (Block.imports block).Perm (Block.imports block') := by
  have hfilter := Groups.filter_lines (r.empty_not_mem_group block) collapse
  have hfilter' := Groups.filter_lines (r.empty_not_mem_group block') collapse
  have hsame : (r.group (Block.imports block)).imports =
      (r.group (Block.imports block')).imports := by
    rw [← hfilter, h, hfilter']
  have hperm := r.group_perm (Block.imports block)
  rw [hsame] at hperm
  exact hperm.symm.trans (r.group_perm (Block.imports block'))

/-- **A canonical form.** Two lists of lines with the same lines before and after their import
blocks are sorted to the same lines exactly when the blocks have the same imports, each as often,
in whatever order and spacing. -/
theorem sort_canonical (r : Rules) {lines lines' : List Text} {range range' : LineRange}
    (h : Block.locate lines = some range) (h' : Block.locate lines' = some range')
    (hbefore : lines.take range.start = lines'.take range'.start)
    (hafter : lines.drop range.stop = lines'.drop range'.stop) :
    r.sort lines = r.sort lines' ↔
      (Block.extract lines range).Perm (Block.extract lines' range') := by
  obtain ⟨before, block, after, rfl, hcut, rfl⟩ := Block.locate_eq_some_iff.mp h
  obtain ⟨before', block', after', rfl, hcut', rfl⟩ := Block.locate_eq_some_iff.mp h'
  obtain rfl : before = before' := by simpa using hbefore
  obtain rfl : after = after' := by simpa [LineRange.stop] using hafter
  rw [r.sort_of_cut hcut, r.sort_of_cut hcut', Block.extract_append, Block.extract_append,
    List.append_left_inj, List.append_right_inj]
  exact ⟨r.perm_of_lines_eq, fun hperm => by rw [r.group_eq_of_perm hperm]⟩

/-- Two blocks of different lengths with the same imports, one of them twice. -/
theorem sort_canonical_respaced :
    let lines : List Text := ["x", "import B", "", "  import\tUIKit", "import B", "", "y"]
    let lines' : List Text := ["x", "import UIKit", "import   B ", "import B", "", "y"]
    Block.locate lines = some ⟨1, 4⟩ ∧ Block.locate lines' = some ⟨1, 3⟩ ∧
      standard.sort lines = standard.sort lines' := by
  intro lines lines'
  have h : Block.locate lines = some ⟨1, 4⟩ := by decide +kernel
  have h' : Block.locate lines' = some ⟨1, 3⟩ := by decide +kernel
  refine ⟨h, h', (sort_canonical standard h h' ?_ ?_).mpr ?_⟩
  all_goals decide +kernel

end Rules

end ImportBlock
