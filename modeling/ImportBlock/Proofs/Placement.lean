import ImportBlock.Proofs.Resorting

/-!
# The block and its surroundings

The regenerated block stands where the old one was. The next scan finds it there, without the
separator that it may start with (`isCut_lines`, `locate_sort`).

Lines without an import in front of a cut, and lines behind it that do not go on with imports, do
not change its block (`IsCut.surround`). So they can be put around the lines before or after
sorting (`sort_surround`).
-/

namespace ImportBlock

open Block Line

variable {before block after pre post : List Text}

/-! ## The block of the sorted lines -/

/-- The number of separators that lines start with: one or none. -/
def leadingSeparator (lines : List Text) : ℕ := if lines.head? = some [] then 1 else 0

theorem leadingSeparator_le (lines : List Text) : leadingSeparator lines ≤ lines.length := by
  unfold leadingSeparator
  split_ifs with h
  · exact List.length_pos_iff.mpr fun e => by simp [e] at h
  · exact Nat.zero_le _

namespace Rules

variable {r : Rules}

/-- What the regenerated block has behind a separator in front is the block of the sorted lines, and
has all the imports. -/
theorem isCut_lines (hcut : IsCut before block after) :
    let new := (r.group (imports block)).lines r.collapse
    let k := leadingSeparator new
    IsCut (before ++ new.take k) (new.drop k) after ∧
      imports (new.drop k) = (r.group (imports block)).imports := by
  intro new k
  by_cases hhead : new.head? = some []
  · have hk : k = 1 := if_pos hhead
    have hblank : (r.group (imports block)).StartsBlank r.collapse := by
      by_contra h
      exact (head?_lines_ne_iff hcut.toIsBlock).mpr h hhead
    obtain ⟨hlines, -⟩ := Groups.lines_of_startsBlank hblank (r.group_ne_nil hcut.toIsBlock)
    have hnew : new = [] :: (r.group (imports block)).interface := hlines
    obtain ⟨hblock, himports⟩ := isBlock_interface hcut.toIsBlock hblank
    -- the separator now belongs to the lines in front of the block
    rw [hk, hnew]
    refine ⟨⟨hblock, ?_, hcut.closed⟩, himports⟩
    intro l hl
    rcases List.mem_append.mp hl with hl | hl
    · exact hcut.lead l hl
    · rw [List.mem_singleton.mp hl]
      simp
  · have hk : k = 0 := if_neg hhead
    rw [hk, List.take_zero, List.append_nil, List.drop_zero]
    exact ⟨⟨isBlock_lines hcut.toIsBlock ((head?_lines_ne_iff hcut.toIsBlock).mp hhead),
      hcut.lead, hcut.closed⟩, imports_lines hcut.toIsBlock r.collapse⟩

theorem locate_sort_of_cut (hcut : IsCut before block after) :
    let new := (r.group (imports block)).lines r.collapse
    let k := leadingSeparator new
    locate (r.sort (before ++ block ++ after)) = some ⟨before.length + k, new.length - k⟩ ∧
      extract (r.sort (before ++ block ++ after)) ⟨before.length + k, new.length - k⟩ =
        (r.group (imports block)).imports := by
  intro new k
  obtain ⟨hfound, himports⟩ := isCut_lines (r := r) hcut
  have hsort : r.sort (before ++ block ++ after) =
      before ++ new.take k ++ new.drop k ++ after := by
    rw [r.sort_of_cut hcut, List.append_assoc before (new.take k), List.take_append_drop]
  have hrange : (⟨before.length + k, new.length - k⟩ : LineRange) =
      ⟨(before ++ new.take k).length, (new.drop k).length⟩ := by
    rw [List.length_append, List.length_take_of_le (leadingSeparator_le new), List.length_drop]
  rw [hsort, hrange]
  exact ⟨hfound.locate, (extract_append ..).trans himports⟩

/-- **The regenerated block is found again.** In the sorted lines the import block is the lines that
were planned in its place, less a separator in front, and its imports are the three groups one after
the other. -/
theorem locate_sort (r : Rules) (lines : List Text) (range : LineRange)
    (h : locate lines = some range) :
    let g := r.group (extract lines range)
    let new := g.lines r.collapse
    let k := leadingSeparator new
    let found : LineRange := ⟨range.start + k, new.length - k⟩
    r.plan lines = some ⟨range, new⟩ ∧ locate (r.sort lines) = some found ∧
      extract (r.sort lines) found = g.framework ++ g.normal ++ g.interface := by
  obtain ⟨before, block, after, rfl, hcut, rfl⟩ := locate_eq_some_iff.mp h
  intro g
  have hg : g = r.group (imports block) := by
    show r.group (extract _ _) = _
    rw [extract_append]
  rw [hg]
  exact ⟨r.plan_of_cut hcut, locate_sort_of_cut hcut⟩

/-- Interface imports alone get a separator in front, which the next scan leaves out. -/
theorem locate_sort_interface :
    let lines : List Text := ["x", "import BInterfaces", "", "import AInterfaces", "", "y"]
    let sorted : List Text := ["x", "", "import AInterfaces", "import BInterfaces", "", "y"]
    locate lines = some ⟨1, 3⟩ ∧ standard.sort lines = sorted ∧ locate sorted = some ⟨2, 2⟩ := by
  intro lines sorted
  have hloc : locate lines = some ⟨1, 3⟩ := by decide +kernel
  have hsort : standard.sort lines = sorted := by decide +kernel
  have hfound := (locate_sort standard lines _ hloc).2.1
  rw [hsort] at hfound
  refine ⟨hloc, hsort, hfound.trans ?_⟩
  decide +kernel

end Rules

/-! ## Surroundings -/

namespace Block

theorem Closed.append (h : Closed after) (hpost : Closed post) : Closed (after ++ post) := by
  induction h with
  | nil => exact hpost
  | code ls hl => exact .code _ hl
  | blank hl _ ih => exact .blank hl ih

theorem closed_of_head? (h : ∀ l ∈ post.head?, role l = .code) : Closed post := by
  cases post with
  | nil => exact .nil
  | cons l ls => exact .code ls (h l rfl)

theorem IsCut.surround (h : IsCut before block after) (hpre : ∀ l ∈ pre, role l ≠ .statement)
    (hpost : Closed post) : IsCut (pre ++ before) block (after ++ post) := by
  refine ⟨h.toIsBlock, ?_, h.closed.append hpost⟩
  intro l hl
  rcases List.mem_append.mp hl with hl | hl
  · exact hpre l hl
  · exact h.lead l hl

end Block

namespace Rules

theorem sort_surround (r : Rules) (h : IsCut before block after)
    (hpre : ∀ l ∈ pre, role l ≠ .statement) (hpost : Closed post) :
    r.sort (pre ++ (before ++ block ++ after) ++ post) =
      pre ++ r.sort (before ++ block ++ after) ++ post := by
  have hlines : ∀ mid : List Text, pre ++ (before ++ mid ++ after) ++ post =
      pre ++ before ++ mid ++ (after ++ post) := by
    intro mid
    simp only [List.append_assoc]
  rw [hlines, r.sort_of_cut (h.surround hpre hpost), r.sort_of_cut h, hlines]

/-- **Sorting is local.** Lines without an import in front, and lines behind that are empty or start
with code, may be put around lines with an import before or after sorting. -/
theorem sort_local (r : Rules) (pre body post : List Text)
    (hpre : ∀ l ∈ pre, isImport (normalize l) = false)
    (hbody : ∃ l ∈ body, isImport (normalize l) = true)
    (hpost : ∀ l ∈ post.head?, isImport (normalize l) = false ∧ normalize l ≠ []) :
    r.sort (pre ++ body ++ post) = pre ++ r.sort body ++ post := by
  obtain ⟨l, hl, himport⟩ := hbody
  obtain ⟨before, block, after, rfl, hcut⟩ := exists_cut ⟨l, hl, role_eq_statement_iff.mpr himport⟩
  apply r.sort_surround hcut
  · exact fun l hl => role_ne_statement_iff.mpr (hpre l hl)
  · exact closed_of_head? fun l hl => role_eq_code_iff.mpr (hpost l hl)

/-- Code and imports behind the block, both inside the lines that are sorted and after them. -/
theorem sort_local_imports :
    let pre : List Text := ["// x", ""]
    let body : List Text := ["", "import B", "", "import A", "", "f()", "import Z"]
    let post : List Text := ["g()", "", "import Y"]
    (∃ l ∈ body, isImport (normalize l) = true) ∧
      standard.sort (pre ++ body ++ post) = pre ++ standard.sort body ++ post := by
  intro pre body post
  have hbody : ∃ l ∈ body, isImport (normalize l) = true := by decide +kernel
  exact ⟨hbody, sort_local standard pre body post (by decide +kernel) hbody (by decide +kernel)⟩

end Rules

end ImportBlock
