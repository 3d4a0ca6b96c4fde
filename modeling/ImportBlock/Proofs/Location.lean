import ImportBlock.Proofs.NormalForm
import ImportBlock.Source.Block
import Mathlib.Data.List.TakeWhile

/-!
# Where the import block is

`IsCut before block after` says, without a scan, that `block` is the import block of
`before ++ block ++ after`. Lines with an import have such a cut (`exists_cut`), `locate` finds it
(`IsCut.locate`), and so there is one cut only. Everything else about `locate` follows from
`locate_eq_some_iff` and `locate_eq_none_iff`.
-/

namespace ImportBlock.Block

open Line

/-- After blank lines comes a line of code, or nothing: no import follows before the code. -/
inductive Closed : List Text → Prop
  | nil : Closed []
  | code {l : Text} (ls : List Text) : role l = .code → Closed (l :: ls)
  | blank {l : Text} {ls : List Text} : role l = .blank → Closed ls → Closed (l :: ls)

/-- The lines start and end with an import and hold imports and blank lines only. -/
structure IsBlock (block : List Text) : Prop where
  first : ∃ l ∈ block.head?, role l = .statement
  last : ∃ l ∈ block.getLast?, role l = .statement
  inside : ∀ l ∈ block, role l ≠ .code

/-- `block` is the import block of `before ++ block ++ after`. -/
structure IsCut (before block after : List Text) : Prop extends IsBlock block where
  lead : ∀ l ∈ before, role l ≠ .statement
  closed : Closed after

theorem Closed.takeWhile_blank {after : List Text} (h : Closed after) :
    ∀ l ∈ after.takeWhile fun l => role l != .code, role l = .blank := by
  induction h with
  | nil => simp
  | code ls hl => simp [hl]
  | blank hl _ ih =>
    rw [List.takeWhile_cons_of_pos (by simp [hl])]
    intro x hx
    rcases List.mem_cons.mp hx with rfl | hx
    · exact hl
    · exact ih x hx

theorem IsBlock.ne_nil {block : List Text} (h : IsBlock block) : block ≠ [] := by
  obtain ⟨l, hl, -⟩ := h.first
  rintro rfl
  simp at hl

/-! ## A cut exists -/

/-- The lines up to the last import that comes before any code. -/
theorem exists_run (lines : List Text) :
    ∃ run after, lines = run ++ after ∧ (∀ l ∈ run, role l ≠ .code) ∧
      (run = [] ∨ ∃ l ∈ run.getLast?, role l = .statement) ∧ Closed after := by
  induction lines with
  | nil => exact ⟨[], [], rfl, by simp, Or.inl rfl, .nil⟩
  | cons l ls ih =>
    obtain ⟨run, after, rfl, hrun, hlast, hafter⟩ := ih
    -- `l` goes in front of a run that already has an import
    have hcons : role l ≠ .code → run ≠ [] → ∃ run' after', l :: (run ++ after) = run' ++ after' ∧
        (∀ l ∈ run', role l ≠ .code) ∧
        (run' = [] ∨ ∃ l ∈ run'.getLast?, role l = .statement) ∧ Closed after' := by
      intro hl hne
      refine ⟨l :: run, after, rfl, ?_, Or.inr ?_, hafter⟩
      · simpa [hl] using hrun
      · rw [List.getLast?_cons_of_ne_nil hne]
        exact hlast.resolve_left hne
    rcases hl : role l with _ | _ | _
    · by_cases hne : run = []
      · subst hne
        exact ⟨[], l :: after, rfl, by simp, Or.inl rfl, .blank hl hafter⟩
      · exact hcons (by simp [hl]) hne
    · by_cases hne : run = []
      · subst hne
        exact ⟨[l], after, rfl, by simp [hl], Or.inr (by simp [hl]), hafter⟩
      · exact hcons (by simp [hl]) hne
    · exact ⟨[], l :: (run ++ after), rfl, by simp, Or.inl rfl, .code _ hl⟩

theorem exists_cut {lines : List Text} (h : ∃ l ∈ lines, role l = .statement) :
    ∃ before block after, lines = before ++ block ++ after ∧ IsCut before block after := by
  induction lines with
  | nil => simp at h
  | cons l ls ih =>
    by_cases hl : role l = .statement
    · obtain ⟨run, after, rfl, hrun, hlast, hafter⟩ := exists_run ls
      refine ⟨[], l :: run, after, rfl, ⟨⟨l, rfl, hl⟩, ?_, ?_⟩, by simp, hafter⟩
      · rcases hlast with rfl | ⟨x, hx, hstat⟩
        · exact ⟨l, rfl, hl⟩
        · exact ⟨x, by rw [List.getLast?_cons]; simp_all, hstat⟩
      · simpa [hl] using hrun
    · have hls : ∃ x ∈ ls, role x = .statement := by simpa [hl] using h
      obtain ⟨before, block, after, rfl, hcut⟩ := ih hls
      refine ⟨l :: before, block, after, rfl, hcut.toIsBlock, ?_, hcut.closed⟩
      simpa [hl] using hcut.lead

/-! ## The scan finds the cut -/

/-- Dropping blank lines from the end stops at the last import. -/
theorem dropBlankEnd_append {block blanks : List Text}
    (hlast : ∃ l ∈ block.getLast?, role l = .statement) (hb : ∀ l ∈ blanks, role l = .blank) :
    dropBlankEnd (block ++ blanks) = block := by
  obtain ⟨l, hl, hstat⟩ := hlast
  obtain ⟨ls, rfl⟩ := List.getLast?_eq_some_iff.mp hl
  unfold dropBlankEnd
  rw [List.reverse_append, List.dropWhile_append_of_pos (by simpa using hb)]
  simp [hstat]

theorem IsCut.locate {before block after : List Text} (h : IsCut before block after) :
    locate (before ++ block ++ after) = some ⟨before.length, block.length⟩ := by
  obtain ⟨l, hl, hstat⟩ := h.first
  obtain ⟨ls, rfl⟩ := List.head?_eq_some_iff.mp hl
  have hlead : (before ++ l :: ls ++ after).takeWhile (fun l => role l != .statement) = before := by
    rw [List.append_assoc, List.takeWhile_append_of_pos (by simpa using h.lead)]
    simp [hstat]
  have hrun : (l :: ls ++ after).takeWhile (fun l => role l != .code) =
      l :: ls ++ after.takeWhile fun l => role l != .code :=
    List.takeWhile_append_of_pos (by simpa using h.inside)
  have hdrop : (before ++ l :: ls ++ after).drop before.length = l :: ls ++ after := by simp
  unfold Block.locate
  simp only [hlead, hdrop, hrun]
  rw [dropBlankEnd_append h.last h.closed.takeWhile_blank]
  simp

theorem locate_eq_none {lines : List Text} (h : ∀ l ∈ lines, role l ≠ .statement) :
    locate lines = none := by
  have hlead : lines.takeWhile (fun l => role l != .statement) = lines :=
    List.takeWhile_eq_self_iff.mpr (by simpa using h)
  unfold locate
  simp [hlead, dropBlankEnd]

theorem locate_eq_none_iff {lines : List Text} :
    locate lines = none ↔ ∀ l ∈ lines, role l ≠ .statement := by
  refine ⟨fun h l hl hstat => ?_, locate_eq_none⟩
  obtain ⟨before, block, after, rfl, hcut⟩ := exists_cut ⟨l, hl, hstat⟩
  rw [hcut.locate] at h
  cases h

/-- `locate` gives the one cut of the lines. -/
theorem locate_eq_some_iff {lines : List Text} {range : LineRange} :
    locate lines = some range ↔ ∃ before block after, lines = before ++ block ++ after ∧
      IsCut before block after ∧ range = ⟨before.length, block.length⟩ := by
  constructor
  · intro h
    have himport : ∃ l ∈ lines, role l = .statement := by
      by_contra hno
      rw [locate_eq_none fun l hl hstat => hno ⟨l, hl, hstat⟩] at h
      cases h
    obtain ⟨before, block, after, rfl, hcut⟩ := exists_cut himport
    rw [hcut.locate] at h
    exact ⟨before, block, after, rfl, hcut, (Option.some.inj h).symm⟩
  · rintro ⟨before, block, after, rfl, hcut, rfl⟩
    exact hcut.locate

/-! ## The imports of the block -/

theorem select_append (before block after : List Text) :
    (⟨before.length, block.length⟩ : LineRange).select (before ++ block ++ after) = block := by
  simp [LineRange.select]

theorem extract_append (before block after : List Text) :
    extract (before ++ block ++ after) ⟨before.length, block.length⟩ = imports block := by
  rw [extract, select_append]

/-- The imports of a block are import statements in normal form. -/
theorem IsBlock.of_mem_imports {block : List Text} (h : IsBlock block) {x : Text}
    (hx : x ∈ imports block) : role x = .statement ∧ normalize x = x := by
  simp only [imports, List.mem_filter, List.mem_map] at hx
  obtain ⟨⟨l, hl, rfl⟩, hne⟩ := hx
  refine ⟨?_, normalize_normalize l⟩
  rw [role_normalize]
  have hblank : role l ≠ .blank := fun e => by simp [role_eq_blank_iff.mp e] at hne
  have hcode := h.inside l hl
  cases hr : role l <;> simp_all

theorem imports_ne_nil {lines : List Text} {l : Text} (hl : l ∈ lines)
    (hstat : role l = .statement) : imports lines ≠ [] := by
  have hne : normalize l ≠ [] := by
    rw [Ne, ← role_eq_blank_iff, hstat]
    simp
  apply List.ne_nil_of_mem (a := normalize l)
  simp only [imports, List.mem_filter, List.mem_map]
  exact ⟨⟨l, hl, rfl⟩, by simpa using hne⟩

theorem IsBlock.imports_ne_nil {block : List Text} (h : IsBlock block) : imports block ≠ [] := by
  obtain ⟨l, hl, hstat⟩ := h.first
  exact Block.imports_ne_nil (List.mem_of_mem_head? hl) hstat

/-- A block of more than one line has more than one import. -/
theorem IsBlock.eq_singleton {block : List Text} (h : IsBlock block)
    (hlen : (imports block).length ≤ 1) : ∃ l, block = [l] := by
  obtain ⟨l, hl, hfirst⟩ := h.first
  obtain ⟨ls, rfl⟩ := List.head?_eq_some_iff.mp hl
  rcases ls with _ | ⟨l', ls⟩
  · exact ⟨l, rfl⟩
  · obtain ⟨x, hx, hlast⟩ := h.last
    rw [List.getLast?_cons_cons] at hx
    have hone : imports [l] ≠ [] := Block.imports_ne_nil (by simp) hfirst
    have hmore : imports (l' :: ls) ≠ [] := Block.imports_ne_nil (List.mem_of_getLast? hx) hlast
    have hsplit : imports (l :: l' :: ls) = imports [l] ++ imports (l' :: ls) := by
      rw [imports, ← List.singleton_append, List.map_append, List.filter_append]
      rfl
    rw [hsplit, List.length_append] at hlen
    have := List.length_pos_iff.mpr hone
    have := List.length_pos_iff.mpr hmore
    omega

/-- Lines in normal form, up to empty ones, keep their text. -/
theorem imports_of_normal {lines : List Text} (h : ∀ l ∈ lines, normalize l = l) :
    imports lines = lines.filter fun l => !l.isEmpty := by
  unfold imports
  rw [List.map_congr_left h, List.map_id']

end ImportBlock.Block
