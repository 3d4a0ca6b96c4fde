import ImportBlock.Proofs.NormalForm
import Mathlib.Data.List.Chain

/-!
# Lines in normal form

`IsNormal t` says by its characters that a text is in normal form: no blank at either end, none but
spaces, and no two of them side by side. Every normal form is such a text, and such a text is its
own normal form (`isNormal_iff`). Both come from how a text is cut at its blanks:

1. There is an empty stretch exactly where blanks are not single or stand at an end
   (`nil_notMem_stretches_iff`).
2. With a space in between, the stretches give the text back if all blanks are spaces
   (`join_stretches`).

Cutting a normal form at its spaces gives the fields that were joined, so these decide whether it
starts with the import word and a space (`isImport_join_iff`).
-/

namespace ImportBlock

open Utf8

theorem Utf8.bytes_ne_nil_of_mem_decode {t : Text} {g : Glyph} (h : g ∈ decode t) :
    g.bytes ≠ [] := by
  induction t using glyph_induction with
  | nil => simp [decode] at h
  | sequence a w n v hn ih =>
    rw [decode_code? hn] at h
    rcases List.mem_cons.mp h with rfl | h
    · exact List.cons_ne_nil _ _
    · exact ih h
  | byte a u hu ih =>
    rw [decode_cons hu] at h
    rcases List.mem_cons.mp h with rfl | h
    · exact List.cons_ne_nil _ _
    · exact ih h

namespace Text

/-! ## Stretches -/

theorem exists_stretches (gs : List Glyph) : ∃ s ss, stretches gs = s :: ss := by
  apply List.exists_cons_of_ne_nil
  fun_cases stretches gs <;> simp

/-- The stretches are the pieces that are left when the glyphs are split at the blanks. -/
theorem stretches_eq_splitOnP (gs : List Glyph) :
    stretches gs = (gs.splitOnP Glyph.isBlank).map bytes := by
  induction gs with
  | nil => rfl
  | cons g gs ih =>
    rw [List.splitOnP_cons_eq_if_modifyHead]
    rcases hb : g.isBlank with _ | _
    · obtain ⟨s, ss, hs⟩ := exists_stretches gs
      rw [stretches_cons_of_not_blank hb hs]
      rcases hsplit : gs.splitOnP Glyph.isBlank with _ | ⟨p, ps⟩
      · simp [hs, hsplit] at ih
      · rw [hs, hsplit, List.map_cons, List.cons.injEq] at ih
        simp [bytes, ih]
    · rw [stretches_cons_of_blank hb, ih]
      simp [bytes]

/-- With a space in between, the stretches of a text with no blanks but spaces give it back. -/
theorem join_stretches {gs : List Glyph} (h : ∀ g ∈ gs, g.isBlank = true → g.bytes = [32]) :
    join [32] (stretches gs) = bytes gs := by
  induction gs with
  | nil => rfl
  | cons g gs ih =>
    have hgs := ih fun g' hg' => h g' (List.mem_cons_of_mem g hg')
    obtain ⟨s, ss, hs⟩ := exists_stretches gs
    rw [hs] at hgs
    rcases hb : g.isBlank with _ | _
    · have hjoin : join [32] ((g.bytes ++ s) :: ss) = g.bytes ++ join [32] (s :: ss) := by
        cases ss <;> simp [join_singleton, join_cons_cons]
      rw [stretches_cons_of_not_blank hb hs, hjoin, hgs]
      simp [bytes]
    · rw [stretches_cons_of_blank hb, hs, join_cons_cons, hgs]
      simp [bytes, h g (by simp) hb]

section Apart

variable {gs : List Glyph} (hgs : ∀ g ∈ gs, g.bytes ≠ [])

include hgs

/-- The first stretch is empty if a blank comes first, or nothing at all. -/
theorem nil_notMem_stretches_iff_tail :
    [] ∉ stretches gs ↔ (∃ g ∈ gs.head?, g.isBlank = false) ∧ [] ∉ (stretches gs).tail := by
  cases gs with
  | nil => simp [stretches]
  | cons g gs =>
    rcases hb : g.isBlank with _ | _
    · obtain ⟨s, ss, hs⟩ := exists_stretches gs
      simp [stretches_cons_of_not_blank hb hs, hb, hgs g (by simp)]
    · simp [stretches_cons_of_blank hb, hb]

/-- The other stretches begin behind blanks. -/
theorem nil_notMem_tail_stretches_iff :
    [] ∉ (stretches gs).tail ↔ (∀ g ∈ gs.getLast?, g.isBlank = false) ∧
      gs.IsChain fun g g' => g.isBlank = true → g'.isBlank = false := by
  induction gs with
  | nil => simp [stretches]
  | cons g gs ih =>
    have hrest : ∀ g' ∈ gs, g'.bytes ≠ [] := fun g' hg' => hgs g' (List.mem_cons_of_mem g hg')
    have ih := ih hrest
    rw [List.isChain_cons]
    rcases hb : g.isBlank with _ | _
    · obtain ⟨s, ss, hs⟩ := exists_stretches gs
      have htail : (stretches (g :: gs)).tail = (stretches gs).tail := by
        rw [stretches_cons_of_not_blank hb hs, hs]
        rfl
      rw [htail, ih]
      cases gs <;> simp [hb]
    · rw [stretches_cons_of_blank hb, List.tail_cons, nil_notMem_stretches_iff_tail hrest, ih]
      cases gs with
      | nil => simp [hb]
      | cons g' gs => simp [and_left_comm]

theorem nil_notMem_stretches_iff (hne : gs ≠ []) :
    [] ∉ stretches gs ↔ (∀ g ∈ gs.head?, g.isBlank = false) ∧
      (∀ g ∈ gs.getLast?, g.isBlank = false) ∧
      gs.IsChain fun g g' => g.isBlank = true → g'.isBlank = false := by
  rw [nil_notMem_stretches_iff_tail hgs, nil_notMem_tail_stretches_iff hgs]
  obtain ⟨g, gs, rfl⟩ := List.exists_cons_of_ne_nil hne
  simp

end Apart

end Text

namespace Line

open Text

/-! ## Normal forms -/

/-- No blank at either end of the text, none but spaces, and no two of them side by side. -/
structure IsNormal (t : Text) : Prop where
  starts : ∀ g ∈ (decode t).head?, g.isBlank = false
  ends : ∀ g ∈ (decode t).getLast?, g.isBlank = false
  spaces : ∀ g ∈ decode t, g.isBlank = true → g = single 32
  apart : (decode t).IsChain fun g g' => g.isBlank = true → g'.isBlank = false

theorem isNormal_nil : IsNormal [] := by
  constructor <;> simp [decode]

/-- The blanks of a joined text are spaces, if the texts hold none. -/
theorem eq_space_of_mem_decode_join {fs : List Text} (h : ∀ f ∈ fs, Solid f) :
    ∀ g ∈ decode (join [32] fs), g.isBlank = true → g = single 32 := by
  match fs, h with
  | [], _ => simp [join, decode]
  | [f], h =>
    intro g hg hb
    rw [join_singleton] at hg
    simp [h f (by simp) g hg] at hb
  | f :: f' :: fs, h =>
    intro g hg hb
    rw [join_cons_cons, decode_append_space, List.mem_append, List.mem_cons] at hg
    rcases hg with hg | rfl | hg
    · simp [h f (by simp) g hg] at hb
    · rfl
    · exact eq_space_of_mem_decode_join (fun x hx => h x (by simp [hx])) g hg hb

theorem isNormal_join {fs : List Text} (h : ∀ f ∈ fs, f ≠ [] ∧ Solid f) :
    IsNormal (join [32] fs) := by
  have hsolid : ∀ f ∈ fs, Solid f := fun f hf => (h f hf).2
  by_cases hne : join [32] fs = []
  · rw [hne]
    exact isNormal_nil
  · have hfs : fs ≠ [] := by
      rintro rfl
      exact hne rfl
    have hnil : [] ∉ stretches (decode (join [32] fs)) := by
      rw [stretches_join hfs hsolid]
      exact fun hmem => (h [] hmem).1 rfl
    obtain ⟨hstarts, hends, hapart⟩ := (nil_notMem_stretches_iff
      (fun _ => bytes_ne_nil_of_mem_decode) (decode_ne_nil hne)).mp hnil
    exact ⟨hstarts, hends, eq_space_of_mem_decode_join hsolid, hapart⟩

theorem IsNormal.normalize_eq {t : Text} (h : IsNormal t) : normalize t = t := by
  by_cases hne : t = []
  · rw [hne, normalize_nil]
  · have hnil : [] ∉ stretches (decode t) :=
      (nil_notMem_stretches_iff (fun _ => bytes_ne_nil_of_mem_decode) (decode_ne_nil hne)).mpr
        ⟨h.starts, h.ends, h.apart⟩
    have hfields : t.fields = stretches (decode t) := by
      rw [fields, List.filter_eq_self]
      intro s hs
      have hs : s ≠ [] := ne_of_mem_of_not_mem hs hnil
      simpa using hs
    have hspaces : ∀ g ∈ decode t, g.isBlank = true → g.bytes = [32] := by
      intro g hg hb
      rw [h.spaces g hg hb]
      rfl
    rw [normalize, hfields, join_stretches hspaces, bytes_decode]

theorem isNormal_normalize (line : Text) : IsNormal (normalize line) :=
  isNormal_join fun _ hf => solid_of_mem_fields hf

theorem isNormal_iff {t : Text} : IsNormal t ↔ normalize t = t := by
  constructor
  · exact IsNormal.normalize_eq
  · intro h
    rw [← h]
    exact isNormal_normalize t

instance (t : Text) : Decidable (IsNormal t) := decidable_of_iff _ isNormal_iff.symm

/-! ## Imports -/

theorem isImport_iff {t : Text} :
    isImport t = true ↔ ∃ rest, t = Text.ofString "import" ++ [32] ++ rest := by
  have hword : importWord = Text.ofString "import" ++ [32] := by decide
  rw [isImport, startsWith, List.isPrefixOf_iff_prefix, hword]
  constructor
  · rintro ⟨rest, h⟩
    exact ⟨rest, h.symm⟩
  · rintro ⟨rest, h⟩
    exact ⟨rest, h.symm⟩

/-- Texts without blanks are joined to an import if the word is the first of several. -/
theorem isImport_join_iff {fs : List Text} (h : ∀ f ∈ fs, Solid f) :
    isImport (join [32] fs) = true ↔ 2 ≤ fs.length ∧ fs.head? = some (Text.ofString "import") := by
  rw [isImport_iff]
  constructor
  · rintro ⟨rest, hrest⟩
    have hne : fs ≠ [] := by
      rintro rfl
      simp [join] at hrest
    have hword : Solid (Text.ofString "import") := by
      unfold Solid
      decide
    -- the joined texts are cut apart again, the word in front
    have hcut : fs = Text.ofString "import" :: stretches (decode rest) := by
      rw [← hword.stretches_append_space, ← hrest, stretches_join hne h]
    obtain ⟨s, ss, hs⟩ := exists_stretches (decode rest)
    simp [hcut, hs]
  · rintro ⟨hlen, hhead⟩
    rcases fs with _ | ⟨f, _ | ⟨f', fs⟩⟩
    · simp at hlen
    · simp at hlen
    · obtain rfl : f = Text.ofString "import" := by simpa using hhead
      exact ⟨_, join_cons_cons _ _ _ _⟩

/-- **Normal forms.** For every line, of whatever bytes: its normal form is in normal form and has
the fields of the line, which are the pieces between its blanks that are not empty. Texts in normal
form, and no others, stay as they are. The normal form is an import exactly if the line has a second
field and the first one is the import word. -/
theorem normalize_exact (line : Text) :
    normalize (normalize line) = normalize line ∧
    IsNormal (normalize line) ∧
    (normalize line = line ↔ IsNormal line) ∧
    (normalize line).fields = line.fields ∧
    line.fields =
      (((decode line).splitOnP Glyph.isBlank).map bytes).filter (fun f => !f.isEmpty) ∧
    (isImport (normalize line) = true ↔
      2 ≤ line.fields.length ∧ line.fields.head? = some (Text.ofString "import")) := by
  refine ⟨normalize_normalize line, isNormal_normalize line, isNormal_iff.symm,
    fields_normalize line, ?_, ?_⟩
  · rw [fields, stretches_eq_splitOnP]
  · exact isImport_join_iff fun f hf => (solid_of_mem_fields hf).2

-- two bytes of a cut-off sequence, a wide blank that starts with the same bytes, and its last byte
example :
    let line := [0xE2, 0x80] ++ Text.ofString "\u2003" ++ [0x83]
    ¬ IsNormal line ∧ normalize line = [0xE2, 0x80, 32, 0x83] ∧
      IsNormal [0xE2, 0x80, 32, 0x83] := by
  decide +kernel

end Line

end ImportBlock
