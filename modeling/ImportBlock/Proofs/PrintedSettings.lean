import ImportBlock.Config.Settings
import ImportBlock.Proofs.FrameworkNames
import ImportBlock.Proofs.Yaml.Documents

/-!
# Printed settings

Settings are printed entry by entry under the names that the configuration file has for them
(`toYaml_eq`), and what is printed of each is read back, so the file reads as the values of the
settings under their names (`read?_toYaml`). Texts of several lines that start with a blank or a
line break have to read back on their own. Names of frameworks are trimmed, and the name of a log
format has one line, so for them there is nothing to ask.
-/

namespace ImportBlock

namespace Text

open Utf8

theorem lower_flatMap_encode {cs : List ℕ} (h : ∀ n ∈ cs, IsCode n) :
    lower (cs.flatMap encode) = cs.flatMap fun n => lowerGlyph ⟨encode n, some n⟩ := by
  induction cs with
  | nil => rfl
  | cons n cs ih =>
    rw [List.forall_mem_cons] at h
    unfold lower at ih ⊢
    rw [List.flatMap_cons, h.1.2, List.flatMap_cons, ih h.2, List.flatMap_cons]

theorem feed_mem_lower {t : Text} (hvalid : isValid t = true) (h : 10 ∈ codes t) :
    10 ∈ t.lower := by
  obtain ⟨htext, hcodes⟩ := codes_and_valid hvalid
  rw [← htext, lower_flatMap_encode hcodes]
  exact List.mem_flatMap.mpr ⟨10, h, by decide⟩

end Text

/-! ## Texts that always read back -/

namespace Yaml

variable {outer margin : ℕ} {t : Text}

theorem BlockReadsBack.of_trim (h : t.trim = t) : BlockReadsBack outer margin t := by
  intro hstart
  simp only [Bool.and_eq_true] at hstart
  obtain ⟨⟨⟨-, hfeed⟩, hprintable⟩, hgap⟩ := hstart
  rcases hdecode : Utf8.decode t with _ | ⟨g, gs⟩
  · rw [Utf8.codes, hdecode] at hfeed
    cases hfeed
  · -- a gap at the start would be a blank character
    exfalso
    have hblank := Text.isBlank_head_of_trim h hdecode
    simp only [isBlockPrintable, Bool.and_eq_true, Bool.not_eq_true', List.any_eq_false]
      at hprintable
    have hspecial := hprintable.1.1 (g.code.getD Utf8.replacement) (by simp [Utf8.codes, hdecode])
    rw [Utf8.codes, hdecode, List.map_cons, List.headD_cons] at hgap
    rcases hcode : g.code with _ | n
    · rw [hcode] at hgap
      exact absurd hgap (by decide)
    · rw [hcode, Option.getD_some] at hgap hspecial
      have hzero : n ≠ 0 := by
        rintro rfl
        exact hspecial rfl
      rw [isGap_iff, isBreak_iff] at hgap
      simp only [Glyph.isBlank, hcode, isBlankCode, Bool.or_eq_false_iff, Bool.and_eq_false_iff,
        decide_eq_false_iff_not, beq_eq_false_iff_ne] at hblank
      omega

theorem BlockReadsBack.of_isFormat (h : LogFormat.isValid t = true) :
    BlockReadsBack outer margin t := by
  intro hstart
  exfalso
  simp only [Bool.and_eq_true] at hstart
  obtain ⟨⟨⟨hvalid, hfeed⟩, -⟩, -⟩ := hstart
  have hmem := Text.feed_mem_lower hvalid (by simpa using hfeed)
  simp only [LogFormat.isValid, Bool.or_eq_true, List.isEmpty_iff, beq_iff_eq] at h
  rcases h with (h | h) | h <;> rw [h] at hmem <;> exact absurd hmem (by decide)

end Yaml

/-! ## Entries of the file -/

namespace Settings

open Yaml

/-- The value that stands for a setting. -/
def valueOf (s : Settings) : Key → Value
  | .frameworks => .list (s.frameworks.map .text)
  | .interfaceSuffix => .text s.interfaceSuffix
  | .collapse => .bool s.collapse
  | .extensions => .list (s.extensions.map .text)
  | .logLevel => .text s.logLevel
  | .logFormat => .text s.logFormat

/-- The values of settings, laid out as in a configuration file. -/
def document (s : Settings) : Value :=
  let entry := fun k : Key => (k.name, s.valueOf k)
  .map [entry .frameworks, entry .interfaceSuffix, entry .collapse, entry .extensions,
    (Key.logging, .map [entry .logLevel, entry .logFormat])]

/-- What is printed behind the colon for a list of texts. -/
def listText (items : List Text) : Text :=
  if items.isEmpty then " []\n"
  else 10 :: items.flatMap fun t => spaces step ++ 45 :: 32 :: printText (step + 2) t

/-- The log settings: name, printed form and value. -/
def logEntries (s : Settings) : List (Text × Text × Value) :=
  [(Key.logLevel.name, 32 :: printText 8 s.logLevel, s.valueOf .logLevel),
    (Key.logFormat.name, 32 :: printText 8 s.logFormat, s.valueOf .logFormat)]

/-- All settings: name, printed form and value. -/
def entries (s : Settings) : List (Text × Text × Value) :=
  [(Key.frameworks.name, listText s.frameworks, s.valueOf .frameworks),
    (Key.interfaceSuffix.name, 32 :: printText 4 s.interfaceSuffix, s.valueOf .interfaceSuffix),
    (Key.collapse.name, 32 :: if s.collapse then "true\n" else "false\n", s.valueOf .collapse),
    (Key.extensions.name, listText s.extensions, s.valueOf .extensions),
    (Key.logging, 10 :: s.logEntries.flatMap fun e => entryText 4 e.1 e.2.1,
      .map (s.logEntries.map fun e => (e.1, e.2.2)))]

theorem printList_eq (key : Text) (items : List Text) :
    printList key items = entryText 0 key (listText items) := by
  unfold printList listText
  cases items <;> rfl

theorem printEntry_eq (depth : ℕ) (key t : Text) :
    printEntry depth key t =
      entryText (depth * step) key (32 :: printText ((depth + 1) * step) t) := by
  simp [printEntry, entryText]

theorem toYaml_eq (s : Settings) :
    s.toYaml = s.entries.flatMap fun e => entryText 0 e.1 e.2.1 := by
  have hcollapse : Text.ofString "collapse_blank_lines: " = Key.collapse.name ++ [58, 32] := by
    decide
  have hlogging : Text.ofString "logging:\n" = Key.logging ++ [58, 10] := by decide
  unfold toYaml entries logEntries
  rw [printList_eq, printList_eq, printEntry_eq, printEntry_eq, printEntry_eq, hcollapse, hlogging]
  simp [entryText, step, spaces, Key.name, apply_ite Text.ofString]

theorem document_eq (s : Settings) :
    s.document = .map (s.entries.map fun e => (e.1, e.2.2)) := rfl

theorem isField_name (k : Key) : IsField k.name := by
  cases k <;> exact ⟨⟨by decide, by decide, by decide⟩, by decide, by decide⟩

theorem isField_logging : IsField Key.logging :=
  ⟨⟨by decide, by decide, by decide⟩, by decide, by decide⟩

theorem valueReadsBack_listText {depth : ℕ} {items : List Text}
    (h : ∀ t ∈ items, BlockReadsBack 4 6 t) :
    ValueReadsBack (depth + 1) 0 (listText items) (.list (items.map .text)) := by
  unfold listText
  rcases items with _ | ⟨t, items⟩
  · exact valueReadsBack_emptyList
  · refine valueReadsBack_list (show 0 < step by decide) (List.cons_ne_nil _ _) fun u hu => ?_
    exact printText_readsAs (by decide) (h u hu)

/-- The printed settings read as their values. -/
theorem read?_toYaml {s : Settings} (hframeworks : ∀ t ∈ s.frameworks, BlockReadsBack 4 6 t)
    (hsuffix : BlockReadsBack 0 4 s.interfaceSuffix)
    (hextensions : ∀ t ∈ s.extensions, BlockReadsBack 4 6 t)
    (hlevel : BlockReadsBack 4 8 s.logLevel) (hformat : BlockReadsBack 4 8 s.logFormat) :
    Yaml.read? s.toYaml = some s.document := by
  have hlog : ∀ e ∈ s.logEntries, IsField e.1 ∧ ValueReadsBack 0 4 e.2.1 e.2.2 := by
    simp only [logEntries, List.forall_mem_cons]
    exact ⟨⟨isField_name _, (printText_readsAs (by decide) hlevel).value⟩,
      ⟨isField_name _, (printText_readsAs (by decide) hformat).value⟩, by simp⟩
  have hlogNames : s.logEntries.Pairwise fun d e => d.1 ≠ e.1 := by
    rw [← List.pairwise_map (f := Prod.fst)]
    exact (by decide : [Key.logLevel.name, Key.logFormat.name].Nodup)
  have hentries : ∀ e ∈ s.entries, IsField e.1 ∧ ValueReadsBack 1 0 e.2.1 e.2.2 := by
    simp only [entries, List.forall_mem_cons]
    exact ⟨⟨isField_name _, valueReadsBack_listText hframeworks⟩,
      ⟨isField_name _, (printText_readsAs (by decide) hsuffix).value⟩,
      ⟨isField_name _, valueReadsBack_bool _⟩,
      ⟨isField_name _, valueReadsBack_listText hextensions⟩,
      ⟨isField_logging, valueReadsBack_map (List.cons_ne_nil _ _) hlogNames (by decide) hlog⟩,
      by simp⟩
  have hnames : s.entries.Pairwise fun d e => d.1 ≠ e.1 := by
    rw [← List.pairwise_map (f := Prod.fst)]
    exact (by decide : [Key.frameworks.name, Key.interfaceSuffix.name, Key.collapse.name,
      Key.extensions.name, Key.logging].Nodup)
  rw [toYaml_eq, document_eq]
  exact read?_entries (List.cons_ne_nil _ _) hnames (by decide) hentries

end Settings

end ImportBlock
