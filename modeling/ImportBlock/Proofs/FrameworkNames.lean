import ImportBlock.Proofs.NormalForm
import ImportBlock.Source.Groups
import Mathlib.Data.List.DropRight

/-!
# Clean names

`ofNames` trims names on decoded characters, drops blank names and repetitions. What is left of a
text between two glyphs decodes to the glyphs left (`decode_bytes_of_prefix`,
`decode_bytes_of_suffix`), broken sequences included, so a trimmed text has nothing to trim
(`trim_trim`) and clean names stay as they are (`names_ofNames_names`).
-/

namespace ImportBlock

namespace Utf8

/-- The glyphs behind a border decode to themselves. -/
theorem decode_bytes_of_suffix {t : Text} {gs : List Glyph} (h : gs <:+ decode t) :
    decode (bytes gs) = gs := by
  induction t using glyph_induction with
  | nil =>
    rw [List.suffix_nil.mp h]
    rfl
  | sequence a w n v hn ih =>
    rw [decode_code? hn, List.suffix_cons_iff] at h
    rcases h with rfl | h
    · rw [← decode_code? hn, bytes_decode]
    · exact ih h
  | byte a u hu ih =>
    rw [decode_cons hu, List.suffix_cons_iff] at h
    rcases h with rfl | h
    · rw [← decode_cons hu, bytes_decode]
    · exact ih h

/-- The glyphs before a border decode to themselves. -/
theorem decode_bytes_of_prefix {t : Text} {gs : List Glyph} (h : gs <+: decode t) :
    decode (bytes gs) = gs := by
  induction t using glyph_induction generalizing gs with
  | nil =>
    rw [List.prefix_nil.mp h]
    rfl
  | sequence a w n v hn ih =>
    rw [decode_code? hn, List.prefix_cons_iff] at h
    rcases h with rfl | ⟨hs, rfl, h⟩
    · rfl
    · show decode (a :: w ++ bytes hs) = _
      rw [decode_code? hn, ih h]
  | byte a u hu ih =>
    rw [decode_cons hu, List.prefix_cons_iff] at h
    rcases h with rfl | ⟨hs, rfl, h⟩
    · rfl
    · -- less follows the byte than before, so it starts no sequence here either
      have hless : bytes hs <+: u := by
        obtain ⟨rest, hrest⟩ := h
        rw [← bytes_decode u, ← hrest]
        simp [bytes]
      show decode (a :: bytes hs) = _
      rw [decode_cons fun w hw => hu w (hw.trans hless), ih h]

end Utf8

namespace Text

open Utf8

/-- The glyphs of a trimmed text. -/
def trimmed (gs : List Glyph) : List Glyph :=
  (gs.dropWhile Glyph.isBlank).rdropWhile Glyph.isBlank

theorem trim_eq (t : Text) : t.trim = bytes (trimmed (decode t)) := rfl

theorem decode_trim (t : Text) : decode t.trim = trimmed (decode t) := by
  have hrest := decode_bytes_of_suffix (List.dropWhile_suffix (l := decode t) Glyph.isBlank)
  rw [trim_eq]
  apply decode_bytes_of_prefix (t := bytes ((decode t).dropWhile Glyph.isBlank))
  rw [hrest]
  exact List.rdropWhile_prefix _ _

theorem dropWhile_trimmed (gs : List Glyph) :
    (trimmed gs).dropWhile Glyph.isBlank = trimmed gs := by
  rw [List.dropWhile_eq_self_iff]
  intro hlen
  obtain ⟨rest, hrest⟩ : trimmed gs <+: gs.dropWhile Glyph.isBlank := List.rdropWhile_prefix _ _
  have hlen' : 0 < (gs.dropWhile Glyph.isBlank).length := by
    rw [← hrest, List.length_append]
    omega
  have hhead := List.dropWhile_get_zero_not Glyph.isBlank gs hlen'
  simpa [← hrest, List.getElem_append_left hlen] using hhead

theorem trimmed_trimmed (gs : List Glyph) : trimmed (trimmed gs) = trimmed gs := by
  rw [trimmed, dropWhile_trimmed]
  exact List.rdropWhile_idempotent _ _

@[simp] theorem trim_trim (t : Text) : t.trim.trim = t.trim := by
  rw [trim_eq t.trim, decode_trim, trimmed_trimmed, ← trim_eq]

theorem isBlank_head_of_trim {t : Text} (h : t.trim = t) {g : Glyph} {gs : List Glyph}
    (hg : decode t = g :: gs) : g.isBlank = false := by
  have hfront := dropWhile_trimmed (decode t)
  rw [← decode_trim, h, hg, List.dropWhile_eq_self_iff] at hfront
  simpa using hfront

end Text

namespace Frameworks

theorem mem_distinct {t : Text} {ts : List Text} : t ∈ distinct ts ↔ t ∈ ts := by
  induction ts with
  | nil => rfl
  | cons u ts ih =>
    by_cases h : t = u <;> simp [distinct, ih, h]

theorem nodup_distinct (ts : List Text) : (distinct ts).Nodup := by
  induction ts with
  | nil => exact List.nodup_nil
  | cons t ts ih =>
    rw [distinct, List.nodup_cons]
    exact ⟨by simp, ih.filter _⟩

theorem distinct_of_nodup {ts : List Text} (h : ts.Nodup) : distinct ts = ts := by
  induction ts with
  | nil => rfl
  | cons t ts ih =>
    obtain ⟨hnot, h⟩ := List.nodup_cons.mp h
    rw [distinct, ih h, List.filter_eq_self.mpr]
    intro u hu
    have hne : u ≠ t := fun heq => hnot (heq ▸ hu)
    simpa using hne

/-- A name that was kept is a trimmed one and not empty. -/
theorem mem_names_ofNames {t : Text} {names : List Text} (h : t ∈ (ofNames names).names) :
    t.trim = t ∧ t ≠ [] := by
  rw [ofNames, mem_distinct, List.mem_filter, List.mem_map] at h
  obtain ⟨⟨u, -, rfl⟩, hne⟩ := h
  exact ⟨Text.trim_trim u, by simpa using hne⟩

theorem names_ofNames_names (names : List Text) :
    (ofNames (ofNames names).names).names = (ofNames names).names := by
  have hclean := fun t (ht : t ∈ (ofNames names).names) => mem_names_ofNames ht
  have hmap : (ofNames names).names.map Text.trim = (ofNames names).names :=
    List.map_congr_left (fun t ht => (hclean t ht).1) |>.trans (List.map_id _)
  have hfilter : ((ofNames names).names.filter fun t => !t.isEmpty) = (ofNames names).names :=
    List.filter_eq_self.mpr fun t ht => by simpa using (hclean t ht).2
  show distinct (((ofNames names).names.map Text.trim).filter fun t => !t.isEmpty) = _
  rw [hmap, hfilter]
  exact distinct_of_nodup (nodup_distinct _)

end Frameworks

end ImportBlock
