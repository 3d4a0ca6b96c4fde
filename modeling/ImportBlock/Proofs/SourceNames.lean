import ImportBlock.Proofs.Usability

/-!
# Names that end in an extension

What an extension is has three readers: the check of the settings, which lets dots pass anywhere;
the form in which extensions are compared, which starts with a dot; and the extension of a path,
which starts at the last dot. A path in front of an extension does not change where its last dot is
(`extension_append`). So a path that ends in an extension of the settings is a source file if that
extension has no other dot, and otherwise only if what stands from its last dot on is listed as well
(`isSource_append_iff`).
-/

namespace ImportBlock

open Utf8

/-! ## Equality up to case -/

namespace Text

theorem equalFold_self (t : Text) : t.equalFold t = true := beq_self_eq_true _

theorem length_decode_of_equalFold {s t : Text} (h : s.equalFold t = true) :
    (decode s).length = (decode t).length := by
  have hcodes := congrArg List.length (beq_iff_eq.mp h)
  simpa [codes] using hcodes

/-- A text is not equal to what is left of it from a dot on, in whatever case. -/
theorem equalFold_dot_eq_false {front : Text} (hne : front ≠ []) (last : Text) :
    equalFold (46 :: last) (front ++ 46 :: last) = false := by
  rw [← Bool.not_eq_true]
  intro h
  have hlen := length_decode_of_equalFold h
  rw [decode_append (by simp [isContinuation]) front, List.length_append] at hlen
  have hpos := List.length_pos_iff.mpr (decode_ne_nil hne)
  omega

end Text

namespace Path

/-! ## The last dot -/

theorem takeWhile_reverse_append {b : UInt8} {last : Text} (h : b ∉ last) (t : Text) :
    ((last.reverse ++ t).takeWhile fun x => x != b) =
      last.reverse ++ t.takeWhile fun x => x != b := by
  rw [List.takeWhile_append_of_pos]
  intro x hx
  have hx : x ≠ b := ne_of_mem_of_not_mem (List.mem_reverse.mp hx) h
  simpa using hx

/-- The extension starts at the last dot, if no slash follows it. -/
theorem extension_append_dot (stem : Text) {last : Text} (hdot : 46 ∉ last) (hslash : 47 ∉ last) :
    extension (stem ++ 46 :: last) = 46 :: last := by
  unfold extension
  rw [List.reverse_append, List.reverse_cons, List.append_assoc, List.singleton_append,
    takeWhile_reverse_append hslash, List.takeWhile_cons_of_pos (by decide)]
  dsimp only
  rw [takeWhile_reverse_append hdot, List.takeWhile_cons_of_neg (by decide)]
  simp

theorem exists_last_dot {t : Text} (h : 46 ∈ t) :
    ∃ front last, t = front ++ 46 :: last ∧ 46 ∉ last := by
  obtain ⟨last, front, hrev, hlast⟩ := List.eq_append_cons_of_mem (List.mem_reverse.mpr h)
  refine ⟨front.reverse, last.reverse, ?_, by simpa using hlast⟩
  rw [← List.reverse_reverse t, hrev]
  simp

theorem extension_append {n : Text} (hdot : 46 ∈ n) (hslash : 47 ∉ n) (stem : Text) :
    extension (stem ++ n) = extension n := by
  obtain ⟨front, last, rfl, hlast⟩ := exists_last_dot hdot
  have hslash : 47 ∉ last := fun hmem => hslash (by simp [hmem])
  rw [← List.append_assoc, extension_append_dot _ hlast hslash,
    extension_append_dot front hlast hslash]

/-- A name that starts with a dot is its own extension, even up to case, if it has no other dot. -/
theorem equalFold_extension_iff {rest : Text} (hslash : 47 ∉ rest) :
    (extension (46 :: rest)).equalFold (46 :: rest) = true ↔ (46 :: rest).count 46 = 1 := by
  rw [List.count_cons_self, Nat.add_eq_right, List.count_eq_zero]
  constructor
  · intro h hdot
    obtain ⟨front, last, rfl, hlast⟩ := exists_last_dot hdot
    have hslash : 47 ∉ last := fun hmem => hslash (by simp [hmem])
    rw [← List.cons_append, extension_append_dot _ hlast hslash,
      Text.equalFold_dot_eq_false (List.cons_ne_nil _ _)] at h
    cases h
  · intro hdot
    have hself : extension (46 :: rest) = 46 :: rest := extension_append_dot [] hdot hslash
    rw [hself, Text.equalFold_self]

/-- Whether a path that ends in a name with a dot is a source file is decided by that name. -/
theorem isSource_append {n : Text} (hdot : 46 ∈ n) (hslash : 47 ∉ n) (stem : Text)
    (extensions : List Text) :
    isSource (stem ++ n) extensions = true ↔
      ∃ e ∈ extensions, (extension n).equalFold (normalizeExtension e) = true := by
  have hne : extension n ≠ [] := by
    obtain ⟨front, last, rfl, hlast⟩ := exists_last_dot hdot
    rw [extension_append_dot front hlast fun hmem => hslash (by simp [hmem])]
    exact List.cons_ne_nil _ _
  unfold isSource
  rw [extension_append hdot hslash]
  simp [hne]

/-! ## Accepted extensions -/

theorem exists_dot_of_isExtension {e : Text} (h : Settings.isExtension e = true) :
    ∃ rest, normalizeExtension e = 46 :: rest ∧ 47 ∉ rest := by
  obtain ⟨-, -, hslash, -⟩ := Settings.isExtension_iff.mp h
  obtain ⟨b, rest, hn⟩ := Settings.exists_normalizeExtension h
  refine ⟨b :: rest, hn, fun hmem => ?_⟩
  have hmem : 47 ∈ normalizeExtension e := by
    rw [hn]
    exact List.mem_cons_of_mem _ hmem
  rcases Settings.mem_normalizeExtension hmem with hdot | htrim
  · exact absurd hdot (by decide)
  · exact hslash htrim

/-- **Source files by their names.** Take an extension of settings that pass their checks. A path
that ends in it is a source file, for a list with this extension, exactly if the extension as it is
compared has no dot but the first, or what stands from its last dot on is itself listed, up to case.
So an extension with one dot is recognised on all paths and in all lists, and no other is. -/
theorem isSource_append_iff {s : Settings} {e : Text} (hvalid : s.validate = .ok ())
    (he : e ∈ s.extensions) :
    let n := normalizeExtension e
    (∀ (stem : Text) (extensions : List Text), e ∈ extensions →
      (isSource (stem ++ n) extensions = true ↔ n.count 46 = 1 ∨
        ∃ e' ∈ extensions, (extension n).equalFold (normalizeExtension e') = true)) ∧
    ((∀ (stem : Text) (extensions : List Text), e ∈ extensions →
      isSource (stem ++ n) extensions = true) ↔ n.count 46 = 1) := by
  intro n
  obtain ⟨rest, hn, hslash⟩ :=
    exists_dot_of_isExtension ((Settings.validate_eq_ok_iff.mp hvalid).2.2 e he)
  have hn : n = 46 :: rest := hn
  have hself : (extension n).equalFold n = true ↔ n.count 46 = 1 := by
    rw [hn]
    exact equalFold_extension_iff hslash
  have hsource := isSource_append (n := n) (by simp [hn]) (by simp [hn, hslash])
  refine ⟨fun stem extensions hmem => ?_, fun hall => ?_, fun hcount stem extensions hmem => ?_⟩
  · rw [hsource]
    exact ⟨Or.inr, fun h => h.elim (fun hcount => ⟨e, hmem, hself.mpr hcount⟩) id⟩
  · obtain ⟨e', he', hfold⟩ := (hsource [] [e]).mp (hall [] [e] (List.mem_singleton_self e))
    rw [List.mem_singleton.mp he'] at hfold
    exact hself.mp hfold
  · exact (hsource stem extensions).mpr ⟨e, hmem, hself.mpr hcount⟩

/-- An extension with a wide blank in front of it, and one with two dots whose last part is listed
in capitals. -/
theorem isSource_append_iff_listed :
    let s : Settings :=
      { Settings.standard with extensions := ["\u2003Swift", ".swift.in", "IN"] }
    s.validate = .ok () ∧ isSource "src/x.y/Main.Swift" s.extensions = true ∧
      isSource "Main.swift.in" s.extensions = true := by
  intro s
  have hvalid : s.validate = .ok () := by decide +kernel
  have hwide := (isSource_append_iff (e := "\u2003Swift") hvalid (by decide +kernel)).2
  have hdots := (isSource_append_iff (e := ".swift.in") hvalid (by decide +kernel)).1
  refine ⟨hvalid, hwide.mpr ?_ "src/x.y/Main" s.extensions ?_,
    (hdots "Main" s.extensions ?_).mpr (Or.inr ⟨"IN", ?_, ?_⟩)⟩
  all_goals decide +kernel

/-- The settings accept an extension with two dots, but a path that ends in it is no source file. -/
theorem isSource_misses_two_dots :
    let s : Settings := { Settings.standard with extensions := [".swift.in"] }
    s.validate = .ok () ∧ Text.ofString ".swift.in" ∈ s.extensions ∧
      Text.ofString "Main" ++ normalizeExtension ".swift.in" = Text.ofString "Main.swift.in" ∧
      isSource "Main.swift.in" s.extensions = false := by
  decide +kernel

end Path

end ImportBlock
