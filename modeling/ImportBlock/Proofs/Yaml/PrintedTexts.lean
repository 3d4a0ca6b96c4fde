import ImportBlock.Proofs.Yaml.BlockFrame
import ImportBlock.Proofs.Yaml.Tokens

/-!
# Printed texts

Every text is printed as a scalar that is read as the text (`printText_readsAs`): between quotes,
without quotes, as a block, or in base 64. One kind of text makes a condition, namely a text of
several lines that starts with a blank or a line break. Its block does not always have the lines
that its header announces; `BlockReadsBack` says of a single text that it does.
-/

namespace ImportBlock

/-! ## Base 64 -/

namespace Base64

theorem value?_digit {n : ℕ} (h : n < 64) : value? (digit n) = some n ∧ digit n ≠ 61 := by
  revert n
  decide

/-- The digits and the padding. -/
def IsSymbol (b : UInt8) : Prop := ∃ n, n < 65 ∧ b = if n = 64 then 61 else digit n

theorem isSymbol_digit {n : ℕ} (h : n < 64) : IsSymbol (digit n) :=
  ⟨n, by omega, by rw [if_neg (by omega)]⟩

theorem isSymbol_padding : IsSymbol 61 := ⟨64, by decide, rfl⟩

theorem isSymbol_of_mem_encode (t : Text) : ∀ b ∈ encode t, IsSymbol b := by
  fun_induction encode t with
  | case1 => simp
  | case2 a =>
    have ha := a.toNat_lt
    simp only [List.forall_mem_cons]
    exact ⟨isSymbol_digit (by omega), isSymbol_digit (by omega), isSymbol_padding, isSymbol_padding,
      by simp⟩
  | case3 a b =>
    have ha := a.toNat_lt
    have hb := b.toNat_lt
    simp only [List.forall_mem_cons]
    exact ⟨isSymbol_digit (by omega), isSymbol_digit (by omega), isSymbol_digit (by omega),
      isSymbol_padding, by simp⟩
  | case4 a b c rest ih =>
    have ha := a.toNat_lt
    have hb := b.toNat_lt
    have hc := c.toNat_lt
    simp only [List.forall_mem_cons]
    exact ⟨isSymbol_digit (by omega), isSymbol_digit (by omega), isSymbol_digit (by omega),
      isSymbol_digit (by omega), ih⟩

theorem groups?_encode (t : Text) : groups? (encode t) = some t := by
  fun_induction encode t with
  | case1 => rfl
  | case2 a =>
    have ha := a.toNat_lt
    obtain ⟨h₁, -⟩ := value?_digit (n := a.toNat / 4) (by omega)
    obtain ⟨h₂, -⟩ := value?_digit (n := a.toNat % 4 * 16) (by omega)
    simp only [groups?, h₁, h₂, Option.bind_eq_bind, Option.bind_some, Option.pure_def]
    rw [Utf8.ofNat_eq (b := a) (by omega)]
  | case3 a b =>
    have ha := a.toNat_lt
    have hb := b.toNat_lt
    obtain ⟨h₁, -⟩ := value?_digit (n := a.toNat / 4) (by omega)
    obtain ⟨h₂, -⟩ := value?_digit (n := a.toNat % 4 * 16 + b.toNat / 16) (by omega)
    obtain ⟨h₃, hne⟩ := value?_digit (n := b.toNat % 16 * 4) (by omega)
    rw [groups?]
    · simp only [h₁, h₂, h₃, Option.bind_eq_bind, Option.bind_some, Option.pure_def]
      rw [Utf8.ofNat_eq (b := a) (by omega), Utf8.ofNat_eq (b := b) (by omega)]
    · exact hne
  | case4 a b c rest ih =>
    have ha := a.toNat_lt
    have hb := b.toNat_lt
    have hc := c.toNat_lt
    obtain ⟨h₁, -⟩ := value?_digit (n := a.toNat / 4) (by omega)
    obtain ⟨h₂, -⟩ := value?_digit (n := a.toNat % 4 * 16 + b.toNat / 16) (by omega)
    obtain ⟨h₃, -⟩ := value?_digit (n := b.toNat % 16 * 4 + c.toNat / 64) (by omega)
    obtain ⟨h₄, hne⟩ := value?_digit (n := c.toNat % 64) (by omega)
    rw [groups?]
    · simp only [h₁, h₂, h₃, h₄, ih, Option.bind_eq_bind, Option.bind_some, Option.pure_def]
      rw [Utf8.ofNat_eq (b := a) (by omega), Utf8.ofNat_eq (b := b) (by omega),
        Utf8.ofNat_eq (b := c) (by omega)]
    · intro _ hd
      exact absurd hd hne
    · intro hd
      exact absurd hd hne

/-- What symbols are: letters, digits, `+`, `/` and `=`. -/
theorem IsSymbol.toNat {b : UInt8} (h : IsSymbol b) :
    Yaml.IsAscii b.toNat ∧ b ≠ 10 ∧ b ≠ 13 ∧ Yaml.isGap b.toNat = false ∧ b.toNat ≠ 58 ∧
      b.toNat ≠ 35 ∧ Yaml.isAmong "-?:,[]\x7b\x7d#&*!|>'\"%@\x60" b.toNat = false := by
  obtain ⟨n, hn, rfl⟩ := h
  revert n
  decide +kernel

/-- Line breaks between the digits mean nothing. -/
theorem decode?_of_filter {t u : Text} (h : (u.filter fun b => b != 10) = encode t) :
    decode? u = some t := by
  have hfilter : (u.filter fun b => b != 10 && b != 13) = encode t := by
    have hboth : (u.filter fun b => b != 10 && b != 13) =
        (u.filter fun b => b != 10).filter fun b => b != 13 := by
      rw [List.filter_filter]
      exact List.filter_congr fun b _ => Bool.and_comm _ _
    rw [hboth, h, List.filter_eq_self]
    intro b hb
    simpa using (isSymbol_of_mem_encode t b hb).toNat.2.2.1
  rw [decode?, hfilter, groups?_encode]

end Base64

namespace Yaml

theorem filter_inLines {ds : Text} (h : ∀ b ∈ ds, Base64.IsSymbol b) (left : ℕ) :
    ((inLines left ds).filter fun b => b != 10) = ds := by
  induction ds generalizing left with
  | nil => cases left <;> rfl
  | cons b ds ih =>
    rw [List.forall_mem_cons] at h
    have hb : (b != 10) = true := by simpa using h.1.toNat.2.1
    cases left with
    | zero => simp [inLines, hb, ih h.2]
    | succ left => simp [inLines, hb, ih h.2]

theorem mem_inLines {ds : Text} {left : ℕ} {b : UInt8} (h : b ∈ inLines left ds) :
    b ∈ ds ∨ b = 10 := by
  induction ds generalizing left with
  | nil => cases left <;> exact Or.inr (by simpa [inLines] using h)
  | cons d ds ih =>
    cases left with
    | zero =>
      simp only [inLines, List.mem_cons] at h ⊢
      rcases h with h | h | h
      · exact Or.inr h
      · exact Or.inl (Or.inl h)
      · exact (ih h).imp_left Or.inr
    | succ left =>
      simp only [inLines, List.mem_cons] at h ⊢
      rcases h with h | h
      · exact Or.inl (Or.inl h)
      · exact (ih h).imp_left Or.inr

/-! ## Texts as scalars -/

/-- The tokens of a scalar stand for a value. -/
inductive Denotes : List Token → Value → Prop
  | scalar {style : Style} {u : Text} {v : Value} :
      Node.scalarValue? (Reader.untagged style u) u = some v → Denotes [.scalar style u] v
  | binary {style : Style} {u t : Text} :
      Base64.decode? u = some t → Denotes [.tag [33, 33] "binary", .scalar style u] (.text t)

/-- A text of several lines that starts with a blank or a line break, on its own: printed as a block
scalar, in a collection that is indented by `outer` columns, it is read back and nothing is left. -/
def BlockReadsBack (outer margin : ℕ) (t : Text) : Prop :=
  let cs := Utf8.codes t
  (Utf8.isValid t && cs.contains 10 && isBlockPrintable cs && isGap (cs.headD 0)) = true →
    (Block.read false outer (outer + 1)
      (.start (Utf8.codes (printBlock (spaces margin) cs)))).map (fun r => (r.1, r.2.rest)) =
      some (cs, [])

instance (outer margin : ℕ) (t : Text) : Decidable (BlockReadsBack outer margin t) :=
  inferInstanceAs (Decidable (_ → _))

section Scalars

variable {outer margin : ℕ} {t : Text}

/-- The text is read as a scalar that stands for a value, in a collection that is indented by
`outer` columns. -/
def ScalarReads (outer : ℕ) (printed : Text) (v : Value) : Prop :=
  ∃ x us, Spells printed x ∧ Scan.ReadsAs outer x us ∧ Denotes us v

theorem textOf_codes (h : Utf8.isValid t = true) : textOf (Utf8.codes t) = t :=
  (Utf8.codes_and_valid h).1

theorem prints_double (h : Utf8.isValid t = true) :
    ScalarReads outer (doubleQuoted (Utf8.codes t) ++ [10]) (.text t) := by
  have hcodes := (Utf8.codes_and_valid h).2
  refine ⟨_, _, (Quoted.spells_doubleQuoted hcodes).append (Spells.literal [10] rfl),
    Scan.readsAs_quoted (q := .double) (Utf8.codes t) (by simp)
      ⟨⟨rfl, rfl⟩, (by decide : (34 : ℕ) ≠ 35)⟩ ?_ ?_, .scalar ?_⟩
  · intro s y hrest
    exact Scan.token?_double (Cursor.peek_of_rest hrest)
  · intro c y hrest
    exact Quoted.read_doubleQuoted hcodes (by rw [hrest]; simp)
  · rw [textOf_codes h]
    rfl

theorem prints_single (hmargin : 0 < margin) (h : Utf8.isValid t = true)
    (hquotable : isSingleQuotable (Utf8.codes t) = true) (hline : 10 ∉ Utf8.codes t) :
    ScalarReads outer (singleQuoted (spaces margin) (Utf8.codes t) ++ [10]) (.text t) := by
  have hlegible : ∀ n ∈ Utf8.codes t, IsLegible n := by
    intro n hn
    simp only [isSingleQuotable, Bool.and_eq_true, List.all_eq_true] at hquotable
    exact isLegible_of_isPrinted ((Utf8.codes_and_valid h).2 n hn) (hquotable.1.1 n hn)
  refine ⟨_, _, (spells_singleQuoted hlegible).append (Spells.literal [10] rfl),
    Scan.readsAs_quoted (q := .single) (Utf8.codes t) (by simp)
      ⟨⟨rfl, rfl⟩, (by decide : (39 : ℕ) ≠ 35)⟩ ?_ ?_, .scalar ?_⟩
  · intro s y hrest
    exact Scan.token?_single (Cursor.peek_of_rest hrest)
  · intro c y hrest
    exact Quoted.read_singleQuoted hmargin (isSingle_of_isSingleQuotable hquotable hline)
      (by rw [hrest]; simp) (by decide : (10 : ℕ) ≠ 39)
  · rw [textOf_codes h]
    rfl

theorem startsPlain_of_isPlainPrintable {cs : List ℕ} (h : isPlainPrintable cs = true)
    (hne : cs ≠ []) : Scan.StartsPlain (cs.headD 0) (cs.getD 1 10) := by
  have htail := isTail_of_isPlainPrintable h hne
  obtain ⟨n, cs, rfl⟩ := List.exists_cons_of_ne_nil hne
  have hgap : isGap n = false := (htail.chars n (by simp)).resolve_left
    (by simpa using htail.head_ne_space)
  simp only [isPlainPrintable, hasMeaning, Bool.and_eq_true, Bool.not_eq_true',
    Bool.or_eq_false_iff] at h
  obtain ⟨-, ⟨⟨⟨-, -⟩, hmark⟩, hdash⟩, -⟩ := h
  refine ⟨hgap, ?_⟩
  by_cases hamong : isAmong "?:-" n = true
  · right
    have hcases : n = 45 ∨ n = 63 ∨ n = 58 := by
      have hmarks : 63 = n ∨ 58 = n ∨ 45 = n := by simpa [isAmong] using hamong
      omega
    refine ⟨hcases, ?_⟩
    cases cs with
    | nil => simp [hamong] at hdash
    | cons m cs =>
      refine (htail.chars m (by simp)).resolve_left ?_
      rintro rfl
      simp [hamong] at hdash
  · left
    simp [isAmong] at hamong hmark ⊢
    omega

theorem scalarReads_plain {word : Text} {cs : List ℕ} {v : Value} (hspells : Spells word cs)
    (hplain : isPlainPrintable cs = true) (hne : cs ≠ [])
    (hvalue : Node.scalarValue? (Reader.untagged .plain word) word = some v) :
    ScalarReads outer (word ++ [10]) v := by
  refine ⟨_, _, hspells.append (Spells.literal [10] rfl),
    Scan.readsAs_plain (isTail_of_isPlainPrintable hplain hne)
      (startsPlain_of_isPlainPrintable hplain hne), .scalar ?_⟩
  rwa [← hspells.1]

theorem prints_plain (h : Utf8.isValid t = true) (hplain : isPlainPrintable (Utf8.codes t) = true)
    (htext : isPlainText t = true) : ScalarReads outer (t ++ [10]) (.text t) := by
  have hne : Utf8.codes t ≠ [] := by
    intro hnil
    have ht := textOf_codes h
    rw [hnil] at ht
    subst ht
    exact absurd htext (by decide)
  have hlegible : ∀ n ∈ Utf8.codes t, IsLegible n := by
    intro n hn
    simp only [isPlainPrintable, Bool.and_eq_true, List.all_eq_true] at hplain
    exact isLegible_of_isPrinted ((Utf8.codes_and_valid h).2 n hn) (hplain.1 n hn).1
  refine scalarReads_plain (Spells.codes h hlegible) hplain hne ?_
  rw [Reader.untagged]
  by_cases hmerge : t = Text.ofString "<<"
  · rw [hmerge]
    rfl
  · simp [hmerge, Node.scalarValue?, resolve_of_isPlainText htext]

theorem isLegible_of_not_isSpecial {n : ℕ} (hcode : Utf8.IsCode n) (h : isSpecial n = false) :
    IsLegible n := by
  by_cases htab : n = 9
  · rw [htab]
    exact ⟨htab ▸ hcode, by decide, by decide⟩
  · refine isLegible_of_isPrinted hcode ?_
    simpa [isSpecial, htab] using h

/-- A block scalar that does not start with a blank or a line break. -/
theorem readsAs_printed (hmargin : outer < margin) {cs : List ℕ}
    (hspecial : ∀ n ∈ cs, isSpecial n = false) (hhead : ∃ n, cs.head? = some n ∧ isGap n = false) :
    Scan.ReadsAs outer (Block.printed margin cs) [.scalar .block (textOf cs)] :=
  Scan.readsAs_block rfl fun hr hk hrest =>
    Block.read_printed hmargin hk hr hspecial hhead hrest

theorem prints_block (hmargin : outer < margin) (h : Utf8.isValid t = true)
    (hfeed : (Utf8.codes t).contains 10 = true) (hblock : isBlockPrintable (Utf8.codes t) = true)
    (hback : BlockReadsBack outer margin t) :
    ScalarReads outer (printBlock (spaces margin) (Utf8.codes t)) (.text t) := by
  have hne : Utf8.codes t ≠ [] := by
    intro hnil
    rw [hnil] at hfeed
    cases hfeed
  have hspecial : ∀ n ∈ Utf8.codes t, isSpecial n = false := by
    simp only [isBlockPrintable, Bool.and_eq_true, Bool.not_eq_true', List.any_eq_false] at hblock
    simpa using hblock.1.1
  have hlegible : ∀ n ∈ Utf8.codes t, IsLegible n := fun n hn =>
    isLegible_of_not_isSpecial ((Utf8.codes_and_valid h).2 n hn) (hspecial n hn)
  have hspells := Block.spells_printBlock margin hlegible hne
  refine ⟨_, [.scalar .block (textOf (Utf8.codes t))], hspells, ?_, .scalar ?_⟩
  · by_cases hgap : isGap ((Utf8.codes t).headD 0) = true
    · -- the scalar is read alike on its own and in front of the next row
      have halone := hback (by rw [h, hfeed, hblock, hgap]; rfl)
      rw [hspells.codes_eq, Option.map_eq_some_iff] at halone
      obtain ⟨⟨cs, c'⟩, hread, heq⟩ := halone
      obtain ⟨rfl, hend⟩ := Prod.mk.inj heq
      refine Scan.readsAs_block rfl fun {k r c} hr hk hrest => ?_
      refine Block.read_beside (a := c.column) hr hk ⟨hrest, ?_, ?_⟩ rfl hread hend
      · exact (Nat.zero_add _).symm
      · exact Block.getLast?_printed margin _
    · refine readsAs_printed hmargin hspecial ?_
      obtain ⟨n, cs, hcons⟩ := List.exists_cons_of_ne_nil hne
      rw [hcons] at hgap ⊢
      exact ⟨n, rfl, by simpa using hgap⟩
  · rw [textOf_codes h]
    rfl

theorem isTail_of_symbols {ds : Text} (hne : ds ≠ []) (h : ∀ b ∈ ds, Base64.IsSymbol b) :
    Plain.IsTail (ds.map UInt8.toNat) ∧
      Scan.StartsPlain ((ds.map UInt8.toNat).headD 0) ((ds.map UInt8.toNat).getD 1 10) := by
  have hchars : ∀ n ∈ ds.map UInt8.toNat, isGap n = false ∧ n ≠ 58 ∧ n ≠ 35 := by
    intro n hn
    obtain ⟨b, hb, rfl⟩ := List.mem_map.mp hn
    obtain ⟨-, -, -, hgap, hcolon, hcomment, -⟩ := (h b hb).toNat
    exact ⟨hgap, hcolon, hcomment⟩
  have hspace : 32 ∉ ds.map UInt8.toNat := fun hmem => by cases (hchars 32 hmem).1
  have hstructure : ∀ (cs : List ℕ) (b : ℕ), (∀ n ∈ cs, n ≠ 58 ∧ n ≠ 35) →
      hasStructure b cs = false := by
    intro cs
    induction cs with
    | nil => exact fun _ _ => rfl
    | cons n cs ih =>
      intro b hcs
      rw [List.forall_mem_cons] at hcs
      simp [hasStructure, hcs.1.1, hcs.1.2, ih n hcs.2]
  refine ⟨⟨by simpa using hne, fun n hn => Or.inr (hchars n hn).1, ?_, ?_, ?_, 0,
    hstructure _ _ fun n hn => (hchars n hn).2⟩, ?_⟩
  · exact fun hhead => hspace (List.mem_of_head? hhead)
  · exact fun hhead => (hchars 35 (List.mem_of_head? hhead)).2.2 rfl
  · exact fun hlast => hspace (List.mem_of_getLast? hlast)
  · obtain ⟨b, ds, rfl⟩ := List.exists_cons_of_ne_nil hne
    obtain ⟨-, -, -, hgap, -, -, hmark⟩ := (h b (by simp)).toNat
    exact ⟨hgap, Or.inl hmark⟩

theorem isAscii_inLines {ds : Text} (h : ∀ b ∈ ds, Base64.IsSymbol b) (left : ℕ) :
    ∀ b ∈ inLines left ds, IsAscii b.toNat := by
  intro b hb
  rcases mem_inLines hb with hb | rfl
  · exact (h b hb).toNat.1
  · exact Or.inl rfl

theorem isSpecial_of_isAscii {n : ℕ} (h : IsAscii n) : isSpecial n = false := by
  unfold IsAscii at h
  have hprinted : isPrinted n = true := isPrinted_iff.mpr (by omega)
  simp [isSpecial, hprinted]

/-- The digits in base 64 are one line without quotes, or the lines of a block. -/
theorem printBinary_reads (hmargin : outer < margin) (hne : t ≠ []) :
    ∃ x style u, Spells (printBinary (spaces margin) t) x ∧
      Scan.ReadsAs outer x [.scalar style u] ∧ Base64.decode? u = some t := by
  have hsymbols := Base64.isSymbol_of_mem_encode t
  have hdigits : Base64.encode t ≠ [] := by
    rcases t with _ | ⟨a, _ | ⟨b, _ | ⟨c, t⟩⟩⟩
    · exact absurd rfl hne
    all_goals simp [Base64.encode]
  unfold printBinary
  dsimp only
  split_ifs
  · have hspells : Spells (Base64.encode t) ((Base64.encode t).map UInt8.toNat) :=
      Spells.ascii fun b hb => (hsymbols b hb).toNat.1
    obtain ⟨htail, hstart⟩ := isTail_of_symbols hdigits hsymbols
    refine ⟨_, .plain, _, hspells.append (Spells.literal [10] rfl),
      Scan.readsAs_plain htail hstart, Base64.decode?_of_filter ?_⟩
    rw [← hspells.1, List.filter_eq_self]
    intro b hb
    simpa using (hsymbols b hb).toNat.2.1
  · have hascii := isAscii_inLines hsymbols base64Width
    have hspells := Spells.ascii hascii
    have hspecial : ∀ n ∈ (inLines base64Width (Base64.encode t)).map UInt8.toNat,
        isSpecial n = false := by
      intro n hn
      obtain ⟨b, hb, rfl⟩ := List.mem_map.mp hn
      exact isSpecial_of_isAscii (hascii b hb)
    obtain ⟨b, ds, hcons⟩ := List.exists_cons_of_ne_nil hdigits
    have hhead : ((inLines base64Width (Base64.encode t)).map UInt8.toNat).head? =
        some b.toNat := by
      rw [hcons]
      rfl
    have hgap : isGap b.toNat = false := (hsymbols b (by simp [hcons])).toNat.2.2.2.1
    rw [hspells.codes_eq]
    refine ⟨_, .block, _, Block.spells_printBlock margin hspells.2 ?_,
      readsAs_printed hmargin hspecial ⟨_, hhead, hgap⟩, Base64.decode?_of_filter ?_⟩
    · intro hnil
      rw [hnil] at hhead
      cases hhead
    · rw [← hspells.1, filter_inLines hsymbols]

theorem prints_binary (hmargin : outer < margin) (h : Utf8.isValid t = false) :
    ScalarReads outer ("!!binary " ++ printBinary (spaces margin) t) (.text t) := by
  have hne : t ≠ [] := by
    rintro rfl
    cases h
  obtain ⟨x, style, u, hspells, hreads, hdecode⟩ := printBinary_reads hmargin hne
  have htag : Spells "!!binary " ([33, 33, 98, 105, 110, 97, 114, 121] ++ [32]) :=
    Spells.literal "!!binary " rfl
  refine ⟨_, [.tag [33, 33] "binary", .scalar style u], htag.append hspells, ?_, .binary hdecode⟩
  rw [List.append_assoc]
  exact hreads.tagged

/-- Every text is printed as a scalar that is read as the text. -/
theorem printText_readsAs (hmargin : outer < margin) (hback : BlockReadsBack outer margin t) :
    ScalarReads outer (printText margin t) (.text t) := by
  unfold printText
  by_cases h : Utf8.isValid t = true
  · rw [h]
    dsimp only
    split_ifs with hinvalid hblock hescape hplain hsingle
    · cases hinvalid
    · rw [Bool.and_eq_true] at hblock
      exact prints_block hmargin h hblock.1 hblock.2 hback
    · exact prints_double h
    · simp only [isMistakable, Bool.or_eq_true, Bool.not_eq_true', not_or] at hescape
      exact prints_plain h hplain (by simpa using hescape.2.1.1)
    · simp only [Bool.or_eq_true, not_or] at hescape
      exact prints_single (by omega) h hsingle (by simpa using hescape.1)
    · exact prints_double h
  · rw [Bool.not_eq_true] at h
    rw [h]
    exact prints_binary hmargin h

-- the first line break is lost, since it ends the line of the header
example : ¬BlockReadsBack 0 4 "\nApi" := by decide +kernel

end Scalars

end Yaml

end ImportBlock
