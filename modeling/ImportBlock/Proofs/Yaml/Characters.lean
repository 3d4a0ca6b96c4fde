import ImportBlock.Proofs.NormalForm
import ImportBlock.Yaml.Token
import Mathlib.Data.List.Basic

/-!
# The characters of a document

Decoding a sequence of bytes and encoding the code point gives the sequence back (`encode_code?`),
so a valid text is the text of its code points (`codes_and_valid`). `Spells t cs` says that a text
is written with the characters `cs`, all of which a document may hold; texts that are put together
are spelled piece by piece. A document that starts with an ASCII character is delivered to the
reader as the characters that spell it (`ofText_of_spells`).
-/

namespace ImportBlock

namespace Utf8

/-! ## Code points -/

theorem toNat_of_continuation {b : UInt8} (h : isContinuation b = true) :
    0x80 ≤ b.toNat ∧ b.toNat ≤ 0xBF := by
  simpa [isContinuation, UInt8.le_iff_toNat_le] using h

theorem toNat_of_isSecondOfThree {a b : UInt8} (h : isSecondOfThree a b = true) :
    0x80 ≤ b.toNat ∧ b.toNat ≤ 0xBF ∧ (a.toNat = 0xE0 → 0xA0 ≤ b.toNat) ∧
      (a.toNat = 0xED → b.toNat ≤ 0x9F) := by
  unfold isSecondOfThree at h
  split_ifs at h with hlong hsurrogate
  · subst hlong
    simp [UInt8.le_iff_toNat_le] at h ⊢
    omega
  · subst hsurrogate
    simp [UInt8.le_iff_toNat_le] at h ⊢
    omega
  · obtain ⟨hlow, hhigh⟩ := toNat_of_continuation h
    exact ⟨hlow, hhigh, fun h => absurd (UInt8.toNat_inj.mp h) hlong,
      fun h => absurd (UInt8.toNat_inj.mp h) hsurrogate⟩

theorem toNat_of_isSecondOfFour {a b : UInt8} (h : isSecondOfFour a b = true) :
    0x80 ≤ b.toNat ∧ b.toNat ≤ 0xBF ∧ (a.toNat = 0xF0 → 0x90 ≤ b.toNat) ∧
      (a.toNat = 0xF4 → b.toNat ≤ 0x8F) := by
  unfold isSecondOfFour at h
  split_ifs at h with hlong hlast
  · subst hlong
    simp [UInt8.le_iff_toNat_le] at h ⊢
    omega
  · subst hlast
    simp [UInt8.le_iff_toNat_le] at h ⊢
    omega
  · obtain ⟨hlow, hhigh⟩ := toNat_of_continuation h
    exact ⟨hlow, hhigh, fun h => absurd (UInt8.toNat_inj.mp h) hlong,
      fun h => absurd (UInt8.toNat_inj.mp h) hlast⟩

theorem ofNat_eq {n : ℕ} {b : UInt8} (h : n = b.toNat) : UInt8.ofNat n = b := by
  rw [h, UInt8.ofNat_toNat]

/-- The code points that characters have: all but those of surrogates. -/
def IsScalar (n : ℕ) : Prop := n < 0xD800 ∨ 0xDFFF < n ∧ n ≤ 0x10FFFF

theorem encode_pair? {a b : UInt8} {n : ℕ} (h : pair? a b = some n) :
    encode n = [a, b] ∧ IsScalar n := by
  unfold pair? at h
  split at h
  · next hbytes =>
    simp only [Bool.and_eq_true, decide_eq_true_eq, UInt8.le_iff_toNat_le] at hbytes
    obtain ⟨⟨hlow, hhigh⟩, hb⟩ := hbytes
    have hb := toNat_of_continuation hb
    simp only [Option.some.injEq, payload] at h
    simp only [UInt8.reduceToNat] at hlow hhigh
    unfold encode IsScalar
    rw [if_neg (by omega), if_pos (by omega), ofNat_eq (b := a) (by omega),
      ofNat_eq (b := b) (by omega)]
    exact ⟨rfl, by omega⟩
  · cases h

theorem encode_triple? {a b c : UInt8} {n : ℕ} (h : triple? a b c = some n) :
    encode n = [a, b, c] ∧ IsScalar n := by
  unfold triple? at h
  split at h
  · next hbytes =>
    simp only [Bool.and_eq_true, decide_eq_true_eq, UInt8.le_iff_toNat_le] at hbytes
    obtain ⟨⟨⟨hlow, hhigh⟩, hb⟩, hc⟩ := hbytes
    have hb := toNat_of_isSecondOfThree hb
    have hc := toNat_of_continuation hc
    simp only [Option.some.injEq, payload] at h
    simp only [UInt8.reduceToNat] at hlow hhigh
    unfold encode IsScalar
    rw [if_neg (by omega), if_neg (by omega), if_pos (by omega), ofNat_eq (b := a) (by omega),
      ofNat_eq (b := b) (by omega), ofNat_eq (b := c) (by omega)]
    exact ⟨rfl, by omega⟩
  · cases h

theorem encode_quad? {a b c d : UInt8} {n : ℕ} (h : quad? a b c d = some n) :
    encode n = [a, b, c, d] ∧ IsScalar n := by
  unfold quad? at h
  split at h
  · next hbytes =>
    simp only [Bool.and_eq_true, decide_eq_true_eq, UInt8.le_iff_toNat_le] at hbytes
    obtain ⟨⟨⟨⟨hlow, hhigh⟩, hb⟩, hc⟩, hd⟩ := hbytes
    have hb := toNat_of_isSecondOfFour hb
    have hc := toNat_of_continuation hc
    have hd := toNat_of_continuation hd
    simp only [Option.some.injEq, payload] at h
    simp only [UInt8.reduceToNat] at hlow hhigh
    unfold encode IsScalar
    rw [if_neg (by omega), if_neg (by omega), if_neg (by omega), ofNat_eq (b := a) (by omega),
      ofNat_eq (b := b) (by omega), ofNat_eq (b := c) (by omega), ofNat_eq (b := d) (by omega)]
    exact ⟨rfl, by omega⟩
  · cases h

theorem encode_code? {s : Text} {n : ℕ} (h : code? s = some n) : encode n = s ∧ IsScalar n := by
  unfold code? at h
  split at h
  · exact encode_pair? h
  · exact encode_triple? h
  · exact encode_quad? h
  · cases h

/-- The code point is one of a character, and decoding undoes its encoding, whatever follows. -/
def IsCode (n : ℕ) : Prop :=
  IsScalar n ∧ ∀ rest, decode (encode n ++ rest) = ⟨encode n, some n⟩ :: decode rest

theorem isCode_of_code? {s : Text} {n : ℕ} (h : code? s = some n) : IsCode n := by
  obtain ⟨hencode, hscalar⟩ := encode_code? h
  refine ⟨hscalar, fun rest => ?_⟩
  rw [hencode]
  exact decode_code? h rest

theorem encode_of_lt {n : ℕ} (h : n < 0x80) : encode n = [UInt8.ofNat n] := if_pos h

theorem toNat_ofNat {n : ℕ} (h : n < 0x80) : (UInt8.ofNat n).toNat = n := by
  rw [UInt8.toNat_ofNat']
  omega

theorem ofNat_lt {n : ℕ} (h : n < 0x80) : UInt8.ofNat n < 0x80 := by
  rw [UInt8.lt_iff_toNat_lt, toNat_ofNat h]
  exact h

theorem isCode_of_lt {n : ℕ} (h : n < 0x80) : IsCode n := by
  refine ⟨Or.inl (by omega), fun rest => ?_⟩
  rw [encode_of_lt h, List.singleton_append, decode_ascii_cons (ofNat_lt h), single,
    if_pos (ofNat_lt h), toNat_ofNat h]

/-! ## Texts as characters -/

theorem codes_and_valid {t : Text} (h : isValid t = true) :
    (codes t).flatMap encode = t ∧ ∀ n ∈ codes t, IsCode n := by
  induction t using glyph_induction with
  | nil => simp [codes, decode]
  | sequence a w n v hn ih =>
    unfold isValid at h ih
    unfold codes at ih ⊢
    rw [decode_code? hn] at h ⊢
    rw [List.all_cons, Bool.and_eq_true] at h
    obtain ⟨hbytes, hcodes⟩ := ih h.2
    rw [List.map_cons, List.flatMap_cons, hbytes, Option.getD_some, (encode_code? hn).1]
    exact ⟨rfl, List.forall_mem_cons.mpr ⟨isCode_of_code? hn, hcodes⟩⟩
  | byte a u hu ih =>
    unfold isValid at h ih
    unfold codes at ih ⊢
    rw [decode_cons hu] at h ⊢
    rw [List.all_cons, Bool.and_eq_true] at h
    obtain ⟨hbytes, hcodes⟩ := ih h.2
    have hascii : a < 0x80 := by
      by_contra hlarge
      simp [single, hlarge] at h
    have hlow : a.toNat < 0x80 := UInt8.lt_iff_toNat_lt.mp hascii
    rw [List.map_cons, List.flatMap_cons, hbytes, single, if_pos hascii, Option.getD_some,
      encode_of_lt hlow, UInt8.ofNat_toNat]
    exact ⟨rfl, List.forall_mem_cons.mpr ⟨isCode_of_lt hlow, hcodes⟩⟩

end Utf8

namespace Yaml

/-- A character that documents may hold, other than a byte order mark. -/
def IsLegible (n : ℕ) : Prop := Utf8.IsCode n ∧ isAllowed n = true ∧ n ≠ 0xFEFF

/-- A line feed or a printable ASCII character. -/
def IsAscii (n : ℕ) : Prop := n = 10 ∨ 0x20 ≤ n ∧ n ≤ 0x7E

instance (n : ℕ) : Decidable (IsAscii n) := inferInstanceAs (Decidable (_ ∨ _))

theorem IsAscii.lt {n : ℕ} (h : IsAscii n) : n < 0x80 := by
  unfold IsAscii at h
  omega

theorem IsAscii.isLegible {n : ℕ} (h : IsAscii n) : IsLegible n := by
  refine ⟨Utf8.isCode_of_lt h.lt, ?_, by have := h.lt; omega⟩
  unfold IsAscii at h
  simp only [isAllowed, Bool.or_eq_true, Bool.and_eq_true, beq_iff_eq, decide_eq_true_eq]
  omega

-- a test over the bytes, since it can be evaluated whatever can be decided of all bytes
theorem isAscii_of_all {t : Text} (h : (t.all fun b => decide (IsAscii b.toNat)) = true) :
    ∀ b ∈ t, IsAscii b.toNat := by
  simpa using h

/-- The text is written with the characters. -/
def Spells (t : Text) (cs : List ℕ) : Prop := t = textOf cs ∧ ∀ n ∈ cs, IsLegible n

namespace Spells

variable {t u : Text} {cs ds : List ℕ}

theorem nil : Spells [] [] := ⟨rfl, by simp⟩

theorem append (h : Spells t cs) (h' : Spells u ds) : Spells (t ++ u) (cs ++ ds) := by
  obtain ⟨rfl, hcs⟩ := h
  obtain ⟨rfl, hds⟩ := h'
  exact ⟨by simp [textOf], fun n hn => (List.mem_append.mp hn).elim (hcs n) (hds n)⟩

theorem flatMap {α : Type} {f : α → Text} {g : α → List ℕ} {xs : List α}
    (h : ∀ x ∈ xs, Spells (f x) (g x)) : Spells (xs.flatMap f) (xs.flatMap g) := by
  induction xs with
  | nil => exact nil
  | cons x xs ih =>
    rw [List.forall_mem_cons] at h
    exact append h.1 (ih h.2)

theorem encode {n : ℕ} (h : IsLegible n) : Spells (Utf8.encode n) [n] :=
  ⟨by simp [textOf], by simpa using h⟩

theorem codes (h : Utf8.isValid t = true) (hall : ∀ n ∈ Utf8.codes t, IsLegible n) :
    Spells t (Utf8.codes t) :=
  ⟨(Utf8.codes_and_valid h).1.symm, hall⟩

theorem ascii (h : ∀ b ∈ t, IsAscii b.toNat) : Spells t (t.map UInt8.toNat) := by
  induction t with
  | nil => exact nil
  | cons b t ih =>
    rw [List.forall_mem_cons] at h
    have hbyte := encode h.1.isLegible
    rw [Utf8.encode_of_lt h.1.lt, UInt8.ofNat_toNat] at hbyte
    exact append hbyte (ih h.2)

theorem literal (t : Text) (h : (t.all fun b => decide (IsAscii b.toNat)) = true) :
    Spells t (t.map UInt8.toNat) :=
  ascii (isAscii_of_all h)

theorem decode (h : Spells t cs) :
    Utf8.decode t = cs.map fun n => ⟨Utf8.encode n, some n⟩ := by
  obtain ⟨rfl, hcs⟩ := h
  induction cs with
  | nil => rfl
  | cons n cs ih =>
    rw [List.forall_mem_cons] at hcs
    show Utf8.decode (Utf8.encode n ++ textOf cs) = _
    rw [hcs.1.1.2, ih hcs.2, List.map_cons]

end Spells

namespace Stream

theorem pieces8_of_codes (cs : List ℕ) (left : ℕ) :
    (pieces8 left (cs.map fun n => ⟨Utf8.encode n, some n⟩)).map Piece.code =
      cs.map fun n => if isAllowed n then some n else none := by
  induction cs generalizing left with
  | nil => rfl
  | cons n cs ih =>
    show (Piece.ofCode _ n :: pieces8 _ _).map Piece.code = _
    rw [List.map_cons, ih, List.map_cons]
    rfl

theorem deliver_of_codes {ps : List Piece} {cs : List ℕ} (h : ps.map Piece.code = cs.map some)
    (used : ℕ) (held : List ℕ) :
    (deliver used held ps).characters = held.reverse ++ cs ∧
      (deliver used held ps).isBroken = false := by
  induction ps generalizing cs used held with
  | nil =>
    obtain rfl : cs = [] := by simpa using h.symm
    simp [deliver, characters]
  | cons p ps ih =>
    obtain ⟨n, cs, rfl⟩ : ∃ n ns, cs = n :: ns := by
      cases cs with
      | nil => simp at h
      | cons n ns => exact ⟨n, ns, rfl⟩
    rw [List.map_cons, List.map_cons, List.cons.injEq] at h
    rw [deliver, h.1]
    dsimp only
    split_ifs
    · obtain ⟨hchars, hbroken⟩ := ih h.2 (used + p.width) (n :: held)
      exact ⟨by simp [hchars], hbroken⟩
    · obtain ⟨hchars, hbroken⟩ := ih h.2 p.width [n]
      refine ⟨?_, hbroken⟩
      show held.reverse ++ (deliver p.width [n] ps).characters = _
      rw [hchars]
      rfl

theorem markReach_eq_zero {s : Stream} (h : 0xFEFF ∉ s.characters) : s.markReach = 0 := by
  unfold markReach
  split
  · next cs _ hblocks =>
    refine absurd ?_ h
    rw [characters, hblocks]
    simp
  · rfl

theorem ofText_ascii_cons {b : UInt8} (h : b < 0x80) (rest : Text) :
    ofText (b :: rest) = deliver 0 [] (pieces8 (b :: rest).length (Utf8.decode (b :: rest))) := by
  unfold ofText
  split
  · next hmark =>
    rw [(List.cons.inj hmark).1] at h
    exact absurd h (by decide)
  · next hmark =>
    rw [(List.cons.inj hmark).1] at h
    exact absurd h (by decide)
  · next hmark =>
    rw [(List.cons.inj hmark).1] at h
    exact absurd h (by decide)
  · rfl

/-- A text of characters that documents may hold is delivered as these characters. -/
theorem ofText_of_spells {t : Text} {n : ℕ} {cs : List ℕ} (h : Spells t (n :: cs))
    (hfirst : n < 0x80) :
    (ofText t).characters = n :: cs ∧ (ofText t).isBroken = false ∧ (ofText t).markReach = 0 := by
  have hbytes : ofText t = deliver 0 [] (pieces8 t.length (Utf8.decode t)) := by
    have ht : t = UInt8.ofNat n :: textOf cs := by
      rw [h.1, textOf, List.flatMap_cons, Utf8.encode_of_lt hfirst]
      rfl
    rw [ht]
    exact ofText_ascii_cons (Utf8.ofNat_lt hfirst) _
  have hcodes := pieces8_of_codes (n :: cs) t.length
  rw [List.map_congr_left (g := some) fun m hm => if_pos (h.2 m hm).2.1] at hcodes
  obtain ⟨hchars, hbroken⟩ := deliver_of_codes hcodes 0 []
  rw [hbytes, h.decode]
  refine ⟨hchars, hbroken, markReach_eq_zero ?_⟩
  rw [hchars]
  exact fun hmem => (h.2 _ hmem).2.2 rfl

end Stream

end Yaml

end ImportBlock
