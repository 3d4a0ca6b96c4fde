import ImportBlock.Proofs.Yaml.Characters
import ImportBlock.Proofs.Yaml.PlainScalars
import ImportBlock.Yaml.Node
import Mathlib.Algebra.Group.Nat.Defs

/-!
# Scalars between quotes

Between double quotes each character is written as itself or as an escape that stands for it
(`Quoted.Stands`), so the words and spaces of the text are read up to the closing quote
(`Quoted.read_doubleQuoted`). Between single quotes the text may have several lines, each with a
margin in front (`lineChars`), and the gaps in it are spaces within a line or separators of lines,
never both (`Quoted.IsSingle`); it is read back as well (`Quoted.read_singleQuoted`).
-/

namespace ImportBlock.Yaml

/-! ## Characters of printed scalars -/

theorem isLegible_of_isPrinted {n : ℕ} (hcode : Utf8.IsCode n) (h : isPrinted n = true) :
    IsLegible n := by
  have hscalar := hcode.1
  unfold Utf8.IsScalar at hscalar
  rw [isPrinted_iff] at h
  refine ⟨hcode, ?_, by omega⟩
  simp only [isAllowed, Bool.or_eq_true, Bool.and_eq_true, beq_iff_eq, decide_eq_true_eq]
  omega

theorem Spells.codes_eq {t : Text} {cs : List ℕ} (h : Spells t cs) : Utf8.codes t = cs := by
  rw [Utf8.codes, h.decode, List.map_map]
  simp [Function.comp_def]

theorem spells_spaces (k : ℕ) : Spells (spaces k) (List.replicate k 32) := by
  have h := Spells.ascii (t := spaces k) (by simp [spaces, IsAscii])
  simpa [spaces] using h

theorem length_le_flatMap {E : ℕ → List ℕ} {cs : List ℕ} (h : ∀ n ∈ cs, E n ≠ []) :
    cs.length ≤ (cs.flatMap E).length := by
  induction cs with
  | nil => simp
  | cons n cs ih =>
    rw [List.forall_mem_cons] at h
    have hpos := List.length_pos_iff.mpr h.1
    have htail := ih h.2
    rw [List.flatMap_cons, List.length_append, List.length_cons]
    omega

namespace Quoted

/-! ## Escapes -/

theorem doubleWord_skip (e r : List ℕ) :
    doubleWord e.length (e ++ r) = (doubleWord 0 r).map fun x => (x.1, x.2 + e.length) := by
  induction e with
  | nil => simp
  | cons n e ih =>
    rw [List.length_cons, List.cons_append, doubleWord, ih, Option.map_map]
    rfl

/-- The characters stand for one character between double quotes. -/
structure Stands (e : List ℕ) (n : ℕ) : Prop where
  fresh : ∀ r, Fresh (e ++ r)
  word : ∀ r, doubleWord 0 (e ++ r) =
    (doubleWord 0 r).map fun x => (n :: x.1, x.2 + e.length)

theorem stands_self {n : ℕ} (hgap : isGap n = false) (hquote : n ≠ 34) (hescape : n ≠ 92) :
    Stands [n] n where
  fresh r := fresh_of_isGap hgap r
  word r := by
    have hquote' : (n == 34) = false := by simpa using hquote
    have hescape' : (n == 92) = false := by simpa using hescape
    rw [List.singleton_append, doubleWord, hgap, hquote', hescape']
    simp

theorem stands_escape {e : List ℕ} {n : ℕ} (hbreak : isBreak (e.headD 0) = false) (hne : e ≠ [])
    (h : ∀ r, escape? (e ++ r) = some (n, e.length)) : Stands (92 :: e) n where
  fresh r := ⟨rfl, rfl⟩
  word r := by
    have hbreak' : isBreak ((e ++ r).headD 0) = false := by
      cases e with
      | nil => exact absurd rfl hne
      | cons m e => exact hbreak
    have hgap : isGap 92 = false := rfl
    rw [List.cons_append, doubleWord, hgap, hbreak', h]
    simp [doubleWord_skip, Option.map_map, Function.comp_def, Nat.add_assoc]

theorem hexDigit?_hexDigit {m : ℕ} (h : m < 16) :
    hexDigit? (Text.hexDigit .upper m).toNat = some m := by
  revert m
  decide

theorem hexValue?_hex {width n : ℕ} (h : n < 16 ^ width) :
    hexValue? ((Text.hex .upper width n).map UInt8.toNat) = some n := by
  induction width generalizing n with
  | zero =>
    obtain rfl : n = 0 := by simpa using h
    rfl
  | succ width ih =>
    have hlow : n % 16 < 16 := Nat.mod_lt n (by decide)
    have hhigh : n / 16 < 16 ^ width := by
      rw [Nat.div_lt_iff_lt_mul (by decide), ← Nat.pow_succ]
      exact h
    have hsum : n / 16 * 16 + n % 16 = n := by omega
    have hfirst := ih hhigh
    unfold hexValue? at hfirst ⊢
    rw [Text.hex, List.map_append, List.foldlM_append, hfirst]
    simp [hexDigit?_hexDigit hlow, hsum]

theorem length_hex (width n : ℕ) : (Text.hex .upper width n).length = width := by
  induction width generalizing n with
  | zero => rfl
  | succ width ih => rw [Text.hex, List.length_append, ih, List.length_singleton]

/-- A numeric escape stands for the number of its digits. -/
theorem stands_hex (letter : ℕ) {width n : ℕ} (hletter : escaped? letter = none)
    (hcount : digitCount? letter = some width) (hbreak : isBreak letter = false)
    (hn : n < 16 ^ width) (hscalar : Utf8.IsScalar n) :
    Stands (92 :: letter :: (Text.hex .upper width n).map UInt8.toNat) n := by
  refine stands_escape (e := letter :: _) hbreak (by simp) fun r => ?_
  have htake : ((Text.hex .upper width n).map UInt8.toNat ++ r).take width =
      (Text.hex .upper width n).map UInt8.toNat := by
    apply List.take_left'
    rw [List.length_map, length_hex]
  have hvalue : isScalarValue n = true := by
    simpa [isScalarValue, Utf8.IsScalar] using hscalar
  rw [List.cons_append, escape?, hletter, hcount]
  simp only [htake, List.length_map, length_hex, Nat.lt_irrefl, if_false, hexValue?_hex hn]
  simp [hvalue, length_hex]

theorem stands_escapeText {n : ℕ} (h : Utf8.IsScalar n) :
    Stands ((escapeText n).map UInt8.toNat) n := by
  have hletter : ∀ m l, escaped? l = some m → isBreak l = false → Stands [92, l] m := by
    intro m l hl hbreak
    refine stands_escape (e := [l]) hbreak (by simp) fun r => ?_
    rw [List.singleton_append, escape?, hl]
    rfl
  unfold escapeText
  split
  · next letter hsome =>
    unfold escapeLetter? at hsome
    split at hsome <;> cases hsome <;> exact hletter _ _ rfl rfl
  · split_ifs with hsmall hmedium
    · exact stands_hex 120 rfl rfl rfl (by simpa using hsmall) h
    · exact stands_hex 117 rfl rfl rfl (by simpa using hmedium) h
    · refine stands_hex 85 rfl rfl rfl ?_ h
      unfold Utf8.IsScalar at h
      omega

/-! ## Between double quotes -/

theorem doubleWord_eq {E : ℕ → List ℕ} {w r : List ℕ} (hw : ∀ n ∈ w, Stands (E n) n)
    (hr : isGap (r.headD 0) = true ∨ r.headD 0 = 34) :
    doubleWord 0 (w.flatMap E ++ r) = some (w, (w.flatMap E).length) := by
  induction w with
  | nil =>
    rcases r with _ | ⟨n, r⟩
    · rfl
    · rw [List.flatMap_nil, List.nil_append, doubleWord, if_pos (by simpa using hr)]
      rfl
  | cons n w ih =>
    rw [List.forall_mem_cons] at hw
    rw [List.flatMap_cons, List.append_assoc, hw.1.word, ih hw.2]
    simp [Nat.add_comm]

section Step

variable {q : Quote} {fuel width : ℕ} {w text : List ℕ} {c : Cursor}
  (hmark : c.isDocumentMark = false) (hne : c.rest ≠ []) (hword : word q c.rest = some (w, width))

include hmark hne hword

theorem readFrom_quote (hquote : (c.skip width).peek = q.character) :
    readFrom q (fuel + 1) text c = some (text ++ w, (c.skip width).skip 1) := by
  have hsome : c.rest.isEmpty = false := by simpa using hne
  rw [readFrom, hmark, hsome, hword]
  simp [hquote]

theorem readFrom_gap {g : Gap} {c' : Cursor} (hquote : (c.skip width).peek ≠ q.character)
    (hescape : (c.skip width).peek ≠ 92)
    (hgap : Gap.read 0 .empty (c.skip width) = some (g, c')) :
    readFrom q (fuel + 1) text c = readFrom q fuel (text ++ w ++ g.characters) c' := by
  have hsome : c.rest.isEmpty = false := by simpa using hne
  rw [readFrom, hmark, hsome, hword]
  simp [hquote, hescape, hgap]

end Step

/-- What stands between double quotes starts with a word and the spaces behind it. -/
theorem exists_doubleWord {E : ℕ → List ℕ} {cs : List ℕ}
    (hE : ∀ n ∈ cs, (n = 32 ∧ E n = [32]) ∨ Stands (E n) n) :
    ∃ w j cs', cs = w ++ (List.replicate j 32 ++ cs') ∧ (∀ n ∈ w, Stands (E n) n) ∧
      (List.replicate j 32).flatMap E = List.replicate j 32 ∧
      (∀ r, Fresh (cs'.flatMap E ++ 34 :: r)) ∧ (j = 0 → cs' = []) := by
  obtain ⟨w, s, cs', rfl, hword, hspaces, hhead, hs⟩ := exists_stretch (E · == [32]) cs
  have hstands : ∀ n ∈ w ++ (s ++ cs'), (E n == [32]) = false → Stands (E n) n := by
    intro n hn hraw
    exact (hE n hn).resolve_left (by simp_all)
  have hstay : ∀ n ∈ s, n = 32 ∧ E n = [n] := by
    intro n hn
    have hraw : E n = [32] := by simpa using hspaces n hn
    rcases hE n (by simp [hn]) with ⟨rfl, -⟩ | hstands
    · exact ⟨rfl, hraw⟩
    · have := (hstands.fresh []).1
      simp [hraw, isBlank] at this
  have hflat : s.flatMap E = s := by
    rw [List.flatMap_congr fun n hn => (hstay n hn).2]
    exact List.flatMap_singleton' s
  obtain ⟨j, rfl⟩ : ∃ j, s = List.replicate j 32 :=
    ⟨_, List.eq_replicate_iff.mpr ⟨rfl, fun n hn => (hstay n hn).1⟩⟩
  refine ⟨w, j, cs', rfl, fun n hn => hstands n (by simp [hn]) (hword n hn), hflat, fun r => ?_,
    fun hj => hs (by rw [hj]; rfl)⟩
  cases cs' with
  | nil => exact ⟨rfl, rfl⟩
  | cons n cs' =>
    rw [List.flatMap_cons, List.append_assoc]
    exact (hstands n (by simp) (hhead n rfl)).fresh _

/-- Between double quotes, words and spaces are read up to the closing quote. -/
theorem readFrom_double {E : ℕ → List ℕ} (fuel : ℕ) (text : List ℕ) {cs r : List ℕ} {c : Cursor}
    (hfuel : cs.length < fuel) (hE : ∀ n ∈ cs, (n = 32 ∧ E n = [32]) ∨ Stands (E n) n)
    (hrest : c.rest = cs.flatMap E ++ 34 :: r) (hmark : c.isDocumentMark = false) :
    ∃ c', readFrom .double fuel text c = some (text ++ cs, c') ∧ c'.rest = r := by
  induction fuel generalizing cs text c with
  | zero => omega
  | succ fuel ih =>
    have hne : c.rest ≠ [] := by simp [hrest]
    obtain ⟨w, j, cs', rfl, hw, hflat, hfresh, hs⟩ := exists_doubleWord hE
    rw [List.flatMap_append, List.flatMap_append, hflat, List.append_assoc, List.append_assoc]
      at hrest
    have hafter := Cursor.rest_skip_of hrest
    have hpeek := Cursor.peek_of_rest hafter
    rcases j with _ | j
    · -- the closing quote follows
      obtain rfl := hs rfl
      have hread : word .double c.rest = some (w, (w.flatMap E).length) := by
        rw [hrest]
        exact doubleWord_eq hw (Or.inr rfl)
      rw [readFrom_quote hmark hne hread hpeek]
      refine ⟨_, by simp, Cursor.rest_skip_of (w := [34]) hafter⟩
    · -- the spaces lead to the next word
      have hread : word .double c.rest = some (w, (w.flatMap E).length) := by
        rw [hrest]
        exact doubleWord_eq hw (Or.inl rfl)
      have hpeek' : (c.skip (w.flatMap E).length).peek = 32 := hpeek
      rw [readFrom_gap hmark hne hread (by rw [hpeek']; decide) (by rw [hpeek']; decide)
        (Gap.read_spaces _ hafter (hfresh r))]
      have hfuel' : cs'.length < fuel := by
        simp only [List.length_append, List.length_replicate] at hfuel
        omega
      obtain ⟨c', hread', hc'⟩ := ih (text ++ w ++ List.replicate (j + 1) 32) hfuel'
        (fun n hn => hE n (by simp [hn])) (Cursor.rest_skip_spaces hafter)
        (Cursor.isDocumentMark_of_column (Nat.succ_pos _))
      refine ⟨c', ?_, hc'⟩
      rw [Gap.characters, hread']
      simp

theorem isAscii_hex (width n : ℕ) : ∀ b ∈ Text.hex .upper width n, IsAscii b.toNat := by
  have hdigit : ∀ m < 16, IsAscii (Text.hexDigit .upper m).toNat := by decide
  induction width generalizing n with
  | zero => simp [Text.hex]
  | succ width ih =>
    intro b hb
    rw [Text.hex, List.mem_append, List.mem_singleton] at hb
    rcases hb with hb | rfl
    · exact ih _ b hb
    · exact hdigit _ (Nat.mod_lt n (by decide))

theorem isAscii_escapeText (n : ℕ) : ∀ b ∈ escapeText n, IsAscii b.toNat := by
  unfold escapeText
  split
  · next letter hsome =>
    unfold escapeLetter? at hsome
    split at hsome <;> cases hsome <;> exact isAscii_of_all rfl
  · split_ifs <;>
    · simp only [List.forall_mem_cons]
      exact ⟨by decide, by decide, isAscii_hex _ n⟩

/-- How a character is written between double quotes, after the first one. -/
def written (first : Option ℕ) (n : ℕ) : List ℕ :=
  if first == some 0xFEFF || !isPrinted n || isBreak n || n == 34 || n == 92 then
    (escapeText n).map UInt8.toNat
  else [n]

theorem spells_written {first : Option ℕ} {n : ℕ} (h : Utf8.IsCode n) :
    Spells ((if first == some 0xFEFF then escapeText else escapedCharacter) n)
      (written first n) := by
  have hescape := Spells.ascii (isAscii_escapeText n)
  unfold written
  cases hfirst : first == some 0xFEFF with
  | true => simpa using hescape
  | false =>
    rw [if_neg Bool.false_ne_true, Bool.false_or, escapedCharacter]
    split_ifs with hneed
    · exact hescape
    · simp only [Bool.or_eq_true, Bool.not_eq_true', not_or] at hneed
      exact Spells.encode (isLegible_of_isPrinted h (by simpa using hneed.1.1.1))

theorem written_spec (first : Option ℕ) {n : ℕ} (h : Utf8.IsCode n) :
    (n = 32 ∧ written first n = [32]) ∨ Stands (written first n) n := by
  unfold written
  split_ifs with hneed
  · exact Or.inr (stands_escapeText h.1)
  · simp only [Bool.or_eq_true, Bool.not_eq_true', not_or, beq_iff_eq] at hneed
    obtain ⟨⟨⟨⟨-, hprinted⟩, hbreak⟩, hquote⟩, hescape⟩ := hneed
    by_cases hspace : n = 32
    · exact Or.inl ⟨hspace, by rw [hspace]⟩
    · have hgap := isGap_of_isPrinted (by simpa using hprinted) (by simpa using hbreak) hspace
      exact Or.inr (stands_self hgap hquote hescape)

theorem spells_doubleQuoted {cs : List ℕ} (h : ∀ n ∈ cs, Utf8.IsCode n) :
    Spells (doubleQuoted cs) (34 :: cs.flatMap (written cs.head?) ++ [34]) := by
  have hquote : Spells [34] [34] := Spells.literal [34] rfl
  exact (hquote.append (Spells.flatMap fun n hn => spells_written (h n hn))).append hquote

/-- A text between double quotes is read as it is. -/
theorem read_doubleQuoted {cs r : List ℕ} (h : ∀ n ∈ cs, Utf8.IsCode n) {c : Cursor}
    (hrest : c.rest = 34 :: cs.flatMap (written cs.head?) ++ 34 :: r) :
    ∃ c', read .double c = some (cs, c') ∧ c'.rest = r := by
  have hlength : cs.length < c.rest.length + 1 := by
    have hne : ∀ n ∈ cs, written cs.head? n ≠ [] := by
      intro n hn
      rcases written_spec cs.head? (h n hn) with ⟨-, heq⟩ | hstands
      · simp [heq]
      · intro hnil
        have := (hstands.fresh [32]).1
        rw [hnil] at this
        cases this
    have hle := length_le_flatMap hne
    rw [hrest]
    simp only [List.cons_append, List.length_cons, List.length_append]
    omega
  exact readFrom_double _ [] hlength (fun n hn => written_spec _ (h n hn))
    (Cursor.rest_skip_of (w := [34]) hrest) (Cursor.isDocumentMark_of_column (Nat.succ_pos _))

end Quoted

/-! ## Separators of lines and paragraphs -/

/-- The line breaks that a text between single quotes may hold. -/
def IsSeparator (n : ℕ) : Prop := n = 0x2028 ∨ n = 0x2029

theorem IsSeparator.isBreak {n : ℕ} (h : IsSeparator n) : isBreak n = true := by
  rcases h with rfl | rfl <;> rfl

namespace Gap

theorem characters_broken {b : ℕ} (h : b ≠ 10) (blanks breaks : List ℕ) :
    (⟨blanks, .broken b, breaks⟩ : Gap).characters = b :: breaks := by
  unfold characters
  split <;> simp_all

theorem readFrom_separators (indent : ℕ) {bs r : List ℕ} (hbs : ∀ n ∈ bs, IsSeparator n)
    {c : Cursor} (h : c.rest = bs ++ r) (fuel : ℕ) (g : Gap) :
    ∃ c', readFrom indent (bs.length + fuel) g c = readFrom indent fuel (bs.foldl addBreak g) c' ∧
      c'.rest = r ∧ c'.column = if bs = [] then c.column else 0 := by
  induction bs generalizing c g with
  | nil => exact ⟨c, by simp, h, rfl⟩
  | cons b bs ih =>
    rw [List.forall_mem_cons] at hbs
    have hpeek : c.peek = b := Cursor.peek_of_rest h
    have hblank : isBlank b = false := by rcases hbs.1 with rfl | rfl <;> rfl
    have hbreak : c.lineBreak = b := by
      rw [Cursor.lineBreak, hpeek]
      rcases hbs.1 with rfl | rfl <;> rfl
    have hnext : c.nextLine.rest = bs ++ r :=
      Cursor.rest_nextLine_of h (by rcases hbs.1 with rfl | rfl <;> decide)
    obtain ⟨c', hread, hrest, hcolumn⟩ := ih hbs.2 hnext (g.addBreak b)
    refine ⟨c', ?_, hrest, hcolumn.trans ?_⟩
    · rw [List.length_cons, Nat.add_right_comm, readFrom, hpeek, hblank, hbs.1.isBreak, hbreak]
      exact hread
    · simp [Cursor.nextLine]

theorem foldl_addBreak (b : ℕ) (bs breaks : List ℕ) :
    bs.foldl addBreak ⟨[], .broken b, breaks⟩ = ⟨[], .broken b, breaks ++ bs⟩ := by
  induction bs generalizing breaks with
  | nil => simp
  | cons n bs ih =>
    rw [List.foldl_cons]
    show bs.foldl addBreak ⟨[], .broken b, breaks ++ [n]⟩ = _
    rw [ih, List.append_assoc, List.singleton_append]

/-- Separators, and spaces in front of the next line. -/
theorem read_separators (indent : ℕ) {b k : ℕ} {bs r : List ℕ} (hb : IsSeparator b)
    (hbs : ∀ n ∈ bs, IsSeparator n) {c : Cursor}
    (h : c.rest = b :: bs ++ (List.replicate k 32 ++ r)) (hr : Fresh r) :
    ∃ g c', read indent .empty c = some (g, c') ∧ g.characters = b :: bs ∧ c'.rest = r ∧
      c'.column = k := by
  have hfuel : c.rest.length = (b :: bs).length + (k + r.length) := by
    rw [h]
    simp only [List.length_append, List.length_replicate]
  obtain ⟨c', hread, hrest, hcolumn⟩ := readFrom_separators indent
    (List.forall_mem_cons.mpr ⟨hb, hbs⟩) h (k + r.length) .empty
  have hgap : (b :: bs).foldl addBreak .empty = ⟨[], .broken b, bs⟩ := foldl_addBreak b bs []
  refine ⟨⟨[], .broken b, bs⟩, c'.skip k, ?_, ?_, Cursor.rest_skip_spaces hrest, ?_⟩
  · rw [read, hfuel, hread, hgap, readFrom_spaces k hrest, addSpaces_of_isBroken rfl,
      readFrom_fresh (Cursor.rest_skip_spaces hrest) hr]
  · exact characters_broken (by rcases hb with rfl | rfl <;> decide) _ _
  · show c'.column + k = k
    simp [hcolumn]

end Gap

/-! ## Lines with a margin -/

/-- Characters with a margin of spaces in front of each line; the flag tells whether a line starts
here. Empty lines have no margin. -/
def lineChars (margin : ℕ) : Bool → List ℕ → List ℕ
  | _, [] => []
  | fresh, n :: rest =>
    if isBreak n then n :: lineChars margin true rest
    else (if fresh then List.replicate margin 32 else []) ++ n :: lineChars margin false rest

section Lines

variable (margin : ℕ)

theorem lineChars_word {w : List ℕ} (hw : ∀ n ∈ w, isBreak n = false) (r : List ℕ) :
    lineChars margin false (w ++ r) = w ++ lineChars margin false r := by
  induction w with
  | nil => rfl
  | cons n w ih =>
    rw [List.forall_mem_cons] at hw
    rw [List.cons_append, lineChars, hw.1, ih hw.2]
    rfl

theorem lineChars_breaks {bs : List ℕ} (hbs : ∀ n ∈ bs, isBreak n = true) (hne : bs ≠ [])
    (fresh : Bool) (r : List ℕ) :
    lineChars margin fresh (bs ++ r) = bs ++ lineChars margin true r := by
  induction bs generalizing fresh with
  | nil => exact absurd rfl hne
  | cons b bs ih =>
    rw [List.forall_mem_cons] at hbs
    rw [List.cons_append, lineChars, if_pos hbs.1]
    by_cases hnil : bs = []
    · simp [hnil]
    · rw [ih hbs.2 hnil]
      rfl

theorem lineChars_fresh {cs : List ℕ} (h : ∀ n ∈ cs.head?, isBreak n = false) :
    lineChars margin true cs =
      List.replicate (if cs = [] then 0 else margin) 32 ++ lineChars margin false cs := by
  cases cs with
  | nil => rfl
  | cons n cs => simp [lineChars, h n rfl]

theorem length_le_lineChars (cs : List ℕ) (fresh : Bool) :
    cs.length ≤ (lineChars margin fresh cs).length := by
  induction cs generalizing fresh with
  | nil => simp
  | cons n cs ih =>
    have htrue := ih true
    have hfalse := ih false
    unfold lineChars
    split_ifs <;> simp <;> omega

end Lines

/-! ## Neighbours -/

theorem hasPair_append {p q : ℕ → Bool} {a b : List ℕ} (h : hasPair p q (a ++ b) = false) :
    hasPair p q a = false ∧ hasPair p q b = false := by
  induction a with
  | nil => exact ⟨rfl, h⟩
  | cons n a ih =>
    cases a with
    | nil =>
      refine ⟨rfl, ?_⟩
      cases b with
      | nil => rfl
      | cons m b =>
        rw [List.singleton_append, hasPair, Bool.or_eq_false_iff] at h
        exact h.2
    | cons m a =>
      rw [List.cons_append, List.cons_append, hasPair, Bool.or_eq_false_iff] at h
      obtain ⟨ha, hb⟩ := ih h.2
      rw [hasPair, h.1, ha]
      exact ⟨rfl, hb⟩

/-- A gap without a space at the end or the start of a line lies within a line or has no spaces. -/
theorem uniform_of_hasPair {s : List ℕ} (hs : ∀ n ∈ s, n = 32 ∨ IsSeparator n)
    (hbefore : hasSpaceBeforeBreak s = false) (hafter : hasSpaceAfterBreak s = false) :
    (∀ n ∈ s, n = 32) ∨ ∀ n ∈ s, IsSeparator n := by
  unfold hasSpaceBeforeBreak at hbefore
  unfold hasSpaceAfterBreak at hafter
  induction s with
  | nil => simp
  | cons n s ih =>
    rw [List.forall_mem_cons] at hs
    cases s with
    | nil => exact hs.1.imp (by simp) (by simp)
    | cons m s =>
      rw [hasPair, Bool.or_eq_false_iff] at hbefore hafter
      have htail := ih hs.2 hbefore.2 hafter.2
      rw [List.forall_mem_cons, List.forall_mem_cons (a := n)]
      rcases hs.1 with rfl | hn
      · refine Or.inl ⟨rfl, htail.resolve_right fun hm => ?_⟩
        simp [isSpace, (hm m (by simp)).isBreak] at hbefore
      · refine Or.inr ⟨hn, htail.resolve_left fun hm => ?_⟩
        simp [isSpace, hm m (by simp), hn.isBreak] at hafter

/-! ## Between single quotes -/

namespace Quoted

/-- A character between single quotes. -/
def doubled (n : ℕ) : List ℕ := if n == 39 then [39, 39] else [n]

theorem flatMap_doubled {s : List ℕ} (h : 39 ∉ s) : s.flatMap doubled = s := by
  rw [List.flatMap_congr (g := fun n => [n]) fun n hn => ?_]
  · exact List.flatMap_singleton' s
  · have hne : n ≠ 39 := fun heq => h (heq ▸ hn)
    simp [doubled, hne]

theorem isBreak_of_mem_doubled {w : List ℕ} (hw : ∀ n ∈ w, isBreak n = false) :
    ∀ n ∈ w.flatMap doubled, isBreak n = false := by
  intro n hn
  obtain ⟨m, hm, hmem⟩ := List.mem_flatMap.mp hn
  unfold doubled at hmem
  split_ifs at hmem with hquote
  · simp at hmem
    rw [hmem]
    rfl
  · rw [List.mem_singleton.mp hmem]
    exact hw m hm

theorem singleWord_eq {w r : List ℕ} (hw : ∀ n ∈ w, isGap n = false) (hne : r ≠ [])
    (hr : isGap (r.headD 0) = true ∨ r.headD 0 = 39 ∧ r.tail.headD 0 ≠ 39) :
    singleWord (w.flatMap doubled ++ r) = (w, (w.flatMap doubled).length) := by
  induction w with
  | nil =>
    rcases r with _ | ⟨n, _ | ⟨m, r⟩⟩
    · exact absurd rfl hne
    · simp only [List.flatMap_nil, List.nil_append, singleWord]
      rw [if_pos (by simpa using hr)]
      rfl
    · simp only [List.flatMap_nil, List.nil_append, singleWord]
      rcases hr with hgap | ⟨rfl, hm⟩
      · have hquote : (n == 39) = false := by
          by_contra hquote
          simp at hquote hgap
          subst hquote
          exact absurd hgap (by decide)
        simp_all
      · simp_all
  | cons n w ih =>
    rw [List.forall_mem_cons] at hw
    have hrest := ih hw.2
    obtain ⟨m, more, hmore⟩ := List.exists_cons_of_ne_nil
      (show w.flatMap doubled ++ r ≠ [] by simp [hne])
    by_cases hquote : n = 39
    · subst hquote
      rw [List.flatMap_cons, List.append_assoc]
      simp [doubled, singleWord, hrest]
    · have hstay : doubled n = [n] := by simp [doubled, hquote]
      have hquote' : (n == 39) = false := by simpa using hquote
      rw [List.flatMap_cons, List.append_assoc, hstay, List.singleton_append, hmore, singleWord,
        hquote', hw.1, ← hmore, hrest]
      simp

/-- What can stand between single quotes. -/
structure IsSingle (cs : List ℕ) : Prop where
  chars : ∀ n ∈ cs, n = 32 ∨ IsSeparator n ∨ isGap n = false
  space_before : hasSpaceBeforeBreak cs = false
  space_after : hasSpaceAfterBreak cs = false

theorem IsSingle.tail {a b : List ℕ} (h : IsSingle (a ++ b)) : IsSingle b where
  chars n hn := h.chars n (List.mem_append_right _ hn)
  space_before := (hasPair_append h.space_before).2
  space_after := (hasPair_append h.space_after).2

theorem IsSingle.gap {w s r : List ℕ} (h : IsSingle (w ++ (s ++ r)))
    (hs : ∀ n ∈ s, isGap n = true) : (∀ n ∈ s, n = 32) ∨ ∀ n ∈ s, IsSeparator n := by
  have hchars : ∀ n ∈ s, n = 32 ∨ IsSeparator n := by
    intro n hn
    rcases h.chars n (by simp [hn]) with hspace | hsep | hgap
    · exact Or.inl hspace
    · exact Or.inr hsep
    · rw [hs n hn] at hgap
      cases hgap
  have hbefore : hasSpaceBeforeBreak (s ++ r) = false := (hasPair_append h.space_before).2
  have hafter : hasSpaceAfterBreak (s ++ r) = false := (hasPair_append h.space_after).2
  exact uniform_of_hasPair hchars (hasPair_append hbefore).1 (hasPair_append hafter).1

theorem head_doubled {cs : List ℕ} (h : ∀ n ∈ cs.head?, isGap n = false) :
    ∀ n ∈ (cs.flatMap doubled).head?, isGap n = false := by
  cases cs with
  | nil => simp
  | cons m cs =>
    have hgap := h m rfl
    unfold doubled
    by_cases hquote : m = 39
    · simp [hquote, isGap, isBlank, isBreakOrEnd, isBreak]
    · simp [hquote, hgap]

/-- What is left between single quotes, from the start of a word on. -/
theorem fresh_lineChars (margin : ℕ) {cs : List ℕ} (h : ∀ n ∈ cs.head?, isGap n = false)
    (r : List ℕ) : Fresh (lineChars margin false cs ++ 39 :: r) := by
  cases cs with
  | nil => exact ⟨rfl, rfl⟩
  | cons n cs =>
    have hfresh := fresh_of_isGap (h n rfl)
    have hbreak : isBreak n = false := (hfresh []).2
    rw [lineChars, hbreak]
    exact hfresh _

/-- The gap behind a word between single quotes is read up to where the next word starts. -/
theorem IsSingle.read_gap {margin : ℕ} (hmargin : 0 < margin) {w bs cs r : List ℕ} {b : ℕ}
    {c : Cursor} (hcs : IsSingle (w ++ (b :: bs ++ cs))) (hgaps : ∀ n ∈ b :: bs, isGap n = true)
    (hhead : ∀ n ∈ cs.head?, isGap n = false)
    (hrest : c.rest = lineChars margin false (b :: bs ++ cs.flatMap doubled) ++ 39 :: r) :
    ∃ g c', Gap.read 0 .empty c = some (g, c') ∧ g.characters = b :: bs ∧
      c'.rest = lineChars margin false (cs.flatMap doubled) ++ 39 :: r ∧
      c'.isDocumentMark = false ∧
      isGap ((lineChars margin false (b :: bs ++ cs.flatMap doubled) ++ 39 :: r).headD 0) =
        true := by
  have hhead' := head_doubled hhead
  have hfresh := fresh_lineChars margin hhead' r
  rcases hcs.gap hgaps with hspaces | hseps
  · obtain ⟨j, hj⟩ : ∃ j, b :: bs = List.replicate (j + 1) 32 :=
      ⟨bs.length, List.eq_replicate_iff.mpr ⟨rfl, hspaces⟩⟩
    rw [hj, lineChars_word margin (by simp [isBreak]), List.append_assoc] at hrest ⊢
    exact ⟨_, _, Gap.read_spaces _ hrest hfresh, rfl, Cursor.rest_skip_spaces hrest,
      Cursor.isDocumentMark_of_column (Nat.succ_pos _), rfl⟩
  · have hbreaks : ∀ n ∈ b :: bs, isBreak n = true := fun n hn => (hseps n hn).isBreak
    have hmore := lineChars_fresh margin fun n hn => (fresh_of_isGap (hhead' n hn) []).2
    rw [lineChars_breaks margin hbreaks (by simp), hmore, List.append_assoc,
      List.append_assoc] at hrest ⊢
    obtain ⟨g, c', hread, hchars, hrest', hcolumn⟩ := Gap.read_separators 0
      (hseps b (by simp)) (fun n hn => hseps n (by simp [hn])) hrest hfresh
    refine ⟨g, c', hread, hchars, hrest', ?_, hgaps b (by simp)⟩
    by_cases hend : cs.flatMap doubled = []
    · rw [hend] at hrest'
      simp [Cursor.isDocumentMark, Cursor.isMark, Cursor.peek_of_rest hrest', lineChars]
    · exact Cursor.isDocumentMark_of_column (by simpa [hcolumn, hend] using hmargin)

/-- Between single quotes, words and gaps are read up to the closing quote. -/
theorem readFrom_single {margin : ℕ} (hmargin : 0 < margin) (fuel : ℕ) (text : List ℕ)
    {cs r : List ℕ} {c : Cursor} (hfuel : cs.length < fuel) (hcs : IsSingle cs)
    (hrest : c.rest = lineChars margin false (cs.flatMap doubled) ++ 39 :: r)
    (hr : r.headD 0 ≠ 39) (hmark : c.isDocumentMark = false) :
    ∃ c', readFrom .single fuel text c = some (text ++ cs, c') ∧ c'.rest = r := by
  induction fuel generalizing cs text c with
  | zero => omega
  | succ fuel ih =>
    have hne : c.rest ≠ [] := by simp [hrest]
    obtain ⟨w, s, cs', rfl, hword, hgaps, hhead, hs⟩ := exists_stretch isGap cs
    have hw : ∀ n ∈ w, isBreak n = false := fun n hn => (fresh_of_isGap (hword n hn) []).2
    have hquote : 39 ∉ s := fun hmem => by cases hgaps 39 hmem
    rw [List.flatMap_append, lineChars_word margin (isBreak_of_mem_doubled hw), List.flatMap_append,
      flatMap_doubled hquote, List.append_assoc] at hrest
    have hafter := Cursor.rest_skip_of hrest
    have hpeek := Cursor.peek_of_rest hafter
    by_cases hnil : s = []
    · -- the closing quote follows
      subst hnil
      obtain rfl := hs rfl
      have hread : word .single c.rest = some (w, (w.flatMap doubled).length) := by
        rw [hrest]
        exact congrArg some (singleWord_eq hword (by simp) (Or.inr ⟨rfl, hr⟩))
      rw [readFrom_quote hmark hne hread hpeek]
      exact ⟨_, by simp, Cursor.rest_skip_of (w := [39]) hafter⟩
    · obtain ⟨b, bs, rfl⟩ := List.exists_cons_of_ne_nil hnil
      obtain ⟨g, c', hgap, hchars, hrest', hmark', hstart⟩ :=
        hcs.read_gap hmargin hgaps hhead hafter
      have hread : word .single c.rest = some (w, (w.flatMap doubled).length) := by
        rw [hrest]
        exact congrArg some (singleWord_eq hword (by simp) (Or.inl hstart))
      rw [← hpeek] at hstart
      have hquote : (c.skip (w.flatMap doubled).length).peek ≠ 39 := fun h => by
        rw [h] at hstart
        cases hstart
      have hescape : (c.skip (w.flatMap doubled).length).peek ≠ 92 := fun h => by
        rw [h] at hstart
        cases hstart
      rw [readFrom_gap hmark hne hread hquote hescape hgap]
      have htail : IsSingle cs' := by
        rw [← List.append_assoc] at hcs
        exact hcs.tail
      have hfuel' : cs'.length < fuel := by
        simp only [List.length_append, List.length_cons] at hfuel
        omega
      obtain ⟨c'', hread', hc''⟩ := ih (text ++ w ++ g.characters) hfuel' htail hrest' hmark'
      exact ⟨c'', by rw [hread', hchars]; simp, hc''⟩

end Quoted

theorem spells_singleFrom {margin : ℕ} {cs : List ℕ} (h : ∀ n ∈ cs, IsLegible n) (fresh : Bool) :
    Spells (singleFrom (spaces margin) fresh cs)
      (lineChars margin fresh (cs.flatMap Quoted.doubled)) := by
  induction cs generalizing fresh with
  | nil => exact Spells.nil
  | cons n cs ih =>
    rw [List.forall_mem_cons] at h
    have hmargin : Spells (if fresh then spaces margin else [])
        (if fresh then List.replicate margin 32 else []) := by
      cases fresh with
      | false => exact Spells.nil
      | true => exact spells_spaces margin
    rw [List.flatMap_cons, singleFrom]
    by_cases hquote : n = 39
    · subst hquote
      have htwo : Spells [39, 39] [39, 39] := Spells.literal [39, 39] rfl
      simpa [Quoted.doubled, lineChars, isBreak] using (hmargin.append htwo).append (ih h.2 false)
    · have hstay : Quoted.doubled n = [n] := by simp [Quoted.doubled, hquote]
      have hquote' : (n == 39) = false := by simpa using hquote
      rw [hstay, List.singleton_append, lineChars, hquote', if_neg Bool.false_ne_true]
      by_cases hbreak : isBreak n = true
      · rw [if_pos hbreak, if_pos hbreak]
        exact (Spells.encode h.1).append (ih h.2 true)
      · rw [if_neg hbreak, if_neg hbreak, ← List.singleton_append, ← List.append_assoc]
        exact (hmargin.append (Spells.encode h.1)).append (ih h.2 false)

theorem spells_singleQuoted {margin : ℕ} {cs : List ℕ} (h : ∀ n ∈ cs, IsLegible n) :
    Spells (singleQuoted (spaces margin) cs)
      (39 :: lineChars margin false (cs.flatMap Quoted.doubled) ++ [39]) := by
  have hquote : Spells [39] [39] := Spells.literal [39] rfl
  exact (hquote.append (spells_singleFrom h false)).append hquote

theorem isSingle_of_isSingleQuotable {cs : List ℕ} (h : isSingleQuotable cs = true)
    (hline : 10 ∉ cs) : Quoted.IsSingle cs := by
  simp only [isSingleQuotable, Bool.and_eq_true, Bool.not_eq_true', List.all_eq_true] at h
  obtain ⟨⟨hprinted, hbefore⟩, hafter⟩ := h
  refine ⟨fun n hn => ?_, hbefore, hafter⟩
  have hn10 : n ≠ 10 := fun heq => hline (heq ▸ hn)
  cases hbreak : isBreak n with
  | true =>
    have hchar := isPrinted_iff.mp (hprinted n hn)
    rw [isBreak_iff] at hbreak
    unfold IsSeparator
    omega
  | false =>
    by_cases hspace : n = 32
    · exact Or.inl hspace
    · exact Or.inr (Or.inr (isGap_of_isPrinted (hprinted n hn) hbreak hspace))

/-- A text between single quotes is read as it is. -/
theorem Quoted.read_singleQuoted {margin : ℕ} (hmargin : 0 < margin) {cs r : List ℕ}
    (h : IsSingle cs) {c : Cursor}
    (hrest : c.rest = 39 :: lineChars margin false (cs.flatMap doubled) ++ 39 :: r)
    (hr : r.headD 0 ≠ 39) : ∃ c', read .single c = some (cs, c') ∧ c'.rest = r := by
  have hlength : cs.length < c.rest.length + 1 := by
    have hdoubled : cs.length ≤ (cs.flatMap doubled).length :=
      length_le_flatMap fun n _ => by unfold doubled; split_ifs <;> simp
    have hlines := length_le_lineChars margin (cs.flatMap doubled) false
    rw [hrest]
    simp only [List.cons_append, List.length_cons, List.length_append]
    omega
  exact readFrom_single hmargin _ [] hlength h (Cursor.rest_skip_of (w := [39]) hrest) hr
    (Cursor.isDocumentMark_of_column (Nat.succ_pos _))

end ImportBlock.Yaml
