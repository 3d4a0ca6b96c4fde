import ImportBlock.Yaml.Printer
import ImportBlock.Yaml.Token
import Mathlib.Data.List.Basic
import Mathlib.Data.List.TakeWhile
import Mathlib.Tactic.SplitIfs

/-!
# Scalars without quotes

A gap of spaces within a line or of a line's end is read up to the next character that is `Fresh`
(`Gap.read_spaces`, `Gap.read_lineEnd`). What is printed without quotes is words with spaces in
between, and no word in it ends with a colon or starts with a number sign (`Plain.IsTail`). It is
read word by word, up to the end of its line if the next line is indented by less
(`Plain.read_eq`).
-/

namespace ImportBlock.Yaml

/-! ## Classes of characters -/

theorem isBreak_iff {n : ℕ} :
    isBreak n = true ↔ n = 10 ∨ n = 13 ∨ n = 0x85 ∨ n = 0x2028 ∨ n = 0x2029 := by
  simp [isBreak, or_assoc]

theorem isGap_iff {n : ℕ} : isGap n = true ↔ n = 32 ∨ n = 9 ∨ isBreak n = true ∨ n = 0 := by
  simp [isGap, isBlank, isBreakOrEnd, or_assoc]

theorem isPrinted_iff {n : ℕ} : isPrinted n = true ↔
    n = 10 ∨ 0x20 ≤ n ∧ n ≤ 0x7E ∨ 0xA0 ≤ n ∧ n ≤ 0xFFFD ∧ n ≠ 0xFEFF := by
  simp [isPrinted, or_assoc, and_assoc]

/-- Of the characters in a line that are printed as they are, only the space is a gap. -/
theorem isGap_of_isPrinted {n : ℕ} (h : isPrinted n = true) (hbreak : isBreak n = false)
    (hspace : n ≠ 32) : isGap n = false := by
  rw [Bool.eq_false_iff, Ne, isGap_iff, hbreak]
  rw [isPrinted_iff] at h
  simp only [Bool.false_eq_true, false_or]
  omega

/-! ## Gaps -/

/-- What starts here does not continue a gap. -/
def Fresh (r : List ℕ) : Prop := isBlank (r.headD 0) = false ∧ isBreak (r.headD 0) = false

theorem fresh_of_isGap {n : ℕ} (h : isGap n = false) (r : List ℕ) : Fresh (n :: r) := by
  simp only [isGap, isBreakOrEnd, Bool.or_eq_false_iff] at h
  exact ⟨h.1, h.2.1⟩

namespace Cursor

variable {c : Cursor} {r : List ℕ}

theorem peek_of_rest (h : c.rest = r) : c.peek = r.headD 0 := by rw [peek, h]

theorem rest_skip_of {w : List ℕ} (h : c.rest = w ++ r) : (c.skip w.length).rest = r := by
  show c.rest.drop w.length = r
  rw [h, List.drop_left]

theorem rest_skip_spaces {k : ℕ} (h : c.rest = List.replicate k 32 ++ r) : (c.skip k).rest = r := by
  simpa using rest_skip_of h

theorem rest_nextLine_of {b : ℕ} (h : c.rest = b :: r) (hb : b ≠ 13) : c.nextLine.rest = r := by
  have hwidth : breakWidth c.rest = 1 := by
    rw [h]
    unfold breakWidth
    split
    · next heq => exact absurd (List.cons.inj heq).1 hb
    · rfl
  show c.rest.drop (breakWidth c.rest) = r
  rw [hwidth, h]
  rfl

theorem skip_zero (c : Cursor) : c.skip 0 = c := by simp [skip]

theorem skip_skip (c : Cursor) (i j : ℕ) : (c.skip i).skip j = c.skip (i + j) := by
  simp [skip, Nat.add_assoc]

theorem isDocumentMark_of_column (h : 0 < c.column) : c.isDocumentMark = false := by
  have hcolumn : (c.column == 0) = false := by simpa using Nat.ne_of_gt h
  simp [isDocumentMark, isMark, hcolumn]

end Cursor

namespace Gap

variable {indent : ℕ} {c : Cursor}

/-- The gap with some spaces after it. -/
def addSpaces (g : Gap) (j : ℕ) : Gap :=
  if g.isBroken then g else { g with blanks := g.blanks ++ List.replicate j 32 }

theorem addSpaces_of_isBroken {g : Gap} (h : g.isBroken = true) (j : ℕ) : g.addSpaces j = g :=
  if_pos h

theorem readFrom_fresh {r : List ℕ} (h : c.rest = r) (hr : Fresh r) (fuel : ℕ) (g : Gap) :
    readFrom indent fuel g c = some (g, c) := by
  cases fuel with
  | zero => rfl
  | succ fuel =>
    have hpeek := Cursor.peek_of_rest h
    rw [readFrom, hpeek, hr.1, hr.2]
    rfl

theorem readFrom_spaces {r : List ℕ} (j : ℕ) (h : c.rest = List.replicate j 32 ++ r) (fuel : ℕ)
    (g : Gap) :
    readFrom indent (j + fuel) g c = readFrom indent fuel (g.addSpaces j) (c.skip j) := by
  induction j generalizing c g with
  | zero =>
    have hg : g.addSpaces 0 = g := by simp [addSpaces]
    rw [hg, Cursor.skip_zero, Nat.zero_add]
  | succ j ih =>
    have hpeek : c.peek = 32 := by simp [Cursor.peek, h, List.replicate_succ]
    have hrest : (c.skip 1).rest = List.replicate j 32 ++ r := by
      simp [Cursor.skip, h, List.replicate_succ]
    have hg : (g.addBlank 32).addSpaces j = g.addSpaces (j + 1) := by
      unfold addBlank
      by_cases hb : g.isBroken
      · simp [addSpaces, hb]
      · have hb' : ({ g with blanks := g.blanks ++ [32] } : Gap).isBroken = false := by
          simpa [isBroken] using hb
        simp [addSpaces, hb, hb', List.replicate_succ]
    rw [Nat.succ_add, readFrom, hpeek]
    simp only [isBlank, beq_self_eq_true, Bool.true_or, if_true]
    rw [show (32 == 9) = false from rfl, Bool.and_false, if_neg (by simp), ih hrest, hg,
      Cursor.skip_skip, Nat.add_comm 1 j]

theorem read_spaces (indent : ℕ) {r : List ℕ} {j : ℕ} (h : c.rest = List.replicate j 32 ++ r)
    (hr : Fresh r) :
    read indent .empty c = some (⟨List.replicate j 32, .none, []⟩, c.skip j) := by
  have hfuel : c.rest.length = j + r.length := by simp [h]
  rw [read, hfuel, readFrom_spaces j h, readFrom_fresh (Cursor.rest_skip_spaces h) hr]
  rfl

/-- The end of a line, and spaces in front of the next one. -/
theorem read_lineEnd {r : List ℕ} {k : ℕ} (h : c.rest = 10 :: (List.replicate k 32 ++ r))
    (hr : Fresh r) :
    read indent .empty c = some (⟨[], .broken 10, []⟩, c.nextLine.skip k) := by
  have hfuel : c.rest.length = (k + r.length) + 1 := by simp [h]
  have hpeek : c.peek = 10 := by simp [Cursor.peek, h]
  have hnext : c.nextLine.rest = List.replicate k 32 ++ r := Cursor.rest_nextLine_of h (by decide)
  have hbreak : c.lineBreak = 10 := by simp [Cursor.lineBreak, hpeek]
  rw [read, hfuel, readFrom, hpeek, hbreak]
  show readFrom indent (k + r.length) ⟨[], .broken 10, []⟩ c.nextLine = _
  rw [readFrom_spaces k hnext, addSpaces_of_isBroken rfl,
    readFrom_fresh (Cursor.rest_skip_spaces hnext) hr]

end Gap

/-! ## Words and spaces -/

/-- Characters up to those with a property, these, and what follows them. -/
theorem exists_stretch (q : ℕ → Bool) (cs : List ℕ) :
    ∃ w s cs', cs = w ++ (s ++ cs') ∧ (∀ n ∈ w, q n = false) ∧ (∀ n ∈ s, q n = true) ∧
      (∀ n ∈ cs'.head?, q n = false) ∧ (s = [] → cs' = []) := by
  refine ⟨cs.takeWhile (!q ·), (cs.dropWhile (!q ·)).takeWhile q, (cs.dropWhile (!q ·)).dropWhile q,
    ?_, ?_, fun n hn => List.mem_takeWhile_imp hn, ?_, ?_⟩
  · rw [List.takeWhile_append_dropWhile, List.takeWhile_append_dropWhile]
  · intro n hn
    simpa using List.mem_takeWhile_imp hn
  · intro n hn
    have hnot := List.head?_dropWhile_not q (cs.dropWhile (!q ·))
    rw [Option.mem_def.mp hn] at hnot
    simpa using hnot
  · intro hnil
    cases hd : cs.dropWhile (!q ·) with
    | nil => rfl
    | cons n d =>
      have hnot := List.head?_dropWhile_not (!q ·) cs
      rw [hd] at hnot hnil
      have hfirst : q n = true := by simpa using hnot
      rw [List.takeWhile_cons, hfirst] at hnil
      cases hnil

/-! ## Scalars without quotes -/

theorem hasStructure_append {b : ℕ} (x y : List ℕ) (h : hasStructure b (x ++ y) = false) :
    hasStructure (x.getLast?.getD b) y = false := by
  induction x generalizing b with
  | nil => exact h
  | cons n x ih =>
    rw [List.cons_append, hasStructure, Bool.or_eq_false_iff] at h
    have hlast : (n :: x).getLast?.getD b = x.getLast?.getD n := by
      cases x <;> simp [List.getLast?_cons]
    rw [hlast]
    exact ih h.2

/-- No colon stands before a space or at the end. -/
theorem getLast?_ne_colon {b : ℕ} {w r : List ℕ} (h : hasStructure b (w ++ r) = false)
    (hr : r = [] ∨ r.head? = some 32) : w.getLast? ≠ some 58 := by
  intro hlast
  obtain ⟨w, rfl⟩ := List.getLast?_eq_some_iff.mp hlast
  rw [List.append_assoc] at h
  have hcolon := hasStructure_append _ _ h
  rw [List.singleton_append, hasStructure] at hcolon
  rcases hr with rfl | hr <;> simp_all

namespace Plain

theorem word_eq {w r : List ℕ} (hw : ∀ n ∈ w, isGap n = false) (hr : isGap (r.headD 0) = true)
    (hcolon : w.getLast? ≠ some 58) : word false (w ++ r) = w := by
  induction w with
  | nil =>
    cases r with
    | nil => rfl
    | cons n r => simp_all [word]
  | cons n w ih =>
    rw [List.forall_mem_cons] at hw
    have hnext : (n == 58 && isGap ((w ++ r).headD 0)) = false := by
      cases w with
      | nil => simp_all
      | cons m w => simp_all
    have htail : w.getLast? ≠ some 58 := by
      cases w with
      | nil => simp
      | cons m w => simpa [List.getLast?_cons] using hcolon
    rw [List.cons_append, word, hw.1, hnext]
    simp [ih hw.2 htail]

/-- What is left of a scalar without quotes, from the start of a word on. -/
structure IsTail (cs : List ℕ) : Prop where
  ne_nil : cs ≠ []
  chars : ∀ n ∈ cs, n = 32 ∨ isGap n = false
  head_ne_space : cs.head? ≠ some 32
  head_ne_comment : cs.head? ≠ some 35
  last_ne_space : cs.getLast? ≠ some 32
  no_structure : ∃ b, hasStructure b cs = false

theorem IsTail.fresh {cs : List ℕ} (h : IsTail cs) (r : List ℕ) : Fresh (cs ++ r) := by
  obtain ⟨n, cs, rfl⟩ := List.exists_cons_of_ne_nil h.ne_nil
  have hspace := h.head_ne_space
  exact fresh_of_isGap ((h.chars n (by simp)).resolve_left (by simpa using hspace)) _

/-- A tail is its last word, or a word, spaces and a shorter tail. -/
theorem IsTail.exists_word {cs : List ℕ} (h : IsTail cs) :
    ∃ w r, cs = w ++ r ∧ w ≠ [] ∧ (∀ n ∈ w, isGap n = false) ∧ w.getLast? ≠ some 58 ∧
      (r = [] ∨ ∃ j cs', r = List.replicate (j + 1) 32 ++ cs' ∧ IsTail cs') := by
  obtain ⟨w, s, cs', rfl, hword, hspaces, hhead, hs⟩ := exists_stretch (· == 32) cs
  obtain ⟨b, hb⟩ := h.no_structure
  have hw : w ≠ [] := by
    rintro rfl
    rcases s with _ | ⟨n, s⟩
    · exact h.ne_nil (by simp [hs rfl])
    · have hn := hspaces n (by simp)
      exact h.head_ne_space (by simpa using hn)
  have hchars : ∀ n ∈ w, isGap n = false := by
    intro n hn
    refine (h.chars n (List.mem_append_left _ hn)).resolve_left ?_
    simpa using hword n hn
  obtain ⟨j, rfl⟩ : ∃ j, s = List.replicate j 32 :=
    ⟨_, List.eq_replicate_iff.mpr ⟨rfl, by simpa using hspaces⟩⟩
  rcases j with _ | j
  · obtain rfl := hs rfl
    exact ⟨w, [], by simp, hw, hchars, getLast?_ne_colon hb (by simp), Or.inl rfl⟩
  · have hcolon := getLast?_ne_colon hb (Or.inr (by simp [List.replicate_succ]))
    refine ⟨w, _, rfl, hw, hchars, hcolon, Or.inr ⟨j, cs', rfl, ?_⟩⟩
    have hne : cs' ≠ [] := by
      rintro rfl
      refine h.last_ne_space ?_
      simp [List.replicate_succ', ← List.append_assoc]
    have hrest : hasStructure 32 cs' = false := by
      have := hasStructure_append (w ++ List.replicate (j + 1) 32) cs' (by simpa using hb)
      simpa [List.replicate_succ', ← List.append_assoc] using this
    refine ⟨hne, fun n hn => h.chars n (by simp [hn]), ?_, ?_, ?_, 32, hrest⟩
    · intro hspace
      simpa using hhead 32 hspace
    · intro hcomment
      obtain ⟨ds, rfl⟩ := List.head?_eq_some_iff.mp hcomment
      simp [hasStructure] at hrest
    · intro hlast
      refine h.last_ne_space ?_
      rw [← List.append_assoc, List.getLast?_append, hlast]
      rfl

variable {least k : ℕ} {r : List ℕ}

/-- The words of a tail are read one after the other. -/
theorem readFrom_eq (hr : Fresh r) (hk : k < least) (fuel : ℕ) (text : List ℕ) (g : Gap)
    {cs : List ℕ} {c : Cursor} (hfuel : cs.length < fuel) (hcs : IsTail cs)
    (hrest : c.rest = cs ++ 10 :: (List.replicate k 32 ++ r)) (hcolumn : least ≤ c.column) :
    ∃ c', readFrom false least fuel text g c = some ⟨text ++ g.characters ++ cs, true, c'⟩ ∧
      c'.rest = r ∧ c'.column = k := by
  induction fuel generalizing cs text g c with
  | zero => omega
  | succ fuel ih =>
    have hmark : c.isDocumentMark = false := Cursor.isDocumentMark_of_column (by omega)
    have hcomment : (c.peek == 35) = false := by
      obtain ⟨n, cs, rfl⟩ := List.exists_cons_of_ne_nil hcs.ne_nil
      have hfirst := hcs.head_ne_comment
      simpa [Cursor.peek, hrest] using hfirst
    obtain ⟨w, rest, rfl, hw, hchars, hcolon, hcases⟩ := hcs.exists_word
    have hafter : (c.skip w.length).rest = rest ++ 10 :: (List.replicate k 32 ++ r) :=
      Cursor.rest_skip_of (by rw [hrest, List.append_assoc])
    have hword : word false c.rest = w := by
      rw [hrest, List.append_assoc]
      refine word_eq hchars ?_ hcolon
      rcases hcases with rfl | ⟨j, cs', rfl, -⟩
      · rfl
      · simp [List.replicate_succ, isGap, isBlank]
    have hwlen : 0 < w.length := List.length_pos_iff.mpr hw
    rw [readFrom, hmark, hcomment, hword]
    simp only [Bool.or_self, Bool.false_eq_true, if_false, List.isEmpty_iff, hw]
    rcases hcases with rfl | ⟨j, cs', rfl, htail⟩
    · -- the line ends, and the next one is indented by less
      have hnext := Cursor.rest_nextLine_of hafter (by decide)
      have hcolumn' : ((c.skip w.length).nextLine.skip k).column = k := Nat.zero_add k
      refine ⟨(c.skip w.length).nextLine.skip k, ?_, Cursor.rest_skip_spaces hnext, hcolumn'⟩
      rw [Gap.read_lineEnd hafter hr]
      simp [hcolumn', hk, Gap.isBroken]
    · -- the spaces lead to the next word
      have hfresh : Fresh (cs' ++ 10 :: (List.replicate k 32 ++ r)) := htail.fresh _
      rw [List.append_assoc] at hafter
      have hcolumn' : least ≤ ((c.skip w.length).skip (j + 1)).column := by
        show least ≤ c.column + w.length + (j + 1)
        omega
      have hrest' : ((c.skip w.length).skip (j + 1)).rest =
          cs' ++ 10 :: (List.replicate k 32 ++ r) :=
        Cursor.rest_skip_spaces hafter
      have hfuel' : cs'.length < fuel := by
        simp only [List.length_append, List.length_replicate] at hfuel
        omega
      obtain ⟨c', hread, hc'⟩ := ih (text ++ g.characters ++ w)
        ⟨List.replicate (j + 1) 32, .none, []⟩ hfuel' htail hrest' hcolumn'
      refine ⟨c', ?_, hc'⟩
      rw [Gap.read_spaces _ hafter hfresh]
      simp only [Bool.not_false, Bool.true_and, decide_eq_true_eq, if_neg (Nat.not_lt.mpr hcolumn')]
      rw [hread]
      simp [Gap.characters]

/-- A scalar without quotes ends with its line, if the next one is indented by less. -/
theorem read_eq (hr : Fresh r) (hk : k < least) {cs : List ℕ} {c : Cursor} (hcs : IsTail cs)
    (hrest : c.rest = cs ++ 10 :: (List.replicate k 32 ++ r)) (hcolumn : least ≤ c.column) :
    ∃ c', read false least c = some ⟨cs, true, c'⟩ ∧ c'.rest = r ∧ c'.column = k :=
  readFrom_eq hr hk (c.rest.length + 1) [] .empty (by rw [hrest, List.length_append]; omega) hcs
    hrest hcolumn

end Plain

/-- What can be printed without quotes is read without quotes. -/
theorem isTail_of_isPlainPrintable {cs : List ℕ} (h : isPlainPrintable cs = true) (hne : cs ≠ []) :
    Plain.IsTail cs := by
  simp only [isPlainPrintable, Bool.and_eq_true, Bool.not_eq_true', List.all_eq_true,
    hasMeaning, Bool.or_eq_false_iff] at h
  obtain ⟨hchars, ⟨⟨⟨⟨hhead, hlast⟩, -⟩, hmark⟩, -⟩, hstructure⟩ := h
  refine ⟨hne, fun n hn => ?_, by simpa using hhead, ?_, by simpa using hlast, 0, hstructure⟩
  · obtain ⟨hprinted, hbreak⟩ := hchars n hn
    exact or_iff_not_imp_left.mpr (isGap_of_isPrinted hprinted hbreak)
  · intro hcomment
    rw [List.headD_eq_head?_getD, hcomment] at hmark
    exact absurd hmark (by decide)

theorem resolve_of_isPlainText {t : Text} (h : isPlainText t = true) : resolve t = .text t := by
  have hnumber : ∀ v u, number? t = some v → v ≠ .text u := by
    intro v u hv heq
    subst heq
    unfold number? at hv
    split at hv
    · cases hv
    · split at hv
      · split at hv
        · simp at hv
        · cases hv
      · split at hv
        · dsimp only at hv
          split at hv
          · cases hv
          · simp at hv
        · cases hv
      · cases hv
  unfold isPlainText at h
  unfold resolve at h ⊢
  split_ifs at h ⊢
  split
  · next v hv =>
    cases v with
    | text u => exact absurd rfl (hnumber _ u hv)
    | _ => simp [hv] at h
  · rfl

end ImportBlock.Yaml
