import ImportBlock.Proofs.Yaml.QuotedScalars

/-!
# Block scalars

The reader of a block scalar takes line after line, each with the line breaks behind it
(`Block.linesFrom_line`), up to a row that is indented by less. The line breaks at the end are kept
apart until the header's mark says which of them count (`Block.Ended`), and the mark that is
printed is the one under which the text comes out again (`Block.Ended.chomped`). So a text that is
printed as a block and starts with neither a blank nor a line break is read back
(`Block.read_printed`).
-/

namespace ImportBlock.Yaml.Block

/-! ## Empty lines -/

/-- A line break of a text that can be printed as a block counts as itself. -/
theorem lineBreak_of_not_special {b : ℕ} {c : Cursor} (hpeek : c.peek = b) (hb : isBreak b = true)
    (hspecial : isSpecial b = false) : c.lineBreak = b ∧ b ≠ 13 := by
  have hcases : b = 10 ∨ IsSeparator b := by
    have hprinted : b = 9 ∨ isPrinted b = true := by
      simpa [isSpecial, or_iff_not_imp_left] using hspecial
    rw [isBreak_iff] at hb
    rw [isPrinted_iff] at hprinted
    unfold IsSeparator
    omega
  rw [Cursor.lineBreak, hpeek]
  rcases hcases with rfl | rfl | rfl <;> decide

theorem emptyFrom_breaks (indent most fuel : ℕ) (breaks : List ℕ) {bs r : List ℕ} {c : Cursor}
    (hbs : ∀ n ∈ bs, isBreak n = true ∧ isSpecial n = false) (hrest : c.rest = bs ++ r)
    (hcolumn : c.column = 0) :
    ∃ c', emptyFrom indent (bs.length + fuel) breaks most c =
        emptyFrom indent fuel (breaks ++ bs) most c' ∧ c'.rest = r ∧ c'.column = 0 := by
  induction bs generalizing breaks c with
  | nil => exact ⟨c, by simp, hrest, hcolumn⟩
  | cons b bs ih =>
    rw [List.forall_mem_cons] at hbs
    have hpeek : c.peek = b := Cursor.peek_of_rest hrest
    obtain ⟨hline, hfeed⟩ := lineBreak_of_not_special hpeek hbs.1.1 hbs.1.2
    have hspaces : (c.rest.takeWhile fun n => n == 32) = [] := by
      rw [hrest, List.cons_append, List.takeWhile_cons_of_neg]
      intro h
      rw [beq_iff_eq.mp h] at hbs
      cases hbs.1.1
    have htab : (b == 9) = false := by
      by_contra h
      rw [Bool.not_eq_false, beq_iff_eq] at h
      rw [h] at hbs
      cases hbs.1.1
    obtain ⟨c', hread, hrest', hcolumn'⟩ := ih (breaks ++ [b]) hbs.2
      (Cursor.rest_nextLine_of hrest hfeed) rfl
    refine ⟨c', ?_, hrest', hcolumn'⟩
    rw [List.length_cons, Nat.add_right_comm, emptyFrom, hspaces]
    simp only [List.length_nil, Nat.zero_min, ite_self, Cursor.skip_zero, hpeek, htab, hbs.1.1,
      hline, hcolumn, Bool.and_false, Bool.false_eq_true, if_false, if_true, Nat.max_zero]
    rw [hread, List.append_assoc, List.singleton_append]

/-- Spaces that end an indentation. -/
theorem emptyFrom_stop {k indent : ℕ} (fuel most : ℕ) (breaks : List ℕ) {r : List ℕ} {c : Cursor}
    (hrest : c.rest = List.replicate k 32 ++ r) (hcolumn : c.column = 0)
    (hbreak : isBreak (r.headD 0) = false)
    (hstop : isBlank (r.headD 0) = false ∧ (indent = 0 ∨ k ≤ indent) ∨ indent = k ∧ 0 < k) :
    emptyFrom indent (fuel + 1) breaks most c = some ⟨breaks, max most k, c.skip k⟩ := by
  have hskip : (if indent = 0 then (c.rest.takeWhile fun n => n == 32).length
      else min (c.rest.takeWhile fun n => n == 32).length (indent - c.column)) = k := by
    rw [hrest, List.takeWhile_append_of_pos (by simp), List.length_append, List.length_replicate,
      hcolumn]
    rcases hstop with ⟨hblank, hindent⟩ | ⟨rfl, hpos⟩
    · have hnone : (r.takeWhile fun n => n == 32) = [] := by
        cases r with
        | nil => rfl
        | cons n r =>
          have hn : (n == 32) = false := (Bool.or_eq_false_iff.mp hblank).1
          simp [hn]
      rw [hnone, List.length_nil]
      split_ifs <;> omega
    · rw [if_neg (by omega)]
      omega
  have hpeek := Cursor.peek_of_rest (Cursor.rest_skip_spaces hrest)
  have hcolumn' : (c.skip k).column = k := by
    show c.column + k = k
    rw [hcolumn, Nat.zero_add]
  have htab : ((decide (indent = 0) || decide (k < indent)) && r.headD 0 == 9) = false := by
    rcases hstop with ⟨hblank, -⟩ | ⟨rfl, hpos⟩
    · rw [(Bool.or_eq_false_iff.mp hblank).2, Bool.and_false]
    · simp [Nat.ne_of_gt hpos]
  rw [emptyFrom, hskip]
  simp only [hpeek, hcolumn', htab, hbreak, Bool.false_eq_true, if_false]

/-! ## Lines -/

/-- Behind the lines of a scalar, the next row is indented by less. -/
theorem linesFrom_behind {folded : Bool} {k indent : ℕ} (hk : k < indent) (fuel : ℕ) {l : Lines}
    (hcolumn : l.cursor.column = k) : linesFrom folded indent fuel l = some l := by
  cases fuel with
  | zero => rfl
  | succ fuel =>
    have hne : (l.cursor.column != indent) = true := by
      rw [hcolumn]
      simpa using Nat.ne_of_lt hk
    rw [linesFrom, hne]
    rfl

section Lines

variable {margin k : ℕ} {r : List ℕ} (hmargin : 0 < margin)

include hmargin

/-- One line is read with the line breaks behind it and the spaces in front of the next row. -/
theorem linesFrom_line (fuel : ℕ) {l : Lines} {w bs : List ℕ} {b : ℕ}
    (hline : ∀ n ∈ w, isBreak n = false ∧ isSpecial n = false)
    (hbreaks : ∀ n ∈ b :: bs, isBreak n = true ∧ isSpecial n = false)
    (hrest : l.cursor.rest = w ++ (b :: bs ++ (List.replicate k 32 ++ r)))
    (hcolumn : l.cursor.column = margin) (hr : isBreak (r.headD 0) = false)
    (hk : isBlank (r.headD 0) = false ∧ k ≤ margin ∨ margin = k) :
    ∃ c, linesFrom false margin (fuel + 1) l = linesFrom false margin fuel
        ⟨l.text ++ (l.lastBreak ++ l.breaks) ++ w, [b], bs, isBlank l.cursor.peek, c⟩ ∧
      c.rest = r ∧ c.column = k := by
  rw [List.forall_mem_cons] at hbreaks
  obtain ⟨⟨hb, hspecial⟩, hbs⟩ := hbreaks
  have hinside : ∀ n ∈ w, (!isBreakOrEnd n) = true := by
    intro n hn
    obtain ⟨hbreak, hspecial⟩ := hline n hn
    have hzero : n ≠ 0 := by
      rintro rfl
      cases hspecial
    simp [isBreakOrEnd, hbreak, hzero]
  have htake : (l.cursor.rest.takeWhile fun n => !isBreakOrEnd n) = w := by
    rw [hrest, List.takeWhile_append_of_pos hinside, List.cons_append,
      List.takeWhile_cons_of_neg (by simp [isBreakOrEnd, hb]), List.append_nil]
  have hempty : l.cursor.rest.isEmpty = false := by
    rw [hrest]
    simp
  have hafter := Cursor.rest_skip_of hrest
  have hpeek : (l.cursor.skip w.length).peek = b := Cursor.peek_of_rest hafter
  obtain ⟨hbreak, hfeed⟩ := lineBreak_of_not_special hpeek hb hspecial
  have hnext : (l.cursor.skip w.length).nextLine.rest = bs ++ (List.replicate k 32 ++ r) :=
    Cursor.rest_nextLine_of hafter hfeed
  -- the line breaks are passed over, and then the spaces
  obtain ⟨c, hread, hrest', hcolumn'⟩ := emptyFrom_breaks margin 0
    ((List.replicate k 32 ++ r).length + 1) [] hbs hnext rfl
  have hstop := emptyFrom_stop (List.replicate k 32 ++ r).length 0 ([] ++ bs) hrest' hcolumn' hr
    (hk.imp (And.imp_right Or.inr) fun h => ⟨h, h ▸ hmargin⟩)
  have hlines : empty? margin (l.cursor.skip w.length).nextLine =
      some ⟨bs, max 0 k, c.skip k⟩ := by
    rw [empty?, hnext, List.length_append, Nat.add_assoc, hread, hstop]
    rfl
  refine ⟨c.skip k, ?_, Cursor.rest_skip_spaces hrest', ?_⟩
  · rw [linesFrom, htake, hempty, hcolumn]
    simp [Lines.joined, hpeek, hb, hbreak, hlines]
  · show c.column + k = k
    rw [hcolumn', Nat.zero_add]

/-- What has been read when the lines of a block scalar are over: the line breaks at the end are
kept apart. -/
structure Ended (whole : List ℕ) (l : Lines) : Prop where
  whole : l.text ++ (l.lastBreak ++ l.breaks) = whole
  last : ∃ b, l.lastBreak = [b] ∧ isBreak b = true
  breaks : ∀ n ∈ l.breaks, isBreak n = true

/-- The lines of a block scalar are read one after the other. -/
theorem linesFrom_eq (hk : k < margin) (hr : Fresh r) (fuel : ℕ) {cs : List ℕ} {l : Lines}
    (hfuel : cs.length < fuel) (hspecial : ∀ n ∈ cs, isSpecial n = false)
    (hlast : ∃ b, cs.getLast? = some b ∧ isBreak b = true)
    (hrest : l.cursor.rest = lineChars margin false cs ++ (List.replicate k 32 ++ r))
    (hcolumn : l.cursor.column = margin) :
    ∃ m, linesFrom false margin fuel l = some m ∧
      Ended (l.text ++ (l.lastBreak ++ l.breaks) ++ cs) m ∧ m.cursor.rest = r ∧
      m.cursor.column = k := by
  induction fuel generalizing cs l with
  | zero => omega
  | succ fuel ih =>
    obtain ⟨w, s, cs', rfl, hword, hbreaks, hhead, hs⟩ := exists_stretch isBreak cs
    obtain ⟨last, hlast, hend⟩ := hlast
    have hsne : s ≠ [] := by
      intro hnil
      rw [hnil, hs hnil, List.append_nil, List.append_nil] at hlast
      rw [hword last (List.mem_of_getLast? hlast)] at hend
      cases hend
    obtain ⟨b, bs, rfl⟩ := List.exists_cons_of_ne_nil hsne
    have hline : ∀ n ∈ w, isBreak n = false ∧ isSpecial n = false :=
      fun n hn => ⟨hword n hn, hspecial n (by simp [hn])⟩
    have hbs : ∀ n ∈ b :: bs, isBreak n = true ∧ isSpecial n = false :=
      fun n hn => ⟨hbreaks n hn, hspecial n (List.mem_append_right _ (List.mem_append_left _ hn))⟩
    rw [lineChars_word margin hword, lineChars_breaks margin hbreaks (by simp), List.append_assoc,
      List.append_assoc] at hrest
    by_cases hnil : cs' = []
    · -- the row behind the scalar comes next
      subst hnil
      obtain ⟨c, hstep, hrest', hcolumn'⟩ := linesFrom_line hmargin fuel hline hbs hrest hcolumn
        hr.2 (Or.inl ⟨hr.1, Nat.le_of_lt hk⟩)
      rw [hstep]
      refine ⟨_, linesFrom_behind hk fuel hcolumn', ?_, hrest', hcolumn'⟩
      exact ⟨by simp, ⟨b, rfl, hbreaks b (by simp)⟩, fun n hn => hbreaks n (by simp [hn])⟩
    · -- another line of the scalar comes next
      rw [lineChars_fresh margin hhead, if_neg hnil, List.append_assoc] at hrest
      have hnext : isBreak ((lineChars margin false cs' ++ (List.replicate k 32 ++ r)).headD 0) =
          false := by
        obtain ⟨n, cs', rfl⟩ := List.exists_cons_of_ne_nil hnil
        rw [lineChars, hhead n rfl]
        exact hhead n rfl
      obtain ⟨c, hstep, hrest', hcolumn'⟩ := linesFrom_line hmargin fuel hline hbs hrest hcolumn
        hnext (Or.inr rfl)
      have hfuel' : cs'.length < fuel := by
        simp only [List.length_append, List.length_cons] at hfuel
        omega
      have hlast' : ∃ b, cs'.getLast? = some b ∧ isBreak b = true := by
        refine ⟨last, ?_, hend⟩
        rw [← hlast, ← List.append_assoc, List.getLast?_append_of_ne_nil _ hnil]
      have hspecial' : ∀ n ∈ cs', isSpecial n = false := fun n hn => hspecial n (by simp [hn])
      rw [hstep]
      obtain ⟨m, hm, hended, hplace⟩ := ih (l := ⟨_, _, _, _, c⟩) hfuel' hspecial' hlast' hrest'
        hcolumn'
      refine ⟨m, hm, ?_, hplace⟩
      simpa using hended

end Lines

/-! ## Headers -/

/-- The mark of a chomping in a header. -/
def Chomping.mark : Chomping → List ℕ
  | .strip => [45]
  | .clip => []
  | .keep => [43]

theorem endLine?_of_rest {c : Cursor} {z : List ℕ} (h : c.rest = 10 :: z) :
    ∃ c', endLine? c = some c' ∧ c'.rest = z ∧ c'.column = 0 := by
  have hblanks : c.skipWhile isBlank = c := by
    rw [Cursor.skipWhile, h]
    simp [Cursor.skip, isBlank]
  have hpeek : c.peek = 10 := Cursor.peek_of_rest h
  refine ⟨c.nextLine, ?_, Cursor.rest_nextLine_of h (by decide), rfl⟩
  unfold endLine?
  simp [hblanks, hpeek, isBreak]

theorem header?_of_rest {c : Cursor} {z : List ℕ} {ch : Chomping}
    (h : c.rest = ch.mark ++ 10 :: z) :
    ∃ c', header? c = some (⟨ch, 0⟩, c') ∧ c'.rest = z ∧ c'.column = 0 := by
  have hline : ∀ d : Cursor, d.rest = 10 :: z → indentation? d = some (0, d) := by
    intro d hd
    simp [indentation?, Cursor.peek_of_rest hd, isDigit]
  have hmarked : ∀ n, chomping? n = some ch → c.rest = n :: 10 :: z →
      ∃ c', header? c = some (⟨ch, 0⟩, c') ∧ c'.rest = z ∧ c'.column = 0 := by
    intro n hn hrest
    have hskip : (c.skip 1).rest = 10 :: z := Cursor.rest_skip_of (w := [n]) hrest
    obtain ⟨c', hend, hplace⟩ := endLine?_of_rest hskip
    refine ⟨c', ?_, hplace⟩
    rw [header?, Cursor.peek_of_rest hrest, show (n :: 10 :: z).headD 0 = n from rfl, hn]
    simp [hline _ hskip, hend]
  cases ch with
  | strip => exact hmarked 45 rfl h
  | keep => exact hmarked 43 rfl h
  | clip =>
    have hrest : c.rest = 10 :: z := h
    obtain ⟨c', hend, hplace⟩ := endLine?_of_rest hrest
    refine ⟨c', ?_, hplace⟩
    have hpeek : c.peek = 10 := Cursor.peek_of_rest hrest
    have hnone : chomping? 10 = none := rfl
    simp [header?, hpeek, hnone, hline _ hrest, hend]

/-! ## Line breaks at the end -/

/-- The lines of a text that is printed as a block, the last one with a line break. -/
def fullLines (cs : List ℕ) : List ℕ := cs ++ if cs.getLast?.any isBreak then [] else [10]

/-- The chomping that a text is printed with. -/
def chompingOf (cs : List ℕ) : Chomping :=
  match cs.reverse with
  | [] => .strip
  | last :: before =>
    if !isBreak last then .strip
    else
      match before with
      | [] => .keep
      | n :: _ => if isBreak n then .keep else .clip

theorem chompMark_eq (cs : List ℕ) : (chompMark cs).map UInt8.toNat = (chompingOf cs).mark := by
  unfold chompMark chompingOf
  rcases cs.reverse with _ | ⟨last, _ | ⟨n, before⟩⟩
  · rfl
  · dsimp only
    split_ifs <;> rfl
  · dsimp only
    split_ifs <;> rfl

/-- One line break behind another character is all that is left out. -/
theorem Ended.of_single {front : List ℕ} {z x : ℕ} {l : Lines} (h : Ended (front ++ [z]) l)
    (hlast : front.getLast? = some x) (hx : isBreak x = false) :
    l.text = front ∧ l.lastBreak = [z] ∧ l.breaks = [] := by
  obtain ⟨b, hb, hbreak⟩ := h.last
  have hwhole := h.whole
  rw [hb] at hwhole ⊢
  rcases List.eq_nil_or_concat l.breaks with hnil | ⟨bs, z', hbs⟩
  · rw [hnil, List.append_nil] at hwhole
    obtain ⟨htext, hz⟩ := List.append_inj' hwhole rfl
    exact ⟨htext, hz, hnil⟩
  · -- otherwise the front would end with a line break
    rw [hbs, List.concat_eq_append, ← List.append_assoc, ← List.append_assoc] at hwhole
    obtain ⟨hfront, -⟩ := List.append_inj' hwhole rfl
    rw [← hfront, List.append_assoc, List.getLast?_append_of_ne_nil _ (by simp)] at hlast
    have hmem := List.mem_of_getLast? hlast
    rw [List.singleton_append, List.mem_cons] at hmem
    have : isBreak x = true := by
      rcases hmem with rfl | hmem
      · exact hbreak
      · exact h.breaks x (by simp [hbs, hmem])
    rw [hx] at this
    cases this

theorem Ended.chomped {cs : List ℕ} {l : Lines} (h : Ended (fullLines cs) l) (hne : cs ≠ []) :
    l.chomped (chompingOf cs) = cs := by
  obtain ⟨front, last, rfl⟩ : ∃ front last, cs = front ++ [last] :=
    ⟨_, _, (List.dropLast_append_getLast hne).symm⟩
  unfold fullLines at h
  have hlast : (front ++ [last]).getLast? = some last := by simp
  rw [hlast] at h
  by_cases hbreak : isBreak last = true
  · simp only [Option.any_some, hbreak, if_true, List.append_nil] at h
    rcases List.eq_nil_or_concat front with rfl | ⟨before, n, rfl⟩
    · have hkeep : chompingOf ([] ++ [last]) = .keep := by simp [chompingOf, hbreak]
      rw [hkeep, Lines.chomped, List.append_assoc, h.whole]
    · rw [List.concat_eq_append] at h ⊢
      by_cases hn : isBreak n = true
      · have hkeep : chompingOf (before ++ [n] ++ [last]) = .keep := by
          simp [chompingOf, hbreak, hn]
        rw [hkeep, Lines.chomped, List.append_assoc, h.whole]
      · have hclip : chompingOf (before ++ [n] ++ [last]) = .clip := by
          simp [chompingOf, hbreak, hn]
        obtain ⟨htext, hz, -⟩ := h.of_single (x := n) (by simp) (by simpa using hn)
        rw [hclip, Lines.chomped, htext, hz]
  · have hstrip : chompingOf (front ++ [last]) = .strip := by simp [chompingOf, hbreak]
    simp only [Option.any_some, hbreak] at h
    obtain ⟨htext, -, -⟩ := h.of_single hlast (by simpa using hbreak)
    rw [hstrip, Lines.chomped, htext]

/-! ## Block scalars -/

/-- The characters of a block scalar. A line break at its start ends the line of the header. -/
def printed (margin : ℕ) (cs : List ℕ) : List ℕ :=
  124 :: (if cs.head?.any fun n => isSpace n || isBreak n then [52] else []) ++ (chompingOf cs).mark
    ++ ((if cs.head?.any isBreak then [] else [10]) ++ lineChars margin true (fullLines cs))

theorem spells_blockLines (margin : ℕ) {cs : List ℕ} (h : ∀ n ∈ cs, IsLegible n) :
    Spells (blockLines (spaces margin) .lineStart cs) (lineChars margin true cs) ∧
      Spells (blockLines (spaces margin) .inLine cs) (lineChars margin false cs) := by
  induction cs with
  | nil => exact ⟨Spells.nil, Spells.nil⟩
  | cons n cs ih =>
    rw [List.forall_mem_cons] at h
    obtain ⟨hstart, hin⟩ := ih h.2
    have hn := Spells.encode h.1
    unfold blockLines lineChars
    by_cases hbreak : isBreak n = true
    · rw [if_pos hbreak, if_pos hbreak, if_pos hbreak, if_pos hbreak]
      exact ⟨hn.append hstart, hn.append hstart⟩
    · rw [if_neg hbreak, if_neg hbreak, if_neg hbreak, if_neg hbreak]
      refine ⟨?_, ?_⟩
      · have hline := ((spells_spaces margin).append hn).append hin
        rw [List.append_assoc (List.replicate margin 32)] at hline
        exact hline
      · exact hn.append hin

theorem lineChars_full (margin : ℕ) {cs : List ℕ} (hne : cs ≠ []) (fresh : Bool) :
    lineChars margin fresh (fullLines cs) =
      lineChars margin fresh cs ++ if cs.getLast?.any isBreak then [] else [10] := by
  unfold fullLines
  split_ifs with hlast
  · rw [List.append_nil, List.append_nil]
  · induction cs generalizing fresh with
    | nil => exact absurd rfl hne
    | cons n cs ih =>
      have htail : ∀ fresh, lineChars margin fresh (cs ++ [10]) =
          lineChars margin fresh cs ++ [10] := by
        cases cs with
        | nil =>
          intro fresh
          simp [lineChars, isBreak]
        | cons m cs =>
          exact fun fresh => ih (by simp) fresh (by simpa [List.getLast?_cons] using hlast)
      rw [List.cons_append, lineChars, lineChars, htail, htail]
      split_ifs <;> simp

theorem spells_printBlock (margin : ℕ) {cs : List ℕ} (hlegible : ∀ n ∈ cs, IsLegible n)
    (hne : cs ≠ []) : Spells (printBlock (spaces margin) cs) (printed margin cs) := by
  have hbar : Spells [124] [124] := Spells.literal [124] rfl
  have hhint : Spells (if cs.head?.any fun n => isSpace n || isBreak n then Text.ofNat step else [])
      (if cs.head?.any fun n => isSpace n || isBreak n then [52] else []) := by
    split_ifs
    · exact Spells.literal (Text.ofNat step) rfl
    · exact Spells.nil
  have hmark : Spells (chompMark cs) (chompingOf cs).mark := by
    rw [← chompMark_eq]
    refine Spells.ascii (isAscii_of_all ?_)
    unfold chompMark
    split
    · rfl
    · split_ifs
      · rfl
      · split
        · rfl
        · split_ifs <;> rfl
  have hlines : Spells (blockLines (spaces margin) .header cs)
      ((if cs.head?.any isBreak then [] else [10]) ++ lineChars margin true cs) := by
    have hstart := (spells_blockLines margin hlegible).1
    have hfeed : Spells [10] [10] := Spells.literal [10] rfl
    obtain ⟨n, cs, rfl⟩ := List.exists_cons_of_ne_nil hne
    by_cases hbreak : isBreak n = true
    · simpa [blockLines, hbreak] using hstart
    · simpa [blockLines, hbreak] using hfeed.append hstart
  have hend : Spells (if cs.getLast?.any isBreak then [] else [10])
      (if cs.getLast?.any isBreak then [] else [10]) := by
    split_ifs
    · exact Spells.nil
    · exact Spells.literal [10] rfl
  have h := (((hbar.append hhint).append hmark).append hlines).append hend
  unfold printBlock blockScalar blockHeader printed
  rw [lineChars_full margin hne]
  simpa using h

theorem getLast?_lineChars (margin : ℕ) (cs : List ℕ) (fresh : Bool) :
    (lineChars margin fresh cs).getLast? = cs.getLast? := by
  induction cs generalizing fresh with
  | nil => rfl
  | cons n cs ih =>
    rw [lineChars, List.getLast?_cons]
    split_ifs
    · rw [List.getLast?_cons, ih]
    · rw [List.getLast?_append, List.getLast?_cons, ih]
      rfl
    · rw [List.nil_append, List.getLast?_cons, ih]

theorem getLast?_fullLines (cs : List ℕ) :
    ∃ b, (fullLines cs).getLast? = some b ∧ isBreak b = true := by
  unfold fullLines
  split_ifs with hbreak
  · rw [List.append_nil]
    cases hb : cs.getLast? with
    | none => simp [hb] at hbreak
    | some b => exact ⟨b, rfl, by simpa [hb] using hbreak⟩
  · exact ⟨10, by simp, rfl⟩

theorem getLast?_printed (margin : ℕ) (cs : List ℕ) :
    ∃ b, (printed margin cs).getLast? = some b ∧ isBreak b = true := by
  obtain ⟨b, hlast, hb⟩ := getLast?_fullLines cs
  refine ⟨b, ?_, hb⟩
  unfold printed
  rw [List.getLast?_append, List.getLast?_append, getLast?_lineChars, hlast]
  rfl

/-- A text that is printed as a block and does not start with a blank or a line break is read back,
if the next row is at the indentation of the collection around, or at a smaller one. -/
theorem read_printed {outer margin k : ℕ} (hmargin : outer < margin) (hk : k ≤ outer)
    {cs r : List ℕ} (hr : Fresh r) (hspecial : ∀ n ∈ cs, isSpecial n = false)
    (hhead : ∃ n, cs.head? = some n ∧ isGap n = false) {c : Cursor}
    (hrest : c.rest = printed margin cs ++ (List.replicate k 32 ++ r)) :
    ∃ c', read false outer (outer + 1) c = some (cs, c') ∧ c'.rest = r ∧ c'.column = k := by
  obtain ⟨n, hn, hgap⟩ := hhead
  have hne : cs ≠ [] := by
    rintro rfl
    cases hn
  simp only [isGap, isBreakOrEnd, Bool.or_eq_false_iff] at hgap
  have hfull : (fullLines cs).head? = some n := by
    unfold fullLines
    rw [List.head?_append, hn]
    rfl
  have hfullne : fullLines cs ≠ [] := by
    intro hnil
    rw [hnil] at hfull
    cases hfull
  have hspecial' : ∀ n ∈ fullLines cs, isSpecial n = false := by
    unfold fullLines
    intro m hm
    rcases List.mem_append.mp hm with hm | hm
    · exact hspecial m hm
    · split_ifs at hm
      · simp at hm
      · rw [List.mem_singleton.mp hm]
        rfl
  have hfresh : ∀ m ∈ (fullLines cs).head?, isBreak m = false := by
    rw [hfull]
    simpa using hgap.2.1
  -- the header, the first margin and the lines, one after the other
  have hhead : (c.skip 1).rest = (chompingOf cs).mark ++ 10 ::
      (lineChars margin true (fullLines cs) ++ (List.replicate k 32 ++ r)) := by
    refine Cursor.rest_skip_of (w := [124]) ?_
    have hspace : isSpace n = false := (Bool.or_eq_false_iff.mp hgap.1).1
    rw [hrest, printed, hn]
    simp [hspace, hgap.2.1]
  obtain ⟨c₁, hheader, hrest₁, hcolumn₁⟩ := header?_of_rest hhead
  rw [lineChars_fresh margin hfresh, if_neg hfullne, List.append_assoc] at hrest₁
  have hpeek : (lineChars margin false (fullLines cs) ++ (List.replicate k 32 ++ r)).headD 0 =
      n := by
    obtain ⟨full, hcons⟩ := List.head?_eq_some_iff.mp hfull
    rw [hcons, lineChars, hgap.2.1]
    rfl
  have hempty : empty? 0 c₁ = some ⟨[], max 0 margin, c₁.skip margin⟩ :=
    emptyFrom_stop _ 0 [] hrest₁ hcolumn₁ (by rw [hpeek]; exact hgap.2.1)
      (Or.inl ⟨by rw [hpeek]; exact hgap.1, Or.inl rfl⟩)
  have hindent : max (max 0 margin) (max (outer + 1) 1) = margin := by omega
  have hlength : (fullLines cs).length < c₁.rest.length + 1 := by
    have hle := length_le_lineChars margin (fullLines cs) false
    rw [hrest₁]
    simp only [List.length_append]
    omega
  obtain ⟨l, hlines, hended, hplace⟩ := linesFrom_eq (by omega) (by omega) hr (c₁.rest.length + 1)
    (l := ⟨[], [], [], false, c₁.skip margin⟩) hlength hspecial' (getLast?_fullLines cs)
    (Cursor.rest_skip_spaces hrest₁) (by show c₁.column + margin = margin; omega)
  refine ⟨l.cursor, ?_, hplace⟩
  rw [read, hheader]
  simp only [if_true, hempty, hindent, hlines]
  rw [Ended.chomped (by simpa using hended) hne]

end ImportBlock.Yaml.Block
