import ImportBlock.Proofs.Yaml.BlockScalars

/-!
# What follows a block scalar

A block scalar that is read to the end of its lines is read in the same way when a row follows that
is indented by less (`Block.read_beside`). The two runs are compared place by place: as long as
lines of the scalar are left, the second run sees the same characters (`Block.Beside`), and once
they are over it stands in front of that row (`Block.Behind`).
-/

namespace ImportBlock.Yaml.Block

/-! ## Places -/

/-- Two places with the same lines in front, of which the second has more behind them, and stands
`a` columns further right. -/
structure Beside (y : List ℕ) (a : ℕ) (c d : Cursor) : Prop where
  rest : d.rest = c.rest ++ y
  column : d.column = c.column + a
  last : ∃ b, c.rest.getLast? = some b ∧ isBreak b = true

/-- Two places behind these lines. -/
structure Behind (y : List ℕ) (c d : Cursor) : Prop where
  nil : c.rest = []
  column : c.column = 0
  rest' : d.rest = y
  column' : d.column = 0

variable {y : List ℕ} {a : ℕ} {c d : Cursor}

namespace Beside

theorem ne_nil (h : Beside y a c d) : c.rest ≠ [] := by
  obtain ⟨b, hb, -⟩ := h.last
  rintro hnil
  simp [hnil] at hb

theorem peek (h : Beside y a c d) : d.peek = c.peek := by
  obtain ⟨n, rest, hrest⟩ := List.exists_cons_of_ne_nil h.ne_nil
  rw [Cursor.peek, Cursor.peek, h.rest, hrest]
  rfl

theorem lineBreak (h : Beside y a c d) : d.lineBreak = c.lineBreak := by
  rw [Cursor.lineBreak, h.peek, Cursor.lineBreak]

theorem isEmpty (h : Beside y a c d) : c.rest.isEmpty = false ∧ d.rest.isEmpty = false := by
  have hne := h.ne_nil
  rw [h.rest]
  simp [hne]

theorem skip (h : Beside y a c d) {n : ℕ} (hn : n < c.rest.length) :
    Beside y a (c.skip n) (d.skip n) where
  rest := by
    show d.rest.drop n = c.rest.drop n ++ y
    rw [h.rest, List.drop_append_of_le_length (by omega)]
  column := by
    show d.column + n = c.column + n + a
    rw [h.column]
    omega
  last := by
    show ∃ b, (c.rest.drop n).getLast? = some b ∧ _
    rw [List.getLast?_drop, if_neg (by omega)]
    exact h.last

theorem length_takeWhile (h : Beside y a c d) {p : ℕ → Bool}
    (hp : ∀ b, isBreak b = true → p b = false) :
    (c.rest.takeWhile p).length < c.rest.length ∧ d.rest.takeWhile p = c.rest.takeWhile p := by
  obtain ⟨b, hlast, hb⟩ := h.last
  obtain ⟨front, hfront⟩ := List.getLast?_eq_some_iff.mp hlast
  rw [h.rest, hfront, List.append_assoc, List.singleton_append]
  have hcut : ∀ z, (front ++ b :: z).takeWhile p = front.takeWhile p := by
    intro z
    by_cases hall : ∀ n ∈ front, p n = true
    · rw [List.takeWhile_append_of_pos hall, List.takeWhile_cons_of_neg (by simp [hp b hb]),
        List.append_nil, List.takeWhile_eq_self_iff.mpr hall]
    · rw [List.takeWhile_append, if_neg]
      intro hlen
      refine hall (List.takeWhile_eq_self_iff.mp ?_)
      exact (List.takeWhile_prefix p).eq_of_length hlen
  rw [hcut, hcut]
  refine ⟨?_, rfl⟩
  have := (List.takeWhile_prefix p (l := front)).length_le
  rw [List.length_append, List.length_singleton]
  omega

theorem skipWhile (h : Beside y a c d) {p : ℕ → Bool} (hp : ∀ b, isBreak b = true → p b = false) :
    Beside y a (c.skipWhile p) (d.skipWhile p) := by
  obtain ⟨hlen, htake⟩ := h.length_takeWhile hp
  unfold Cursor.skipWhile
  rw [htake]
  exact h.skip hlen

theorem skip_one (h : Beside y a c d) (hpeek : isBreak c.peek = false) :
    Beside y a (c.skip 1) (d.skip 1) := by
  refine h.skip ?_
  obtain ⟨b, hlast, hb⟩ := h.last
  obtain ⟨n, _ | ⟨m, rest⟩, hrest⟩ := List.exists_cons_of_ne_nil h.ne_nil
  · rw [Cursor.peek, hrest] at hpeek
    rw [hrest] at hlast
    obtain rfl : n = b := by simpa using hlast
    rw [show [n].headD 0 = n from rfl, hb] at hpeek
    cases hpeek
  · simp [hrest]

theorem nextLine (h : Beside y a c d) (hy : y.headD 0 ≠ 10) :
    Beside y 0 c.nextLine d.nextLine ∨ Behind y c.nextLine d.nextLine := by
  have hwidth : Cursor.breakWidth d.rest = Cursor.breakWidth c.rest := by
    rw [h.rest]
    obtain ⟨n, _ | ⟨m, rest⟩, hrest⟩ := List.exists_cons_of_ne_nil h.ne_nil
    · rw [hrest]
      cases y with
      | nil => rfl
      | cons m y =>
        have hm : m ≠ 10 := hy
        simp only [Cursor.breakWidth, List.singleton_append]
        split
        · next heq => simp_all
        · rfl
    · rw [hrest]
      simp only [Cursor.breakWidth, List.cons_append]
      split <;> split <;> simp_all
  have hle : Cursor.breakWidth c.rest ≤ c.rest.length := by
    have hne := List.length_pos_iff.mpr h.ne_nil
    unfold Cursor.breakWidth
    split
    · next heq => simp [heq]
    · exact hne
  rcases Nat.lt_or_eq_of_le hle with hlt | heq
  · left
    have hskip := h.skip hlt
    refine ⟨?_, rfl, hskip.last⟩
    show d.rest.drop _ = _
    rw [hwidth]
    exact hskip.rest
  · right
    refine ⟨?_, rfl, ?_, rfl⟩
    · show c.rest.drop _ = _
      rw [heq, List.drop_length]
    · show d.rest.drop _ = _
      rw [hwidth, heq, h.rest, List.drop_left]

theorem length_nextLine (h : Beside y a c d) : c.nextLine.rest.length < c.rest.length := by
  have hpos := List.length_pos_iff.mpr h.ne_nil
  have hwidth : 0 < Cursor.breakWidth c.rest := by
    unfold Cursor.breakWidth
    split <;> decide
  show (c.rest.drop _).length < _
  rw [List.length_drop]
  omega

end Beside

theorem length_le_of_beside (h : Beside y a c d ∨ Behind y c d) :
    c.rest.length ≤ d.rest.length := by
  rcases h with h | h
  · rw [h.rest, List.length_append]
    omega
  · rw [h.nil]
    exact Nat.zero_le _

/-- Lines that are read alike, with what follows the scalar behind the second. -/
def Alike (l l' : Lines) : Prop :=
  l'.text = l.text ∧ l'.lastBreak = l.lastBreak ∧ l'.breaks = l.breaks ∧ l'.isBlank = l.isBlank

theorem Alike.joined {l l' : Lines} (h : Alike l l') (folded blank : Bool) :
    l'.joined folded blank = l.joined folded blank := by
  obtain ⟨htext, hlast, hbreaks, hblank⟩ := h
  rw [Lines.joined, Lines.joined, htext, hlast, hbreaks, hblank]

theorem Alike.chomped {l l' : Lines} (h : Alike l l') (ch : Chomping) :
    l'.chomped ch = l.chomped ch := by
  obtain ⟨htext, hlast, hbreaks, -⟩ := h
  cases ch <;> simp [Lines.chomped, htext, hlast, hbreaks]

/-! ## Readers -/

theorem indentation?_beside (h : Beside y a c d) {n : ℕ} {c' : Cursor}
    (hc : indentation? c = some (n, c')) :
    ∃ d', indentation? d = some (n, d') ∧ Beside y a c' d' := by
  unfold indentation? at hc ⊢
  rw [h.peek]
  split_ifs at hc ⊢ with hzero hdigit
  · cases hc
    refine ⟨_, rfl, h.skip_one ?_⟩
    simp only [isDigit, Bool.and_eq_true, decide_eq_true_eq] at hdigit
    rw [Bool.eq_false_iff, Ne, isBreak_iff]
    omega
  · cases hc
    exact ⟨_, rfl, h⟩

theorem isBreak_of_chomping? {n : ℕ} {ch : Chomping} (h : chomping? n = some ch) :
    isBreak n = false := by
  unfold chomping? at h
  split_ifs at h with hplus hminus
  · rw [hplus]
    rfl
  · rw [hminus]
    rfl

section Following

variable {k : ℕ} {r : List ℕ} (hr : Fresh r)

include hr

theorem headD_margin : (List.replicate k 32 ++ r).headD 0 ≠ 10 := by
  cases k with
  | zero =>
    intro h
    have hbreak := hr.2
    rw [show r.headD 0 = 10 from h] at hbreak
    cases hbreak
  | succ k => simp [List.replicate_succ]

/-- Empty lines are read alike, whatever follows the lines of a scalar. -/
theorem emptyFrom_beside {indent : ℕ} (hk : indent = 0 ∨ k ≤ indent) (fuel : ℕ)
    {fuel' most : ℕ} {breaks : List ℕ} {e : Empty}
    (h : Beside (List.replicate k 32 ++ r) 0 c d ∨ Behind (List.replicate k 32 ++ r) c d)
    (hfuel : c.rest.length < fuel) (hfuel' : c.rest.length < fuel')
    (he : emptyFrom indent fuel breaks most c = some e) :
    ∃ e', emptyFrom indent fuel' breaks most d = some e' ∧ e'.breaks = e.breaks ∧
      (Beside (List.replicate k 32 ++ r) 0 e.cursor e'.cursor ∧ e'.most = e.most ∨
        e.cursor.rest = [] ∧ e'.cursor.rest = r ∧ e'.cursor.column = k ∧
          e'.most = max e.most k) := by
  induction fuel generalizing fuel' most breaks c d with
  | zero => omega
  | succ fuel ih =>
    obtain ⟨fuel', rfl⟩ : ∃ f, fuel' = f + 1 := ⟨fuel' - 1, by omega⟩
    rcases h with h | h
    · obtain ⟨hlen, htake⟩ := h.length_takeWhile (p := fun n => n == 32)
        (by
          intro b hb
          rw [isBreak_iff] at hb
          rw [beq_eq_false_iff_ne]
          omega)
      rw [emptyFrom] at he ⊢
      rw [htake, h.column, Nat.add_zero]
      generalize hj : (if indent = 0 then _ else _) = j at he ⊢
      have hskip : Beside (List.replicate k 32 ++ r) 0 (c.skip j) (d.skip j) := by
        refine h.skip ?_
        rw [← hj]
        split_ifs <;> omega
      rw [hskip.peek, hskip.lineBreak, hskip.column, Nat.add_zero]
      split_ifs at he ⊢ with htab hbreak
      · have hless := hskip.length_nextLine
        have hle : (c.skip j).rest.length ≤ c.rest.length := by
          show (c.rest.drop j).length ≤ _
          rw [List.length_drop]
          omega
        exact ih (hskip.nextLine (headD_margin hr)) (by omega) (by omega) he
      · obtain rfl := Option.some.inj he
        exact ⟨_, rfl, rfl, Or.inl ⟨hskip, rfl⟩⟩
    · have hhere : emptyFrom indent (fuel + 1) breaks most c =
          some ⟨breaks, max most 0, c.skip 0⟩ :=
        emptyFrom_stop fuel most breaks h.nil h.column rfl (Or.inl ⟨rfl, by omega⟩)
      rw [hhere] at he
      obtain rfl := Option.some.inj he
      refine ⟨_, emptyFrom_stop _ _ _ h.rest' h.column' hr.2 (Or.inl ⟨hr.1, hk⟩), rfl,
        Or.inr ⟨?_, ?_, ?_, ?_⟩⟩
      · show c.rest.drop 0 = []
        rw [h.nil]
        rfl
      · exact Cursor.rest_skip_spaces h.rest'
      · show d.column + k = k
        rw [h.column', Nat.zero_add]
      · simp

theorem empty?_beside {indent : ℕ} (hk : indent = 0 ∨ k ≤ indent) {e : Empty}
    (h : Beside (List.replicate k 32 ++ r) 0 c d ∨ Behind (List.replicate k 32 ++ r) c d)
    (he : empty? indent c = some e) :
    ∃ e', empty? indent d = some e' ∧ e'.breaks = e.breaks ∧
      (Beside (List.replicate k 32 ++ r) 0 e.cursor e'.cursor ∧ e'.most = e.most ∨
        e.cursor.rest = [] ∧ e'.cursor.rest = r ∧ e'.cursor.column = k ∧
          e'.most = max e.most k) := by
  have hle := length_le_of_beside h
  exact emptyFrom_beside hr hk _ h (Nat.lt_succ_self _) (Nat.lt_succ_of_le hle) he

/-- The lines of a scalar are read alike, whatever follows them at a smaller indentation. -/
theorem linesFrom_beside {folded : Bool} {indent : ℕ} (hk : k < indent) (fuel : ℕ) {fuel' : ℕ}
    (hfuel : fuel ≤ fuel') {l l' m : Lines} (halike : Alike l l')
    (h : Beside (List.replicate k 32 ++ r) 0 l.cursor l'.cursor ∨
      l.cursor.rest = [] ∧ l'.cursor.rest = r ∧ l'.cursor.column = k)
    (hm : linesFrom folded indent fuel l = some m) (hend : m.cursor.rest = []) :
    ∃ m', linesFrom folded indent fuel' l' = some m' ∧ Alike m m' ∧ m'.cursor.rest = r ∧
      m'.cursor.column = k := by
  induction fuel generalizing fuel' l l' with
  | zero =>
    obtain rfl : l = m := Option.some.inj hm
    rcases h with h | ⟨hnil, hrest, hcolumn⟩
    · exact absurd hend h.ne_nil
    · exact ⟨l', linesFrom_behind hk fuel' hcolumn, halike, hrest, hcolumn⟩
  | succ fuel ih =>
    obtain ⟨fuel', rfl⟩ : ∃ f, fuel' = f + 1 := ⟨fuel' - 1, by omega⟩
    rcases h with h | ⟨hnil, hrest, hcolumn⟩
    · rw [linesFrom] at hm ⊢
      rw [h.isEmpty.1] at hm
      rw [h.isEmpty.2, h.column, Nat.add_zero]
      cases hc : l.cursor.column != indent with
      | true =>
        rw [hc] at hm
        obtain rfl : l = m := Option.some.inj hm
        exact absurd hend h.ne_nil
      | false =>
        rw [hc] at hm
        obtain ⟨hlen, htake⟩ := h.length_takeWhile (p := fun n => !isBreakOrEnd n)
          (by intro b hb; simp [isBreakOrEnd, hb])
        have hskip := h.skip hlen
        simp only [Bool.or_self, Bool.false_eq_true, if_false] at hm ⊢
        rw [htake, h.peek, halike.joined, hskip.peek, hskip.lineBreak]
        generalize hplace : (if isBreak _ = true then Cursor.nextLine _ else _) = c at hm
        generalize hplace' : (if isBreak _ = true then Cursor.nextLine _ else _) = d
        have hcd : Beside (List.replicate k 32 ++ r) 0 c d ∨
            Behind (List.replicate k 32 ++ r) c d := by
          rw [← hplace, ← hplace']
          split_ifs
          · exact hskip.nextLine (headD_margin hr)
          · exact Or.inl hskip
        cases he : empty? indent c with
        | none =>
          rw [he] at hm
          cases hm
        | some e =>
          rw [he] at hm
          obtain ⟨e', he', hbreaks, hcases⟩ := empty?_beside hr (Or.inr (Nat.le_of_lt hk)) hcd he
          rw [he']
          refine ih (Nat.le_of_succ_le_succ hfuel) ?_ ?_ hm
          · exact ⟨rfl, rfl, hbreaks, rfl⟩
          · rcases hcases with ⟨hbeside, -⟩ | ⟨hnil, hrest, hcolumn, -⟩
            · exact Or.inl hbeside
            · exact Or.inr ⟨hnil, hrest, hcolumn⟩
    · have hhere : linesFrom folded indent (fuel + 1) l = some l := by
        rw [linesFrom, hnil]
        simp
      rw [hhere] at hm
      obtain rfl := Option.some.inj hm
      exact ⟨l', linesFrom_behind hk _ hcolumn, halike, hrest, hcolumn⟩

theorem endLine?_beside (h : Beside (List.replicate k 32 ++ r) a c d) {c' : Cursor}
    (hc : endLine? c = some c') :
    ∃ d', endLine? d = some d' ∧ (Beside (List.replicate k 32 ++ r) 0 c' d' ∨
      Behind (List.replicate k 32 ++ r) c' d') := by
  unfold endLine? at hc ⊢
  have hblanks := h.skipWhile (p := isBlank) (by
    intro b hb
    rw [isBreak_iff] at hb
    rw [isBlank, Bool.or_eq_false_iff, beq_eq_false_iff_ne, beq_eq_false_iff_ne]
    omega)
  simp only [hblanks.peek] at hc ⊢
  generalize hplace : (if (Cursor.peek _ == 35) = true then _ else _) = c₁ at hc
  generalize hplace' : (if (Cursor.peek _ == 35) = true then _ else _) = d₁
  have hab : Beside (List.replicate k 32 ++ r) a c₁ d₁ := by
    rw [← hplace, ← hplace']
    split_ifs
    · exact hblanks.skipWhile (by intro b hb; simp [isBreakOrEnd, hb])
    · exact hblanks
  rw [hab.peek, hab.isEmpty.2]
  rw [hab.isEmpty.1] at hc
  rw [if_neg Bool.false_ne_true] at hc ⊢
  split_ifs at hc ⊢ with hbreak
  obtain rfl := Option.some.inj hc
  exact ⟨_, rfl, hab.nextLine (headD_margin hr)⟩

theorem header?_beside (h : Beside (List.replicate k 32 ++ r) a c d) {head : Header} {c' : Cursor}
    (hc : header? c = some (head, c')) :
    ∃ d', header? d = some (head, d') ∧ (Beside (List.replicate k 32 ++ r) 0 c' d' ∨
      Behind (List.replicate k 32 ++ r) c' d') := by
  -- whatever the marks are, the rest of the line comes after them
  have hline : ∀ {c₁ d₁ : Cursor} {head₁ : Header}, Beside (List.replicate k 32 ++ r) a c₁ d₁ →
      ((endLine? c₁).map fun c => (head₁, c)) = some (head, c') →
      ∃ d', ((endLine? d₁).map fun c => (head₁, c)) = some (head, d') ∧
        (Beside (List.replicate k 32 ++ r) 0 c' d' ∨ Behind (List.replicate k 32 ++ r) c' d') := by
    intro c₁ d₁ head₁ hbeside hmap
    obtain ⟨c₂, hend, heq⟩ := Option.map_eq_some_iff.mp hmap
    cases heq
    obtain ⟨d₂, hd₂, hplace⟩ := endLine?_beside hr hbeside hend
    exact ⟨d₂, by rw [hd₂]; rfl, hplace⟩
  unfold header? at hc ⊢
  rw [h.peek]
  cases hch : chomping? c.peek with
  | some ch =>
    simp only [hch] at hc ⊢
    cases hi : indentation? (c.skip 1) with
    | none => simp [hi] at hc
    | some p =>
      obtain ⟨n, c₁⟩ := p
      obtain ⟨d₁, hd₁, hbeside⟩ := indentation?_beside (h.skip_one (isBreak_of_chomping? hch)) hi
      simp only [hi, hd₁] at hc ⊢
      exact hline hbeside hc
  | none =>
    simp only [hch] at hc ⊢
    cases hi : indentation? c with
    | none => simp [hi] at hc
    | some p =>
      obtain ⟨n, c₁⟩ := p
      obtain ⟨d₁, hd₁, hbeside⟩ := indentation?_beside h hi
      simp only [hi, hd₁, hbeside.peek] at hc ⊢
      cases hch' : chomping? c₁.peek with
      | some ch =>
        simp only [hch'] at hc ⊢
        exact hline (hbeside.skip_one (isBreak_of_chomping? hch')) hc
      | none =>
        simp only [hch'] at hc ⊢
        exact hline hbeside hc

/-- A block scalar is read alike, whatever follows it at the indentation of the collection it lies
in, or at a smaller one. -/
theorem read_beside {folded : Bool} {outer : ℕ} (hk : k ≤ outer) {text : List ℕ} {c' : Cursor}
    (h : Beside (List.replicate k 32 ++ r) a c d) (hmark : isBreak c.peek = false)
    (hc : read folded outer (outer + 1) c = some (text, c')) (hend : c'.rest = []) :
    ∃ d', read folded outer (outer + 1) d = some (text, d') ∧ d'.rest = r ∧ d'.column = k := by
  unfold read at hc ⊢
  cases hh : header? (c.skip 1) with
  | none => simp [hh] at hc
  | some p =>
    obtain ⟨head, c₁⟩ := p
    obtain ⟨d₁, hd₁, hplace⟩ := header?_beside hr (h.skip_one hmark) hh
    simp only [hh, hd₁] at hc ⊢
    generalize hgiven : (if head.indentation = 0 then 0 else outer + head.indentation) = given
      at hc ⊢
    have hsmall : given = 0 ∨ k < given := by
      rw [← hgiven]
      split_ifs <;> omega
    cases he : empty? given c₁ with
    | none => simp [he] at hc
    | some e =>
      obtain ⟨e', he', hbreaks, hcases⟩ :=
        empty?_beside hr (hsmall.imp_right Nat.le_of_lt) hplace he
      have hindent : (if given = 0 then max e'.most (max (outer + 1) 1) else given) =
          if given = 0 then max e.most (max (outer + 1) 1) else given := by
        rcases hcases with ⟨-, hmost⟩ | ⟨-, -, -, hmost⟩
        · rw [hmost]
        · rw [hmost]
          split_ifs <;> omega
      simp only [he, he', hindent] at hc ⊢
      have hdeep : k < if given = 0 then max e.most (max (outer + 1) 1) else given := by
        split_ifs <;> omega
      generalize (if given = 0 then max e.most (max (outer + 1) 1) else given) = indent
        at hc hdeep ⊢
      cases hl : linesFrom folded indent (c₁.rest.length + 1)
        ⟨[], [], e.breaks, false, e.cursor⟩ with
      | none => simp [hl] at hc
      | some l =>
        simp only [hl, Option.some.injEq, Prod.mk.injEq] at hc
        obtain ⟨rfl, rfl⟩ := hc
        have halike : Alike ⟨[], [], e.breaks, false, e.cursor⟩
            ⟨[], [], e'.breaks, false, e'.cursor⟩ := ⟨rfl, rfl, hbreaks, rfl⟩
        obtain ⟨l', hl', halike, hrest, hcolumn⟩ := linesFrom_beside hr hdeep _
          (Nat.succ_le_succ (length_le_of_beside hplace)) halike
          (hcases.imp And.left fun h => ⟨h.1, h.2.1, h.2.2.1⟩) hl hend
        rw [hl', ← halike.chomped]
        exact ⟨_, rfl, hrest, hcolumn⟩

end Following

end ImportBlock.Yaml.Block
