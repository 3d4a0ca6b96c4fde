import ImportBlock.Proofs.Yaml.PlainScalars
import ImportBlock.Yaml.Scan

/-!
# Steps of the scanner

Between two tokens outside of brackets the scan is `Ready`, and the gap in front of its cursor
lands at the next token (`Lands`). A step that reads one token there keeps this
(`leads_of_token?`), so steps are put together by `Leads.trans`, without a look at the state in
between.

A scalar is described by what it makes of any such state: `ReadsAs outer x us` says that the
characters `x` are read as the tokens `us` wherever a value may stand in a collection that is
indented by `outer` columns. This holds of scalars between quotes, without quotes and in blocks, as
soon as their own readers read them.
-/

namespace ImportBlock.Yaml

namespace Mark

theorem tag?_binary {c : Cursor} {r : List ℕ}
    (h : c.rest = [33, 33, 98, 105, 110, 97, 114, 121] ++ 32 :: r) :
    ∃ c', tag? c = some (.tag [33, 33] "binary", c') ∧ c'.rest = 32 :: r ∧
      c'.column = c.column + 8 := by
  rcases c with ⟨rest, index, line, column⟩
  obtain rfl : rest = _ := h
  exact ⟨_, rfl, rfl, rfl⟩

end Mark

namespace Scan

/-! ## Gaps between tokens -/

theorem takeWhile_spaces {p : ℕ → Bool} (hp : p 32 = true) {j : ℕ} {r : List ℕ}
    (hr : p (r.headD 0) = false) :
    (List.replicate j 32 ++ r).takeWhile p = List.replicate j 32 := by
  rw [List.takeWhile_append_of_pos (by simp [hp])]
  cases r with
  | nil => simp
  | cons n r =>
    have hn : p n = false := hr
    simp [hn]

/-- What can follow a gap: neither a gap nor a comment. -/
def Starts (r : List ℕ) : Prop := Fresh r ∧ r.headD 0 ≠ 35

instance (r : List ℕ) : Decidable (Starts r) := inferInstanceAs (Decidable ((_ ∧ _) ∧ _))

theorem skipGap_spaces {j : ℕ} {r : List ℕ} {c : Cursor} (h : c.rest = List.replicate j 32 ++ r)
    (hr : Starts r) (fuel : ℕ) (inFlow allowed : Bool) :
    skipGap inFlow 0 (fuel + 1) allowed c = (allowed, c.skip j) := by
  have hblank := hr.1.1
  simp only [isBlank, Bool.or_eq_false_iff] at hblank
  have hwhile : (c.skipWhile fun n => n == 32 || ((inFlow || !allowed) && n == 9)) = c.skip j := by
    rw [Cursor.skipWhile, h, takeWhile_spaces (by simp) (by rw [hblank.1, hblank.2]; simp),
      List.length_replicate]
  have hpeek := Cursor.peek_of_rest (Cursor.rest_skip_spaces h)
  have hcomment : (r.headD 0 == 35) = false := by simpa using hr.2
  rw [skipGap]
  simp only [Nat.not_lt_zero, decide_false, Bool.and_false, Bool.false_and, Bool.false_eq_true,
    if_false, hwhile, hpeek, hcomment, hr.1.2]

theorem skipGap_line {r : List ℕ} {c : Cursor} (h : c.rest = 10 :: r) (fuel : ℕ) (allowed : Bool) :
    skipGap false 0 (fuel + 1) allowed c = skipGap false 0 fuel true c.nextLine := by
  have hwhile : (c.skipWhile fun n => n == 32 || ((false || !allowed) && n == 9)) = c := by
    rw [Cursor.skipWhile, h]
    simp [Cursor.skip]
  have hpeek : c.peek = 10 := Cursor.peek_of_rest h
  rw [skipGap]
  simp only [Nat.not_lt_zero, decide_false, Bool.and_false, Bool.false_and, Bool.false_eq_true,
    if_false, hwhile, hpeek]
  simp [hpeek, isBreak]

theorem getD_length_takeWhile (p : ℕ → Bool) (l : List ℕ) :
    l.getD (l.takeWhile p).length 0 = (l.dropWhile p).headD 0 := by
  induction l with
  | nil => rfl
  | cons n l ih =>
    by_cases hn : p n = true
    · rw [List.takeWhile_cons_of_pos hn, List.dropWhile_cons_of_pos hn, ← ih]
      rfl
    · rw [List.takeWhile_cons_of_neg hn, List.dropWhile_cons_of_neg hn]
      rfl

theorem skipLineComment_eq {c : Cursor} (h : (c.rest.dropWhile isBlank).headD 0 ≠ 35) :
    skipLineComment c = c := by
  have hpeek : c.peekAt (c.rest.takeWhile isBlank).length ≠ 35 := by
    rw [Cursor.peekAt, getD_length_takeWhile]
    exact h
  unfold skipLineComment
  simp [hpeek]

/-- The gap at the cursor leads to `r` at a column; the flag tells whether a key may start there. -/
def Lands (s : Scan) (allowed : Bool) (column : ℕ) (r : List ℕ) : Prop :=
  ∃ c : Cursor, c.rest = r ∧ c.column = column ∧ r.length ≤ s.cursor.rest.length ∧
    ∀ fuel, s.cursor.rest.length < fuel →
      skipGap false 0 fuel s.keyAllowed s.cursor = (allowed, c)

theorem lands_spaces {s : Scan} {j : ℕ} {r : List ℕ} (h : s.cursor.rest = List.replicate j 32 ++ r)
    (hr : Starts r) : s.Lands s.keyAllowed (s.cursor.column + j) r := by
  refine ⟨s.cursor.skip j, Cursor.rest_skip_spaces h, rfl, by simp [h], fun fuel hfuel => ?_⟩
  obtain ⟨fuel, rfl⟩ := Nat.exists_eq_add_of_lt hfuel
  rw [skipGap_spaces h hr]

theorem lands_line {s : Scan} {k : ℕ} {r : List ℕ}
    (h : s.cursor.rest = 10 :: (List.replicate k 32 ++ r)) (hr : Starts r) : s.Lands true k r := by
  have hnext : s.cursor.nextLine.rest = List.replicate k 32 ++ r :=
    Cursor.rest_nextLine_of h (by decide)
  refine ⟨s.cursor.nextLine.skip k, Cursor.rest_skip_spaces hnext, Nat.zero_add k, ?_, ?_⟩
  · rw [h, List.length_cons, List.length_append]
    omega
  · intro fuel hfuel
    rw [h, List.length_cons] at hfuel
    obtain ⟨fuel, rfl⟩ : ∃ f, fuel = f + 1 + 1 := ⟨fuel - 2, by omega⟩
    rw [skipGap_line h, skipGap_spaces hnext hr]

/-! ## Tokens one after the other -/

/-- The scan with the cursor moved over a gap. -/
def landed (s : Scan) (allowed : Bool) (c : Cursor) : Scan :=
  { s with cursor := c, keyAllowed := allowed }

/-- What holds between two tokens outside of brackets. -/
structure Ready (s : Scan) (ts : List Token) (indents : List ℕ) : Prop where
  tokens : s.tokens = ts.reverse
  count : s.count = ts.length
  taken : s.taken ≤ ts.length
  depth : s.depth = 1
  levels : ∃ l, s.levels = [l]
  indents : s.indents = indents
  markReach : s.markReach = 0
  isBroken : s.isBroken = false

theorem Ready.inFlow {s : Scan} {ts : List Token} {I : List ℕ} (h : s.Ready ts I) :
    s.inFlow = false := by
  obtain ⟨l, hlevels⟩ := h.levels
  simp [Scan.inFlow, hlevels]

theorem Ready.landed {s : Scan} {ts : List Token} {I : List ℕ} (h : s.Ready ts I) (allowed : Bool)
    (c : Cursor) : (s.landed allowed c).Ready ts I :=
  ⟨h.tokens, h.count, h.taken, h.depth, h.levels, h.indents, h.markReach, h.isBroken⟩

theorem firstAwaited_le (s : Scan) (n : ℕ) (levels : List Level) :
    s.firstAwaited n levels ≤ n := by
  induction levels generalizing n with
  | nil => exact Nat.le_refl n
  | cons l outer ih =>
    unfold firstAwaited
    split
    · exact ih n
    · split_ifs
      · exact Nat.le_trans (ih _) (Nat.min_le_left _ _)
      · exact ih n
      · exact Nat.le_refl n

theorem Ready.take {s : Scan} {ts : List Token} {I : List ℕ} (h : s.Ready ts I) :
    s.take.Ready ts I := by
  refine ⟨h.tokens, h.count, ?_, h.depth, h.levels, h.indents, h.markReach, h.isBroken⟩
  have hle := s.firstAwaited_le (s.count - 2) s.levels
  have htaken := h.taken
  have hcount := h.count
  exact Nat.max_le.mpr ⟨htaken, by omega⟩

theorem tokensFrom_succ (fuel : ℕ) (s : Scan) :
    tokensFrom (fuel + 1) s = ((s.next? (fuel + 1)).map fun s' =>
      if s'.tokens.head? == some .streamEnd then s'.tokens.reverse
      else tokensFrom fuel s'.take).getD (s.tokens.reverse.take s.taken) := by
  conv => lhs; unfold tokensFrom
  cases s.next? (fuel + 1) <;> rfl

/-- The tokens from one scan on are those from the other on, with enough fuel. -/
def Reaches (s s' : Scan) : Prop :=
  ∀ fuel, s.cursor.rest.length < fuel →
    ∃ fuel', s'.cursor.rest.length < fuel' ∧ tokensFrom fuel s = tokensFrom fuel' s'

theorem Reaches.trans {s s' s'' : Scan} (h : s.Reaches s') (h' : s'.Reaches s'') :
    s.Reaches s'' := by
  intro fuel hfuel
  obtain ⟨fuel', hfuel', htokens⟩ := h fuel hfuel
  obtain ⟨fuel'', hfuel'', htokens'⟩ := h' fuel' hfuel'
  exact ⟨fuel'', hfuel'', htokens.trans htokens'⟩

theorem reaches_of_next? {s after : Scan}
    (h : ∀ fuel, s.cursor.rest.length < fuel → s.next? fuel = some after)
    (hend : after.tokens.head? ≠ some .streamEnd)
    (hless : after.cursor.rest.length < s.cursor.rest.length) : s.Reaches after.take := by
  intro fuel hfuel
  obtain ⟨fuel, rfl⟩ := Nat.exists_eq_add_of_lt hfuel
  refine ⟨s.cursor.rest.length + fuel, ?_, ?_⟩
  · show after.cursor.rest.length < _
    omega
  · rw [tokensFrom_succ, h _ (by omega)]
    simp [hend]

theorem dedent_eq_self {s : Scan} {column : ℕ} (h : ∀ i ∈ s.indents.head?, i ≤ column) :
    s.dedent (some column) = s := by
  unfold dedent
  split_ifs
  · rfl
  · have hnone : (s.indents.takeWhile fun indent => (some column).all fun c => c < indent) =
        [] := by
      cases hi : s.indents with
      | nil => rfl
      | cons i I =>
        have hle : i ≤ column := h i (by simp [hi])
        simp [hle]
    rw [hnone]
    rfl

theorem next?_of_landed {s after : Scan} {fuel : ℕ} {allowed : Bool} {c : Cursor}
    (hgap : skipGap s.inFlow s.markReach fuel s.keyAllowed s.cursor = (allowed, c))
    (hwhole : s.isBroken = false) (hrest : c.rest ≠ [])
    (hdedent : (s.landed allowed c).dedent (some c.column) = s.landed allowed c)
    (hdirective : c.column = 0 → c.peek ≠ 37) (hmark : c.isDocumentMark = false)
    (htoken : (s.landed allowed c).token? = some after) (hbroken : after.isBroken = false)
    (hcomment : skipLineComment after.cursor = after.cursor) : s.next? fuel = some after := by
  have hsome : c.rest.isEmpty = false := by simpa using hrest
  have hpercent : (c.column == 0 && c.peek == 37) = false := by
    rw [Bool.and_eq_false_iff]
    simpa [or_iff_not_imp_left] using hdirective
  rw [Cursor.isDocumentMark, Bool.or_eq_false_iff] at hmark
  have hsame : (if after.hasLineComment then { after with cursor := skipLineComment after.cursor }
      else after) = after := by
    rw [hcomment]
    split_ifs <;> rfl
  rw [landed] at hdedent
  rw [next?, hgap]
  simp only [hdedent]
  rw [← landed]
  simp only [hwhole, hsome, hpercent, hmark.1, hmark.2, htoken, hsame, Bool.false_and,
    Bool.false_eq_true, if_false]
  rw [hbroken, Bool.false_and, if_neg Bool.false_ne_true]

/-- One token after a gap. -/
theorem next?_of_token? {s after : Scan} {ts : List Token} {I : List ℕ} (hready : s.Ready ts I)
    {fuel : ℕ} {allowed : Bool} {c : Cursor}
    (hgap : skipGap false 0 fuel s.keyAllowed s.cursor = (allowed, c)) (hrest : c.rest ≠ [])
    (hindent : ∀ i ∈ I.head?, i ≤ c.column) (hdirective : c.column = 0 → c.peek ≠ 37)
    (hmark : c.isDocumentMark = false) (htoken : (s.landed allowed c).token? = some after)
    (hbroken : after.isBroken = false) (hcomment : skipLineComment after.cursor = after.cursor) :
    s.next? fuel = some after := by
  rw [← hready.inFlow, ← hready.markReach] at hgap
  refine next?_of_landed hgap hready.isBroken hrest (dedent_eq_self ?_) hdirective hmark htoken
    hbroken hcomment
  show ∀ i ∈ s.indents.head?, i ≤ c.column
  rw [hready.indents]
  exact hindent

/-- No candidate must be a key. -/
def Calm (s : Scan) : Prop := ∀ l ∈ s.levels, ∀ k ∈ l.candidate, k.required = false

/-- Some tokens on, the scan has the given tokens and indentations, and its gap leads to `r`. -/
def Leads (s : Scan) (ts : List Token) (I : List ℕ) (allowed : Bool) (column : ℕ) (r : List ℕ) :
    Prop :=
  ∃ s', s.Reaches s' ∧ s'.Ready ts I ∧ s'.Calm ∧ s'.Lands allowed column r

variable {s : Scan} {ts : List Token} {I : List ℕ} {allowed : Bool} {column : ℕ} {r : List ℕ}

theorem Leads.trans {ts' : List Token} {I' : List ℕ} {allowed' : Bool} {column' : ℕ} {r' : List ℕ}
    (h : s.Leads ts I allowed column r)
    (h' : ∀ s' : Scan, s'.Ready ts I → s'.Calm → s'.Lands allowed column r →
      s'.Leads ts' I' allowed' column' r') : s.Leads ts' I' allowed' column' r' := by
  obtain ⟨s', hreach, hready, hcalm, hlands⟩ := h
  obtain ⟨s'', hreach', h''⟩ := h' s' hready hcalm hlands
  exact ⟨s'', hreach.trans hreach', h''⟩

theorem isDocumentMark_of_peek {c : Cursor} (h : c.column = 0 → isAmong "%-." c.peek = false) :
    c.isDocumentMark = false ∧ (c.column = 0 → c.peek ≠ 37) := by
  by_cases hcolumn : c.column = 0
  · have hpeek : 37 ≠ c.peek ∧ 45 ≠ c.peek ∧ 46 ≠ c.peek := by simpa [isAmong] using h hcolumn
    refine ⟨?_, fun _ => hpeek.1.symm⟩
    simp [Cursor.isDocumentMark, Cursor.isMark, hpeek.2.1.symm, hpeek.2.2.symm]
  · exact ⟨Cursor.isDocumentMark_of_column (by omega), fun h => absurd h hcolumn⟩

theorem leads_of_token? {ts' : List Token} {I' : List ℕ} {allowed' : Bool} {column' : ℕ}
    {r' : List ℕ} (hready : s.Ready ts I) (hlands : s.Lands allowed column r) (hr : r ≠ [])
    (hindent : ∀ i ∈ I.head?, i ≤ column) (hfirst : column = 0 → isAmong "%-." (r.headD 0) = false)
    (hend : ts'.getLast? ≠ some .streamEnd)
    (htoken : ∀ c : Cursor, c.rest = r → c.column = column →
      ∃ after : Scan, (s.landed allowed c).token? = some after ∧ after.Ready ts' I' ∧ after.Calm ∧
        after.cursor.rest.length < r.length ∧
        (after.cursor.rest.dropWhile isBlank).headD 0 ≠ 35 ∧ after.Lands allowed' column' r') :
    s.Leads ts' I' allowed' column' r' := by
  obtain ⟨c, rfl, rfl, hlength, hgap⟩ := hlands
  obtain ⟨after, htoken, hready', hcalm, hless, hcomment, hlands'⟩ := htoken c rfl rfl
  refine ⟨after.take, reaches_of_next? ?_ ?_ (by omega), hready'.take, hcalm, hlands'⟩
  · intro fuel hfuel
    obtain ⟨hmark, hdirective⟩ := isDocumentMark_of_peek (c := c) hfirst
    exact next?_of_token? hready (hgap fuel hfuel) hr hindent hdirective hmark htoken
      hready'.isBroken (skipLineComment_eq hcomment)
  · rw [hready'.tokens, List.head?_reverse]
    exact hend

/-! ## Candidates -/

theorem Calm.dropCandidate? (hcalm : s.Calm) {l : Level} (hlevels : s.levels = [l]) :
    s.dropCandidate? = some { s with levels := [⟨none, l.latest⟩] } := by
  rcases s with ⟨cursor, tokens, count, taken, levels, depth, indents, allowed, reach, broken⟩
  obtain rfl : levels = [l] := hlevels
  obtain ⟨_ | k, latest⟩ := l
  · rfl
  · have hrequired : k.required = false := hcalm _ (List.mem_singleton_self _) k rfl
    simp [Scan.dropCandidate?, hrequired]

theorem Ready.offerCandidate? (h : s.Ready ts I) (hcalm : s.Calm)
    (hcolumn : I.head? ≠ some s.cursor.column) :
    ∃ l, s.offerCandidate? = some { s with levels := [l] } ∧
      ({ s with levels := [l] } : Scan).Calm := by
  obtain ⟨l, hlevels⟩ := h.levels
  have hdrop := hcalm.dropCandidate? hlevels
  have hrequired : (!s.inFlow && s.indents.head? == some s.cursor.column) = false := by
    rw [h.indents]
    simp [hcolumn]
  unfold Scan.offerCandidate?
  rw [hdrop, hrequired]
  rcases s with ⟨cursor, tokens, count, taken, levels, depth, indents, allowed, reach, broken⟩
  obtain rfl : levels = [l] := hlevels
  cases allowed with
  | false => exact ⟨l, rfl, hcalm⟩
  | true => exact ⟨_, rfl, by simp [Calm]⟩

/-! ## Which token starts here -/

section Dispatch

variable {s : Scan}

theorem token?_single (h : s.cursor.peek = 39) : s.token? = s.addNode? (quoted? .single) := by
  simp [token?, h]

theorem token?_double (h : s.cursor.peek = 34) : s.token? = s.addNode? (quoted? .double) := by
  simp [token?, h]

theorem token?_open (h : s.cursor.peek = 91) : s.token? = s.openFlow? .listStart := by
  simp [token?, h]

theorem token?_close (h : s.cursor.peek = 93) : s.token? = s.closeFlow? .listEnd := by
  simp [token?, h]

theorem token?_tag (h : s.cursor.peek = 33) : s.token? = s.addNode? Mark.tag? := by
  simp [token?, h]

theorem token?_block (h : s.cursor.peek = 124) (hflow : s.inFlow = false) :
    s.token? = s.blockScalar? false := by
  simp [token?, h, hflow]

/-- What a scalar without quotes can start with: no mark, or one that nothing is made of. -/
def StartsPlain (n next : ℕ) : Prop :=
  isGap n = false ∧ (isAmong "-?:,[]\x7b\x7d#&*!|>'\"%@\x60" n = false ∨
    (n = 45 ∨ n = 63 ∨ n = 58) ∧ isGap next = false)

theorem token?_plain (h : StartsPlain s.cursor.peek (s.cursor.peekAt 1))
    (hflow : s.inFlow = false) : s.token? = s.plainScalar? := by
  obtain ⟨hgap, hmark | ⟨hmark, hnext⟩⟩ := h
  · have hstarts : s.startsPlain = true := by simp [startsPlain, hgap, hmark]
    -- each test for a mark fails
    have hne : ∀ m, isAmong "-?:,[]\x7b\x7d#&*!|>'\"%@\x60" m = true →
        (s.cursor.peek == m) = false := by
      intro m hm
      rw [beq_eq_false_iff_ne]
      rintro rfl
      rw [hmark] at hm
      cases hm
    simp only [token?, hstarts, hne 45 rfl, hne 63 rfl, hne 58 rfl, hne 44 rfl, hne 91 rfl,
      hne 93 rfl, hne 123 rfl, hne 125 rfl, hne 38 rfl, hne 42 rfl, hne 33 rfl, hne 124 rfl,
      hne 62 rfl, hne 39 rfl, hne 34 rfl, Bool.false_and, Bool.or_self, Bool.false_eq_true,
      if_false, if_true]
  · have hblank : isBlank (s.cursor.peekAt 1) = false := (Bool.or_eq_false_iff.mp hnext).1
    have hstarts : s.startsPlain = true := by
      rcases hmark with h | h | h <;> simp [startsPlain, h, hnext, hblank, hflow]
    rcases hmark with h | h | h <;> simp [token?, h, hnext, hflow, hstarts]

end Dispatch

/-! ## Scalars -/

theorem Ready.add {s : Scan} {ts : List Token} {I : List ℕ} (h : s.Ready ts I) (l : Level)
    (allowed : Bool) (t : Token) (c : Cursor) :
    (({ s with levels := [l], keyAllowed := allowed } : Scan).add t c).Ready (ts ++ [t]) I where
  tokens := by
    show t :: s.tokens = _
    rw [h.tokens, List.reverse_append]
    rfl
  count := by
    show s.count + 1 = _
    rw [h.count, List.length_append]
    rfl
  taken := by
    have htaken := h.taken
    show s.taken ≤ _
    rw [List.length_append]
    omega
  depth := h.depth
  levels := ⟨l, rfl⟩
  indents := h.indents
  markReach := h.markReach
  isBroken := h.isBroken

/-- Characters that are read as the given tokens, wherever a value may stand in a collection that is
indented by `outer` columns, if the next row is not indented more than the collection. -/
structure ReadsAs (outer : ℕ) (x : List ℕ) (us : List Token) : Prop where
  ne_nil : x ≠ []
  starts : Starts x
  leads : ∀ {s : Scan} {ts : List Token} {I : List ℕ} {allowed : Bool} {column k : ℕ} {r : List ℕ},
    s.Ready ts (outer :: I) → s.Calm →
    s.Lands allowed column (x ++ (List.replicate k 32 ++ r)) → outer < column → k ≤ outer →
    Starts r → s.Leads (ts ++ us) (outer :: I) true k r

theorem starts_append {x : List ℕ} (h : Starts x) (hne : x ≠ []) (y : List ℕ) :
    Starts (x ++ y) := by
  obtain ⟨n, x, rfl⟩ := List.exists_cons_of_ne_nil hne
  exact h

theorem dropWhile_isBlank_of_starts {r : List ℕ} (h : Starts r) :
    (r.dropWhile isBlank).headD 0 ≠ 35 := by
  cases r with
  | nil => decide
  | cons n r =>
    have hn : isBlank n = false := h.1.1
    rw [List.dropWhile_cons_of_neg (by simp [hn])]
    exact h.2

section Scalars

variable {s : Scan} {ts : List Token} {I : List ℕ} {allowed : Bool} {outer column : ℕ} {r : List ℕ}

/-- A token that is added behind the others, and does not stand where keys do. The gap behind it is
that of a state of which only the place is known. -/
theorem leads_of_add {t : Token} {after allowed' : Bool} {column' : ℕ} {y r' : List ℕ}
    (P : Cursor → Prop) (hready : s.Ready ts (outer :: I)) (hlands : s.Lands allowed column r)
    (hdeep : outer < column) (hr : r ≠ []) (ht : t ≠ .streamEnd)
    (htoken : ∀ c : Cursor, c.rest = r → c.column = column → ∃ l c',
      (s.landed allowed c).token? =
        some (({ s.landed allowed c with levels := [l], keyAllowed := after } : Scan).add t c') ∧
      ({ s with levels := [l] } : Scan).Calm ∧ c'.rest = y ∧ P c')
    (hless : y.length < r.length) (hcomment : (y.dropWhile isBlank).headD 0 ≠ 35)
    (hnext : ∀ s' : Scan, s'.keyAllowed = after → s'.cursor.rest = y → P s'.cursor →
      s'.Lands allowed' column' r') :
    s.Leads (ts ++ [t]) (outer :: I) allowed' column' r' := by
  have hindent : ∀ i ∈ (outer :: I).head?, i ≤ column := by
    intro i hi
    obtain rfl : outer = i := by simpa using hi
    omega
  refine leads_of_token? hready hlands hr hindent (by omega) (by simpa using ht) ?_
  intro c hrest hcolumn
  obtain ⟨l, c', hafter, hcalm, rfl, hplace⟩ := htoken c hrest hcolumn
  exact ⟨_, hafter, (hready.landed allowed c).add l after t c', hcalm, hless, hcomment,
    hnext _ rfl rfl hplace⟩

theorem Ready.offerCandidate_deep (hready : s.Ready ts (outer :: I)) (hcalm : s.Calm) {c : Cursor}
    (hdeep : outer < c.column) :
    ∃ l, (s.landed allowed c).offerCandidate? = some { s.landed allowed c with levels := [l] } ∧
      ({ s with levels := [l] } : Scan).Calm := by
  have hcolumn : (outer :: I).head? ≠ some c.column := by
    rw [List.head?_cons, Ne, Option.some.injEq]
    omega
  exact (hready.landed allowed c).offerCandidate? hcalm hcolumn

/-- A token that may start a key, but does not stand where keys do. -/
theorem leads_of_addNode? {read : Cursor → Option (Token × Cursor)} {t : Token}
    {allowed' : Bool} {column' : ℕ} {y r' : List ℕ} (P : Cursor → Prop)
    (hready : s.Ready ts (outer :: I)) (hcalm : s.Calm) (hlands : s.Lands allowed column r)
    (hdeep : outer < column) (hr : r ≠ [])
    (hdispatch : ∀ s' : Scan, s'.cursor.rest = r → s'.token? = s'.addNode? read)
    (ht : t ≠ .streamEnd)
    (hread : ∀ c : Cursor, c.rest = r → c.column = column →
      ∃ c', read c = some (t, c') ∧ c'.rest = y ∧ P c')
    (hless : y.length < r.length) (hcomment : (y.dropWhile isBlank).headD 0 ≠ 35)
    (hnext : ∀ s' : Scan, s'.keyAllowed = false → s'.cursor.rest = y → P s'.cursor →
      s'.Lands allowed' column' r') :
    s.Leads (ts ++ [t]) (outer :: I) allowed' column' r' := by
  refine leads_of_add P hready hlands hdeep hr ht (fun c hrest hcolumn => ?_) hless hcomment hnext
  obtain ⟨c', hread, hplace⟩ := hread c hrest hcolumn
  obtain ⟨l, hoffer, hcalm'⟩ := hready.offerCandidate_deep hcalm (hcolumn ▸ hdeep)
  refine ⟨l, c', ?_, hcalm', hplace⟩
  rw [hdispatch _ hrest, addNode?, hoffer]
  show (read c).map _ = _
  rw [hread]
  rfl

/-- A token that takes all that is left of its rows: the next row starts behind it. -/
theorem leads_of_rows {t : Token} {k : ℕ} {x : List ℕ} (hready : s.Ready ts (outer :: I))
    (hlands : s.Lands allowed column (x ++ (List.replicate k 32 ++ r))) (hdeep : outer < column)
    (hx : x ≠ []) (ht : t ≠ .streamEnd) (hr : Starts r)
    (htoken : ∀ c : Cursor, c.rest = x ++ (List.replicate k 32 ++ r) → c.column = column → ∃ l c',
      (s.landed allowed c).token? =
        some (({ s.landed allowed c with levels := [l], keyAllowed := true } : Scan).add t c') ∧
      ({ s with levels := [l] } : Scan).Calm ∧ c'.rest = r ∧ c'.column = k) :
    s.Leads (ts ++ [t]) (outer :: I) true k r := by
  have hless : r.length < (x ++ (List.replicate k 32 ++ r)).length := by
    have hpos := List.length_pos_iff.mpr hx
    simp only [List.length_append]
    omega
  refine leads_of_add (fun c => c.column = k) hready hlands hdeep (by simp [hx]) ht htoken hless
    (dropWhile_isBlank_of_starts hr) fun s' hallowed hrest hcolumn => ?_
  rw [← hallowed, ← hcolumn]
  exact lands_spaces (j := 0) hrest hr

/-! ### Between quotes -/

theorem readsAs_quoted {q : Quoted.Quote} {x : List ℕ} (cs : List ℕ) (hne : x ≠ [])
    (hstarts : Starts x)
    (hdispatch : ∀ (s : Scan) (y : List ℕ), s.cursor.rest = x ++ y →
      s.token? = s.addNode? (quoted? q))
    (hread : ∀ (c : Cursor) (y : List ℕ), c.rest = x ++ 10 :: y →
      ∃ c', Quoted.read q c = some (cs, c') ∧ c'.rest = 10 :: y) :
    ReadsAs outer (x ++ [10]) [.scalar .quoted (textOf cs)] where
  ne_nil := by simp
  starts := starts_append hstarts hne _
  leads hready hcalm hlands hdeep hk hr := by
    rw [List.append_assoc, List.singleton_append] at hlands
    refine leads_of_addNode? (fun _ => True) hready hcalm hlands hdeep (by simp)
      (fun s' hrest => hdispatch s' _ hrest) (by simp) (fun c hrest _ => ?_) ?_
      (by rw [List.dropWhile_cons_of_neg (by decide)]; exact (by decide : (10 : ℕ) ≠ 35))
      fun s' _ hrest _ => lands_line hrest hr
    · obtain ⟨c', hread, hrest'⟩ := hread c _ hrest
      exact ⟨c', by rw [quoted?, hread]; rfl, hrest', trivial⟩
    · have hpos := List.length_pos_iff.mpr hne
      rw [List.length_append]
      omega

/-! ### Without quotes -/

theorem plainScalar?_eq {s' : Scan} {cs : List ℕ} {c' : Cursor}
    (hoffer : s.offerCandidate? = some s') (hindents : s'.indents = outer :: I)
    (hflow : s'.inFlow = false)
    (hread : Plain.read false (outer + 1) s'.cursor = some ⟨cs, true, c'⟩) :
    s.plainScalar? =
      some (({ s' with keyAllowed := true } : Scan).add (.scalar .plain (textOf cs)) c') := by
  unfold plainScalar?
  simp only [hoffer, hindents, hflow, hread, Option.map_some]

theorem readsAs_plain {cs : List ℕ} (hcs : Plain.IsTail cs)
    (hstart : StartsPlain (cs.headD 0) (cs.getD 1 10)) :
    ReadsAs outer (cs ++ [10]) [.scalar .plain (textOf cs)] where
  ne_nil := by simp
  starts := by
    obtain ⟨n, ns, rfl⟩ := List.exists_cons_of_ne_nil hcs.ne_nil
    exact ⟨hcs.fresh [10], by simpa using hcs.head_ne_comment⟩
  leads {s ts I allowed column k r} hready hcalm hlands hdeep hk hr := by
    refine leads_of_rows hready hlands hdeep (by simp) (by simp) hr fun c hrest hcolumn => ?_
    rw [List.append_assoc, List.singleton_append] at hrest
    obtain ⟨l, hoffer, hcalm'⟩ := hready.offerCandidate_deep hcalm (hcolumn ▸ hdeep)
    obtain ⟨c', hread, hplace⟩ :=
      Plain.read_eq hr.1 (Nat.lt_succ_of_le hk) hcs hrest (hcolumn ▸ hdeep)
    refine ⟨l, c', ?_, hcalm', hplace⟩
    have hstart' : StartsPlain c.peek (c.peekAt 1) := by
      obtain ⟨n, _ | ⟨m, cs⟩, rfl⟩ := List.exists_cons_of_ne_nil hcs.ne_nil
      · rwa [Cursor.peek, Cursor.peekAt, hrest]
      · rwa [Cursor.peek, Cursor.peekAt, hrest]
    rw [token?_plain hstart' (hready.landed allowed c).inFlow]
    exact plainScalar?_eq hoffer hready.indents rfl hread

/-! ### Blocks -/

theorem blockScalar?_eq {s' : Scan} {cs : List ℕ} {c' : Cursor}
    (hdrop : s.dropCandidate? = some s') (hindents : s'.indents = outer :: I)
    (hread : Block.read false outer (outer + 1) s'.cursor = some (cs, c')) :
    s.blockScalar? false =
      some (({ s' with keyAllowed := true } : Scan).add (.scalar .block (textOf cs)) c') := by
  unfold blockScalar?
  simp only [hdrop, hindents, List.headD_cons, hread, Option.map_some]

theorem readsAs_block {x cs : List ℕ} (hx : x.head? = some 124)
    (hread : ∀ {k : ℕ} {r : List ℕ} {c : Cursor}, Fresh r → k ≤ outer →
      c.rest = x ++ (List.replicate k 32 ++ r) →
      ∃ c', Block.read false outer (outer + 1) c = some (cs, c') ∧ c'.rest = r ∧ c'.column = k) :
    ReadsAs outer x [.scalar .block (textOf cs)] := by
  obtain ⟨x, rfl⟩ := List.head?_eq_some_iff.mp hx
  refine ⟨by simp, ⟨⟨rfl, rfl⟩, (by decide : (124 : ℕ) ≠ 35)⟩, ?_⟩
  intro s ts I allowed column k r hready hcalm hlands hdeep hk hr
  refine leads_of_rows hready hlands hdeep (by simp) (by simp) hr fun c hrest hcolumn => ?_
  obtain ⟨l, hlevels⟩ := (hready.landed allowed c).levels
  have hdrop := Calm.dropCandidate? (s := s.landed allowed c) hcalm hlevels
  obtain ⟨c', hread, hplace⟩ := hread hr.1 hk hrest
  refine ⟨⟨none, l.latest⟩, c', ?_, by simp [Calm], hplace⟩
  rw [token?_block (Cursor.peek_of_rest hrest) (hready.landed allowed c).inFlow]
  exact blockScalar?_eq hdrop hready.indents hread

/-! ### Bytes -/

/-- A scalar behind the tag of bytes in base 64. -/
theorem ReadsAs.tagged {x : List ℕ} {us : List Token} (h : ReadsAs outer x us) :
    ReadsAs outer ([33, 33, 98, 105, 110, 97, 114, 121] ++ 32 :: x)
      (.tag [33, 33] "binary" :: us) where
  ne_nil := by simp
  starts := ⟨⟨rfl, rfl⟩, (by decide : (33 : ℕ) ≠ 35)⟩
  leads {s ts I allowed column k r} hready hcalm hlands hdeep hk hr := by
    rw [List.append_assoc, List.cons_append] at hlands
    have hx := starts_append h.starts h.ne_nil (List.replicate k 32 ++ r)
    have hcomment : ((32 :: (x ++ (List.replicate k 32 ++ r))).dropWhile isBlank).headD 0 ≠ 35 := by
      rw [List.dropWhile_cons_of_pos rfl]
      exact dropWhile_isBlank_of_starts hx
    have htag : s.Leads (ts ++ [.tag [33, 33] "binary"]) (outer :: I) false (column + 8 + 1)
        (x ++ (List.replicate k 32 ++ r)) := by
      refine leads_of_addNode? (fun c => c.column = column + 8) hready hcalm hlands hdeep (by simp)
        (fun s' hrest => token?_tag (Cursor.peek_of_rest hrest)) (by simp)
        (fun c hrest hcolumn => ?_) (by simp) hcomment fun s' hallowed hrest hcolumn => ?_
      · obtain ⟨c', htag, hrest', hcolumn'⟩ := Mark.tag?_binary hrest
        exact ⟨c', htag, hrest', hcolumn'.trans (by rw [hcolumn])⟩
      · have hlands := lands_spaces (s := s') (j := 1) hrest hx
        rw [hallowed, hcolumn] at hlands
        exact hlands
    rw [List.append_cons]
    exact htag.trans fun s' hready' hcalm' hlands' =>
      h.leads hready' hcalm' hlands' (by omega) hk hr

end Scalars

end Scan

end ImportBlock.Yaml
