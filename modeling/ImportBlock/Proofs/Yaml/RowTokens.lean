import ImportBlock.Proofs.Yaml.Tokens

/-!
# What starts and ends a row

A row of a block collection starts with a dash, or with a key and its colon. If it is the first
row, the token for the collection is put in front (`Opens`); that a scalar is a key is known only
at its colon, and until then the reader waits for it (`BeforeColon`). A row that is indented by
less ends collections (`leads_dedent`), and the end of the document ends the last one
(`tokensFrom_end`). An empty list is two brackets (`leads_emptyList`).
-/

namespace ImportBlock.Yaml

/-! ## Names -/

/-- A key of a mapping: small letters and underscores. -/
structure IsName (name : List ℕ) : Prop where
  ne_nil : name ≠ []
  chars : ∀ n ∈ name, n = 95 ∨ 97 ≤ n ∧ n ≤ 122
  length_le : name.length ≤ Scan.keyLimit

namespace IsName

variable {name : List ℕ} (h : IsName name)

include h

theorem isGap {n : ℕ} (hn : n ∈ name) : isGap n = false := by
  have hchar := h.chars n hn
  rw [Bool.eq_false_iff, Ne, isGap_iff, isBreak_iff]
  omega

theorem starts (z : List ℕ) : Scan.Starts (name ++ z) := by
  obtain ⟨n, rest, rfl⟩ := List.exists_cons_of_ne_nil h.ne_nil
  have hchar := h.chars n List.mem_cons_self
  refine ⟨fresh_of_isGap (h.isGap List.mem_cons_self) _, ?_⟩
  show n ≠ 35
  omega

theorem startsPlain (z : List ℕ) (next : ℕ) : Scan.StartsPlain ((name ++ z).headD 0) next := by
  obtain ⟨n, rest, rfl⟩ := List.exists_cons_of_ne_nil h.ne_nil
  have hchar := h.chars n List.mem_cons_self
  refine ⟨h.isGap List.mem_cons_self, Or.inl ?_⟩
  simp [isAmong]
  omega

theorem isAmong_marks (z : List ℕ) : isAmong "%-." ((name ++ z).headD 0) = false := by
  obtain ⟨n, rest, rfl⟩ := List.exists_cons_of_ne_nil h.ne_nil
  have hchar := h.chars n List.mem_cons_self
  simp [isAmong]
  omega

end IsName

namespace Plain

theorem word_name {name z : List ℕ} (h : ∀ n ∈ name, isGap n = false ∧ n ≠ 58)
    (hz : isGap (z.headD 0) = true) : word false (name ++ 58 :: z) = name := by
  induction name with
  | nil =>
    rw [List.nil_append, word, hz]
    rfl
  | cons n name ih =>
    rw [List.forall_mem_cons] at h
    have hcolon : (n == 58) = false := by simpa using h.1.2
    rw [List.cons_append, word, h.1.1, hcolon, ih h.2]
    rfl

theorem read_name {name z : List ℕ} {least : ℕ} {c : Cursor} (hname : IsName name)
    (hrest : c.rest = name ++ 58 :: z) (hz : isGap (z.headD 0) = true)
    (hcolumn : least ≤ c.column + name.length) :
    read false least c = some ⟨name, false, c.skip name.length⟩ := by
  have hpos := List.length_pos_iff.mpr hname.ne_nil
  have hhead := hname.isAmong_marks (58 :: z)
  obtain ⟨hmark, -⟩ := Scan.isDocumentMark_of_peek (c := c)
    fun _ => by rw [Cursor.peek_of_rest hrest]; exact hhead
  have hcomment : (c.peek == 35) = false := by
    rw [Cursor.peek_of_rest hrest]
    simpa using (hname.starts (58 :: z)).2
  have hword : word false c.rest = name := by
    rw [hrest]
    refine word_name (fun n hn => ⟨hname.isGap hn, ?_⟩) hz
    have hchar := hname.chars n hn
    omega
  have hafter : (c.skip name.length).rest = 58 :: z := Cursor.rest_skip_of hrest
  have hgap : Gap.read least .empty (c.skip name.length) =
      some (⟨[], .none, []⟩, c.skip name.length) := by
    have hnone := Gap.read_spaces least (j := 0) hafter ⟨rfl, rfl⟩
    rwa [Cursor.skip_zero] at hnone
  have hmark' : (c.skip name.length).isDocumentMark = false :=
    Cursor.isDocumentMark_of_column (by show 0 < c.column + name.length; omega)
  have hpeek : ((c.skip name.length).peek == 35) = false := by
    rw [Cursor.peek_of_rest hafter]
    rfl
  have hnone : word false (c.skip name.length).rest = [] := by
    rw [hafter]
    exact word_name (by simp : ∀ n ∈ [], isGap n = false ∧ n ≠ 58) hz
  have hstay : ¬(c.skip name.length).column < least := by
    show ¬c.column + name.length < least
    omega
  have hfuel : c.rest.length + 1 = c.rest.length - 1 + 1 + 1 := by
    have hsome : 0 < c.rest.length := by
      rw [hrest, List.length_append]
      omega
    omega
  rw [read, hfuel, readFrom, hmark, hcomment, hword]
  simp only [Bool.or_self, Bool.false_eq_true, if_false, List.isEmpty_iff, hname.ne_nil, hgap,
    hstay, decide_false, Bool.and_false]
  rw [readFrom, hmark', hpeek, hnone]
  simp [Gap.characters, Gap.empty, Gap.isBroken, Cursor.skip_zero]

end Plain

namespace Scan

variable {s : Scan} {ts : List Token} {I I' : List ℕ} {allowed : Bool} {column : ℕ} {r : List ℕ}
  {first : List Token}

/-! ## Indentation -/

/-- A row at a column lies in the innermost collection, or starts one with a token. -/
inductive Opens (t : Token) (column : ℕ) : List ℕ → List Token → List ℕ → Prop
  | inside (I : List ℕ) : Opens t column (column :: I) [] (column :: I)
  | start {I : List ℕ} : (∀ i ∈ I.head?, i < column) → I.length < maxDepth →
      Opens t column I [t] (column :: I)

theorem Opens.head_le {t : Token} (h : Opens t column I first I') : ∀ i ∈ I.head?, i ≤ column := by
  cases h with
  | inside => simp
  | start hless _ => exact fun i hi => Nat.le_of_lt (hless i hi)

theorem Opens.reverse {t : Token} (h : Opens t column I first I') : first.reverse = first := by
  cases h <;> rfl

theorem Opens.indent? {t : Token} (h : Opens t column I first I') (hflow : s.inFlow = false)
    (hindents : s.indents = I) (position : ℕ) (htaken : s.taken ≤ position) :
    s.indent? column position t = some
      { s with
        indents := I'
        tokens := s.tokens.take (s.count - position) ++
          (first ++ s.tokens.drop (s.count - position))
        count := s.count + first.length } := by
  rcases s with ⟨cursor, tokens, count, taken, levels, depth, indents, allowed, reach, broken⟩
  obtain rfl : indents = I := hindents
  unfold Scan.indent?
  cases h with
  | inside I =>
    simp [isDeeper]
  | start hless hdepth =>
    have hdeeper : isDeeper ⟨cursor, tokens, count, taken, levels, depth, indents, allowed, reach,
        broken⟩ column = true := by
      cases indents with
      | nil => rfl
      | cons i I => simpa [isDeeper] using hless i rfl
    have hposition : ¬position < taken := Nat.not_lt.mpr htaken
    rw [hflow, hdeeper]
    simp [Nat.not_le.mpr hdepth, insertAt, hposition]

/-- The scan with the innermost collection ended. -/
def ended (s : Scan) (outer : List ℕ) : Scan :=
  { s with indents := outer, tokens := .blockEnd :: s.tokens, count := s.count + 1 }

theorem Ready.ended {i : ℕ} (h : s.Ready ts (i :: I)) :
    (s.ended I).Ready (ts ++ [.blockEnd]) I where
  tokens := by
    show Token.blockEnd :: s.tokens = _
    rw [h.tokens, List.reverse_append]
    rfl
  count := by
    show s.count + 1 = _
    rw [h.count, List.length_append]
    rfl
  taken := by
    have htaken := h.taken
    show s.taken ≤ _
    rw [List.length_append]
    omega
  depth := h.depth
  levels := h.levels
  indents := rfl
  markReach := h.markReach
  isBroken := h.isBroken

theorem dedent_eq_dedent_ended {i : ℕ} (h : s.Ready ts (i :: I)) (hless : column < i) :
    s.dedent (some column) = (s.ended I).dedent (some column) := by
  have hflow : (s.ended I).inFlow = false := h.ended.inFlow
  have hfirst : (s.indents.takeWhile fun indent => (some column).all fun c => c < indent) =
      i :: I.takeWhile fun indent => (some column).all fun c => c < indent := by
    rw [h.indents, List.takeWhile_cons_of_pos (by simpa using hless)]
  rw [dedent, dedent, h.inFlow, hflow, hfirst, h.indents]
  simp only [Bool.false_eq_true, if_false, ended, List.map_const', List.length_cons,
    List.drop_succ_cons, List.replicate_succ', List.append_assoc, List.singleton_append,
    Nat.add_assoc, Nat.add_comm 1]

/-- A row that is indented less than the innermost collection ends it. -/
theorem leads_dedent {i : ℕ} (hready : s.Ready ts (i :: I)) (hcalm : s.Calm)
    (hlands : s.Lands allowed column r) (hless : column < i) :
    s.Leads (ts ++ [.blockEnd]) I allowed column r := by
  refine ⟨s.ended I, fun fuel hfuel => ⟨fuel, hfuel, ?_⟩, hready.ended, hcalm, hlands⟩
  obtain ⟨c, -, rfl, -, hgap⟩ := hlands
  have hgap := hgap fuel hfuel
  rw [← hready.inFlow, ← hready.markReach] at hgap
  have hgap' : skipGap (s.ended I).inFlow (s.ended I).markReach fuel (s.ended I).keyAllowed
      (s.ended I).cursor = (allowed, c) := hgap
  -- the next token is found alike, and what the reader has taken is the same
  have hsame : ({ s with cursor := c, keyAllowed := allowed } : Scan).dedent (some c.column) =
      ({ s.ended I with cursor := c, keyAllowed := allowed } : Scan).dedent (some c.column) :=
    dedent_eq_dedent_ended (hready.landed allowed c) hless
  have hnext : s.next? fuel = (s.ended I).next? fuel := by
    rw [next?, next?, hgap, hgap']
    simp only [hsame]
  have htaken : (s.ended I).tokens.reverse.take (s.ended I).taken =
      s.tokens.reverse.take s.taken := by
    show (Token.blockEnd :: s.tokens).reverse.take s.taken = _
    rw [List.reverse_cons, List.take_append_of_le_length]
    rw [hready.tokens]
    simpa using hready.taken
  obtain ⟨fuel, rfl⟩ : ∃ f, fuel = f + 1 := ⟨fuel - 1, by omega⟩
  rw [tokensFrom_succ, tokensFrom_succ, hnext, htaken]

theorem tokensFrom_end (hready : s.Ready ts [0]) (hcalm : s.Calm) (hlands : s.Lands true 0 [])
    {fuel : ℕ} (hfuel : s.cursor.rest.length < fuel) :
    tokensFrom fuel s = ts ++ [.blockEnd, .streamEnd] := by
  obtain ⟨c, hrest, -, -, hgap⟩ := hlands
  have hgap := hgap fuel hfuel
  rw [← hready.inFlow, ← hready.markReach] at hgap
  obtain ⟨fuel, rfl⟩ : ∃ f, fuel = f + 1 := ⟨fuel - 1, by omega⟩
  have hdedent : ({ s with cursor := c, keyAllowed := true } : Scan).dedent (some c.column) =
      s.landed true c := dedent_eq_self (by
    show ∀ i ∈ s.indents.head?, i ≤ c.column
    rw [hready.indents]
    simp)
  have hwhole : (s.landed true c).isBroken = false := hready.isBroken
  have hend : ∃ s', (s.landed true c).streamEnd? = some s' ∧
      s'.tokens = .streamEnd :: .blockEnd :: ts.reverse := by
    rcases s with ⟨cursor, tokens, count, taken, levels, depth, indents, allowed, reach, broken⟩
    obtain ⟨⟨k, latest⟩, rfl : levels = _⟩ := hready.levels
    obtain rfl : indents = [0] := hready.indents
    obtain rfl : broken = false := hready.isBroken
    obtain rfl : tokens = ts.reverse := hready.tokens
    cases k with
    | none => exact ⟨_, rfl, rfl⟩
    | some k =>
      have hrequired : k.required = false := hcalm _ (List.mem_singleton_self _) k rfl
      simp [streamEnd?, landed, dedent, inFlow, dropCandidate?, hrequired, add]
  obtain ⟨s', hstreamEnd, htokens⟩ := hend
  have hnext : s.next? (fuel + 1) = some s' := by
    rw [next?, hgap]
    simp only [hdedent, hwhole, hrest, Bool.false_and, Bool.false_eq_true, if_false,
      List.isEmpty_nil, if_true, hstreamEnd]
  rw [tokensFrom_succ, hnext]
  simp [htokens]

/-! ## Keys -/

/-- A colon behind a candidate makes it a key. -/
theorem colon?_eq {k : Candidate} {latest : ℕ} {tok : Token} (hready : s.Ready (ts ++ [tok]) I)
    (hlevels : s.levels = [⟨some k, latest⟩]) (hopen : s.isOpen k = true)
    (hposition : k.position = ts.length) (htaken : s.taken ≤ ts.length)
    (hopens : Opens .blockMapStart k.column I first I') :
    ∃ s', s.colon? = some s' ∧ s'.Ready (ts ++ first ++ [.key, tok, .value]) I' ∧ s'.Calm ∧
      s'.keyAllowed = false ∧ s'.cursor = s.cursor.skip 1 := by
  rcases s with ⟨cursor, tokens, count, taken, levels, depth, indents, allowed, reach, broken⟩
  obtain rfl : levels = _ := hlevels
  have hcount : count = ts.length + 1 := by simpa using hready.count
  have htokens : tokens = tok :: ts.reverse := by simpa using hready.tokens
  subst hcount htokens
  have hlater : ¬k.position < taken := by
    rw [hposition]
    exact Nat.not_lt.mpr htaken
  have hone : ts.length + 1 - k.position = 1 := by omega
  have htwo : ts.length + 1 + 1 - k.position = 2 := by omega
  -- the key is put in front of the candidate, and the mapping in front of the key
  have hindent := hopens.indent?
    (s := ⟨cursor, tok :: .key :: ts.reverse, ts.length + 1 + 1, taken, [⟨none, latest⟩], depth,
      indents, false, reach, broken⟩) rfl hready.indents k.position
    (by rw [hposition]; exact htaken)
  refine ⟨⟨cursor.skip 1, .value :: tok :: .key :: (first ++ ts.reverse),
    ts.length + 1 + 1 + first.length + 1, taken, [⟨none, latest⟩], depth, I', false, reach, broken⟩,
    ?_, ⟨?_, ?_, ?_, hready.depth, ⟨_, rfl⟩, rfl, hready.markReach, hready.isBroken⟩, ?_, rfl, rfl⟩
  · simp only [colon?, hopen, if_true, insertAt, hlater, if_false, hone]
    simp only [List.take_succ_cons, List.take_zero, List.drop_succ_cons, List.drop_zero,
      List.singleton_append, hindent, htwo]
    rfl
  · simp [hopens.reverse]
  · simp
    omega
  · have hle : taken ≤ ts.length := htaken
    simp only [List.length_append]
    omega
  · simp [Calm]

theorem token?_colon {z : List ℕ} (hrest : s.cursor.rest = 58 :: z)
    (hz : isGap (z.headD 0) = true) : s.token? = s.colon? := by
  have hpeek : s.cursor.peek = 58 := Cursor.peek_of_rest hrest
  have hnext : isGap (s.cursor.peekAt 1) = true := by
    rw [Cursor.peekAt, hrest]
    cases z with
    | nil => exact hz
    | cons n z => exact hz
  simp [token?, hpeek, hnext]

theorem plainScalar?_name {name z : List ℕ} {l : Level} (hname : IsName name)
    (hready : s.Ready ts I) (hhead : ∀ i ∈ I.head?, i ≤ s.cursor.column)
    (hrest : s.cursor.rest = name ++ 58 :: z) (hz : isGap (z.headD 0) = true)
    (hoffer : s.offerCandidate? = some { s with levels := [l] }) :
    s.plainScalar? = some (({ s with levels := [l], keyAllowed := false } : Scan).add
      (.scalar .plain (textOf name)) (s.cursor.skip name.length)) := by
  have hpos := List.length_pos_iff.mpr hname.ne_nil
  unfold plainScalar?
  simp only [hoffer, hready.indents]
  cases I with
  | nil =>
    show (Plain.read false 0 s.cursor).map _ = _
    rw [Plain.read_name hname hrest hz (Nat.zero_le _)]
    rfl
  | cons i I =>
    have hle : i ≤ s.cursor.column := hhead i rfl
    show (Plain.read false (i + 1) s.cursor).map _ = _
    rw [Plain.read_name hname hrest hz (by omega)]
    rfl

/-- The scan between a key and its colon: the key is a candidate that nothing has been taken of. -/
structure BeforeColon (s : Scan) (ts : List Token) (I : List ℕ) (name z : List ℕ) (column : ℕ) :
    Prop where
  ready : s.Ready (ts ++ [.scalar .plain (textOf name)]) I
  candidate : ∃ k latest, s.levels = [⟨some k, latest⟩] ∧ k.position = ts.length ∧
    k.column = column ∧ s.isOpen k = true
  taken : s.taken ≤ ts.length
  keyAllowed : s.keyAllowed = false
  rest : s.cursor.rest = 58 :: z
  column : s.cursor.column = column + name.length

theorem reaches_beforeColon {name z : List ℕ} (hname : IsName name) (hready : s.Ready ts I)
    (hcalm : s.Calm) (hlands : s.Lands true column (name ++ 58 :: z))
    (hz : isGap (z.headD 0) = true) (hhead : ∀ i ∈ I.head?, i ≤ column) :
    ∃ s', s.Reaches s' ∧ s'.BeforeColon ts I name z column := by
  obtain ⟨c, hrest, rfl, hlength, hgap⟩ := hlands
  have hpeek := Cursor.peek_of_rest hrest
  have hafter : (c.skip name.length).rest = 58 :: z := Cursor.rest_skip_of hrest
  obtain ⟨l₀, hlevels₀⟩ := hready.levels
  let k : Candidate := ⟨s.count, c.index, c.line, c.column,
    !(s.landed true c).inFlow && s.indents.head? == some c.column, true⟩
  let s₁ : Scan := ({ s.landed true c with levels := [⟨some k, s.count⟩], keyAllowed := false } :
    Scan).add (.scalar .plain (textOf name)) (c.skip name.length)
  have hoffer : (s.landed true c).offerCandidate? =
      some { s.landed true c with levels := [⟨some k, s.count⟩] } := by
    have hdrop := Calm.dropCandidate? (s := s.landed true c) hcalm hlevels₀
    rw [offerCandidate?, hdrop]
    rfl
  have htoken : (s.landed true c).token? = some s₁ := by
    have hplain : StartsPlain c.peek (c.peekAt 1) := by
      rw [hpeek]
      exact hname.startsPlain _ _
    rw [token?_plain hplain (hready.landed true c).inFlow]
    exact plainScalar?_name hname (hready.landed true c) hhead hrest hz hoffer
  have hready₁ : s₁.Ready (ts ++ [.scalar .plain (textOf name)]) I :=
    (hready.landed true c).add _ false _ _
  have hopen : s₁.isOpen k = true := by
    have hle : c.index + name.length ≤ c.index + keyLimit := Nat.add_le_add_left hname.length_le _
    have hline : (c.line == c.line) = true := beq_self_eq_true _
    show (c.line == c.line && decide (c.index + name.length ≤ c.index + keyLimit)) = true
    rw [hline, decide_eq_true hle]
    rfl
  refine ⟨s₁.take, reaches_of_next? (fun fuel hfuel => ?_) (by simp [s₁, add]) ?_,
    hready₁.take, ⟨k, s.count, rfl, hready.count, rfl, hopen⟩, ?_, rfl, hafter, rfl⟩
  · obtain ⟨hmark, hdirective⟩ := isDocumentMark_of_peek (c := c)
      fun _ => by rw [hpeek]; exact hname.isAmong_marks _
    refine next?_of_token? hready (hgap fuel hfuel) (by rw [hrest]; simp) hhead hdirective
      hmark htoken hready₁.isBroken (skipLineComment_eq ?_)
    show ((c.skip name.length).rest.dropWhile isBlank).headD 0 ≠ 35
    rw [hafter]
    exact dropWhile_isBlank_of_starts ⟨⟨rfl, rfl⟩, (by decide : (58 : ℕ) ≠ 35)⟩
  · have hpos := List.length_pos_iff.mpr hname.ne_nil
    show (c.skip name.length).rest.length < _
    rw [hafter]
    rw [List.length_append] at hlength
    omega
  · -- the reader waits for the candidate
    have hawaited : s₁.firstAwaited (s₁.count - 2) s₁.levels ≤ s.count := by
      show s₁.firstAwaited (s.count + 1 - 2) [⟨some k, s.count⟩] ≤ s.count
      simp [firstAwaited, hopen, k]
    have htaken := hready.taken
    rw [← hready.count] at htaken ⊢
    exact Nat.max_le.mpr ⟨htaken, hawaited⟩

theorem reaches_key {name z : List ℕ} (hname : IsName name) (hready : s.Ready ts I)
    (hcalm : s.Calm) (hlands : s.Lands true column (name ++ 58 :: z))
    (hz : isGap (z.headD 0) = true) (hcomment : (z.dropWhile isBlank).headD 0 ≠ 35)
    (hopens : Opens .blockMapStart column I first I') :
    ∃ s', s.Reaches s' ∧ s'.Ready (ts ++ first ++ [.key, .scalar .plain (textOf name), .value]) I' ∧
      s'.Calm ∧ s'.keyAllowed = false ∧ s'.cursor.rest = z ∧ column < s'.cursor.column := by
  have hpos := List.length_pos_iff.mpr hname.ne_nil
  obtain ⟨s₁, hreach, h⟩ := reaches_beforeColon hname hready hcalm hlands hz hopens.head_le
  obtain ⟨k, latest, hlevels, hposition, hcolumn, hopen⟩ := h.candidate
  have hgap : ∀ fuel, s₁.cursor.rest.length < fuel →
      skipGap false 0 fuel s₁.keyAllowed s₁.cursor = (false, s₁.cursor) := by
    intro fuel hfuel
    obtain ⟨fuel, rfl⟩ : ∃ f, fuel = f + 1 := ⟨fuel - 1, by omega⟩
    rw [skipGap_spaces (j := 0) h.rest ⟨⟨rfl, rfl⟩, (by decide : (58 : ℕ) ≠ 35)⟩, Cursor.skip_zero,
      h.keyAllowed]
  have hsame : s₁.landed false s₁.cursor = s₁ := by
    rw [landed, ← h.keyAllowed]
  obtain ⟨s₂, hcolon, hready₂, hcalm₂, hallowed₂, hcursor₂⟩ :=
    colon?_eq h.ready hlevels hopen hposition h.taken (by rw [hcolumn]; exact hopens)
  have hrest₂ : s₂.cursor.rest = z := by
    rw [hcursor₂]
    exact Cursor.rest_skip_of (w := [58]) h.rest
  have hreach₂ : s₁.Reaches s₂.take := by
    refine reaches_of_next? (fun fuel hfuel => ?_) ?_ ?_
    · refine next?_of_token? h.ready (hgap fuel hfuel) (by rw [h.rest]; simp) ?_ ?_
        (Cursor.isDocumentMark_of_column ?_) (by rw [hsame, token?_colon h.rest hz, hcolon])
        hready₂.isBroken (skipLineComment_eq (by rw [hrest₂]; exact hcomment))
      · intro i hi
        have hle := hopens.head_le i hi
        rw [h.column]
        omega
      · rw [h.column]
        omega
      · rw [h.column]
        omega
    · rw [hready₂.tokens, List.head?_reverse]
      simp
    · rw [hrest₂, h.rest]
      simp
  refine ⟨s₂.take, hreach.trans hreach₂, hready₂.take, hcalm₂, hallowed₂, hrest₂, ?_⟩
  show column < s₂.cursor.column
  rw [hcursor₂]
  show column < s₁.cursor.column + 1
  rw [h.column]
  omega

/-! ## Dashes -/

theorem indicator?_eq {s₁ s₂ : Scan} {opening t : Token} {after : Bool}
    (hallowed : s.keyAllowed = true)
    (hindent : s.indent? s.cursor.column s.count opening = some s₁)
    (hdrop : s₁.dropCandidate? = some s₂) :
    s.indicator? opening t after =
      some (({ s₂ with keyAllowed := after } : Scan).add t (s₂.cursor.skip 1)) := by
  unfold indicator?
  simp [hallowed, hindent, hdrop]

theorem token?_dash {x : List ℕ} (hrest : s.cursor.rest = 45 :: 32 :: x) :
    s.token? = s.indicator? .blockListStart .item true := by
  have hpeek : s.cursor.peek = 45 := Cursor.peek_of_rest hrest
  have hnext : s.cursor.peekAt 1 = 32 := by
    rw [Cursor.peekAt, hrest]
    rfl
  simp [token?, hpeek, hnext, isGap, isBlank]

theorem leads_item {x : List ℕ} (hready : s.Ready ts I) (hcalm : s.Calm)
    (hlands : s.Lands true column (45 :: 32 :: x)) (hx : Starts x) (hcolumn : 0 < column)
    (hopens : Opens .blockListStart column I first I') :
    s.Leads (ts ++ first ++ [.item]) I' true (column + 2) x := by
  refine leads_of_token? hready hlands (by simp) hopens.head_le (by omega) (by simp) ?_
  intro c hrest hcolumn'
  obtain ⟨l, hlevels⟩ := hready.levels
  have hrest' : (c.skip 1).rest = List.replicate 1 32 ++ x := Cursor.rest_skip_of (w := [45]) hrest
  -- the scans with the collection started, and with the dash added
  let s₁ : Scan := ⟨c, first ++ s.tokens, s.count + first.length, s.taken, s.levels, s.depth, I',
    true, s.markReach, s.isBroken⟩
  let s₂ : Scan := ⟨c.skip 1, .item :: (first ++ s.tokens), s.count + first.length + 1, s.taken,
    [⟨none, l.latest⟩], s.depth, I', true, s.markReach, s.isBroken⟩
  have hindent : (s.landed true c).indent? c.column s.count .blockListStart = some s₁ := by
    have hindent := hopens.indent? (s := s.landed true c) (hready.landed true c).inFlow
      hready.indents s.count (by rw [hready.count]; exact hready.taken)
    rw [hcolumn', hindent, show (s.landed true c).count - s.count = 0 from Nat.sub_self _]
    rfl
  have hdrop := Calm.dropCandidate? (s := s₁) hcalm hlevels
  refine ⟨s₂, ?_, ⟨?_, ?_, ?_, hready.depth, ⟨_, rfl⟩, rfl, hready.markReach, hready.isBroken⟩,
    by simp [Calm, s₂], ?_, ?_, ?_⟩
  · rw [token?_dash hrest]
    exact indicator?_eq rfl hindent hdrop
  · show Token.item :: (first ++ s.tokens) = _
    rw [hready.tokens]
    simp [hopens.reverse]
  · show s.count + first.length + 1 = _
    rw [hready.count, List.length_append, List.length_append]
    rfl
  · have htaken := hready.taken
    show s.taken ≤ _
    simp only [List.length_append]
    omega
  · show (c.skip 1).rest.length < _
    rw [hrest']
    simp
  · show ((c.skip 1).rest.dropWhile isBlank).headD 0 ≠ 35
    rw [hrest', List.replicate_one, List.singleton_append, List.dropWhile_cons_of_pos rfl]
    exact dropWhile_isBlank_of_starts hx
  · have hlands' := lands_spaces (s := s₂) hrest' hx
    rw [← hcolumn']
    exact hlands'

/-! ## Brackets -/

/-- The scan between the two brackets of an empty list. -/
structure InBrackets (s : Scan) (ts : List Token) (I : List ℕ) (l : Level) (z : List ℕ) : Prop where
  tokens : s.tokens = .listStart :: ts.reverse
  count : s.count = ts.length + 1
  taken : s.taken ≤ ts.length
  depth : s.depth = 2
  levels : s.levels = [⟨none, ts.length⟩, l]
  indents : s.indents = I
  markReach : s.markReach = 0
  isBroken : s.isBroken = false
  keyAllowed : s.keyAllowed = true
  rest : s.cursor.rest = 93 :: z
  column : 0 < s.cursor.column

theorem reaches_inBrackets {outer : ℕ} {z : List ℕ} (hready : s.Ready ts (outer :: I))
    (hcalm : s.Calm) (hlands : s.Lands false column (91 :: 93 :: z)) (hdeep : outer < column) :
    ∃ s' l, s.Reaches s' ∧ s'.InBrackets ts (outer :: I) l z ∧
      ∀ k ∈ l.candidate, k.required = false := by
  obtain ⟨c, hrest, rfl, hlength, hgap⟩ := hlands
  obtain ⟨l, hlevels⟩ := hready.levels
  have hrest' : (c.skip 1).rest = 93 :: z := Cursor.rest_skip_of (w := [91]) hrest
  let s₁ : Scan := ⟨c.skip 1, .listStart :: s.tokens, s.count + 1, s.taken,
    ⟨none, s.count⟩ :: s.levels, s.depth + 1, s.indents, true, s.markReach, s.isBroken⟩
  have htoken : (s.landed false c).token? = some s₁ := by
    have hshallow : ¬maxDepth < (s.landed false c).depth := by
      show ¬maxDepth < s.depth
      rw [hready.depth]
      decide
    rw [token?_open (Cursor.peek_of_rest hrest), openFlow?, if_neg hshallow]
    rfl
  have hindent : ∀ i ∈ (outer :: I).head?, i ≤ c.column := by
    intro i hi
    obtain rfl : outer = i := by simpa using hi
    omega
  have htaken : s₁.take.taken ≤ ts.length := by
    have hle := s₁.firstAwaited_le (s₁.count - 2) s₁.levels
    have hcount : s₁.count = ts.length + 1 := congrArg (· + 1) hready.count
    exact Nat.max_le.mpr ⟨hready.taken, by omega⟩
  refine ⟨s₁.take, l, reaches_of_next? (fun fuel hfuel => ?_) (by simp [s₁]) ?_,
    ⟨congrArg _ hready.tokens, congrArg (· + 1) hready.count, htaken, congrArg (· + 1) hready.depth,
      ?_, hready.indents, hready.markReach, hready.isBroken, rfl, hrest', Nat.succ_pos _⟩,
    hcalm l (by simp [hlevels])⟩
  · refine next?_of_token? hready (hgap fuel hfuel) (by rw [hrest]; simp) hindent (by omega)
      (Cursor.isDocumentMark_of_column (by omega)) htoken hready.isBroken (skipLineComment_eq ?_)
    show ((c.skip 1).rest.dropWhile isBlank).headD 0 ≠ 35
    rw [hrest']
    exact dropWhile_isBlank_of_starts ⟨⟨rfl, rfl⟩, (by decide : (93 : ℕ) ≠ 35)⟩
  · show (c.skip 1).rest.length < _
    rw [hrest']
    simp only [List.length_cons] at hlength ⊢
    omega
  · show ⟨none, s.count⟩ :: s.levels = _
    rw [hlevels, hready.count]

theorem leads_emptyList {outer k : ℕ} (hready : s.Ready ts (outer :: I)) (hcalm : s.Calm)
    (hlands : s.Lands false column (91 :: 93 :: 10 :: (List.replicate k 32 ++ r)))
    (hdeep : outer < column) (hr : Starts r) :
    s.Leads (ts ++ [.listStart, .listEnd]) (outer :: I) true k r := by
  obtain ⟨s₁, l, hreach, h, hrequired⟩ := reaches_inBrackets hready hcalm hlands hdeep
  have hrest' : (s₁.cursor.skip 1).rest = 10 :: (List.replicate k 32 ++ r) :=
    Cursor.rest_skip_of (w := [93]) h.rest
  have hflow : s₁.inFlow = true := by simp [inFlow, h.levels]
  have hsame : s₁.landed true s₁.cursor = s₁ := by rw [landed, ← h.keyAllowed]
  let s₂ : Scan := ⟨s₁.cursor.skip 1, .listEnd :: s₁.tokens, s₁.count + 1, s₁.taken,
    [l.release ts.length], 1, s₁.indents, false, s₁.markReach, s₁.isBroken⟩
  have hclose : s₁.token? = some s₂ := by
    have hdrop : s₁.dropCandidate? = some s₁ := by simp [dropCandidate?, h.levels]
    rw [token?_close (Cursor.peek_of_rest h.rest), closeFlow?, hdrop, Option.map_some]
    simp only [hflow, if_true, h.levels, h.depth]
    rfl
  have hnext : s₁.Reaches s₂.take := by
    refine reaches_of_next? (fun fuel hfuel => ?_) (by simp [s₂]) ?_
    · obtain ⟨fuel, rfl⟩ : ∃ f, fuel = f + 1 := ⟨fuel - 1, by omega⟩
      have hgap : skipGap s₁.inFlow s₁.markReach (fuel + 1) s₁.keyAllowed s₁.cursor =
          (true, s₁.cursor) := by
        rw [hflow, h.markReach, h.keyAllowed, skipGap_spaces (j := 0) h.rest
          ⟨⟨rfl, rfl⟩, (by decide : (93 : ℕ) ≠ 35)⟩, Cursor.skip_zero]
      refine next?_of_landed hgap h.isBroken (by rw [h.rest]; simp)
        (by rw [hsame]; exact if_pos hflow) (fun hzero => absurd hzero (Nat.ne_of_gt h.column))
        (Cursor.isDocumentMark_of_column h.column) (by rw [hsame]; exact hclose) h.isBroken
        (skipLineComment_eq ?_)
      show ((s₁.cursor.skip 1).rest.dropWhile isBlank).headD 0 ≠ 35
      rw [hrest', List.dropWhile_cons_of_neg (by decide)]
      exact (by decide : (10 : ℕ) ≠ 35)
    · show (s₁.cursor.skip 1).rest.length < s₁.cursor.rest.length
      rw [hrest', h.rest]
      simp
  have hready₂ : s₂.Ready (ts ++ [.listStart, .listEnd]) (outer :: I) := by
    refine ⟨?_, ?_, ?_, rfl, ⟨_, rfl⟩, h.indents, h.markReach, h.isBroken⟩
    · show Token.listEnd :: s₁.tokens = _
      rw [h.tokens]
      simp
    · show s₁.count + 1 = _
      rw [h.count, List.length_append]
      rfl
    · have htaken := h.taken
      show s₁.taken ≤ _
      rw [List.length_append]
      omega
  have hcalm₂ : s₂.Calm := by
    intro l' hl' k hk
    rw [List.mem_singleton.mp hl'] at hk
    obtain ⟨k', hk', rfl⟩ := Option.map_eq_some_iff.mp hk
    split_ifs <;> exact hrequired k' hk'
  exact ⟨s₂.take, hreach.trans hnext, hready₂.take, hcalm₂, lands_line hrest' hr⟩

end Scan

end ImportBlock.Yaml
