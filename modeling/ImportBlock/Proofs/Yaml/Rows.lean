import ImportBlock.Proofs.Yaml.RowTokens

/-!
# Rows of collections

A value behind the colon of a key is a scalar, an empty list, or rows of a collection that are
indented by more than the key (`ValueReads`). Rows are read one after the other, the last one up to
a row that is indented by less (`leads_rows`); so a collection of rows is again a value
(`valueReads_rows`), and the rows at the left margin are the document (`tokens_of_rows`).
-/

namespace ImportBlock.Yaml

namespace Scan

/-! ## Values of keys -/

/-- Characters behind the colon of a key that are read as the given tokens, for a mapping at a
column, if the next row is not indented more than the mapping. There are at most `depth` collections
in them, one in the other. -/
structure ValueReads (depth column : ℕ) (z : List ℕ) (us : List Token) : Prop where
  ne_nil : z ≠ []
  gap : isGap (z.headD 0) = true
  comment : ∀ y, ((z ++ y).dropWhile isBlank).headD 0 ≠ 35
  leads : ∀ {s : Scan} {ts : List Token} {I : List ℕ} {k : ℕ} {r : List ℕ},
    s.Ready ts (column :: I) → s.Calm → s.keyAllowed = false →
    s.cursor.rest = z ++ (List.replicate k 32 ++ r) → column < s.cursor.column → k ≤ column →
    Starts r → I.length + depth < maxDepth → s.Leads (ts ++ us) (column :: I) true k r

variable {depth column : ℕ} {x z : List ℕ} {us : List Token} {t : Token}

theorem ReadsAs.value (h : ReadsAs column x us) : ValueReads depth column (32 :: x) us where
  ne_nil := by simp
  gap := rfl
  comment y := by
    rw [List.cons_append, List.dropWhile_cons_of_pos rfl]
    exact dropWhile_isBlank_of_starts (starts_append h.starts h.ne_nil y)
  leads {s ts I k r} hready hcalm hallowed hrest hcolumn hk hr _ := by
    have hlands := lands_spaces (s := s) (j := 1) hrest
      (starts_append h.starts h.ne_nil (List.replicate k 32 ++ r))
    exact h.leads hready hcalm hlands (by omega) hk hr

theorem valueReads_emptyList : ValueReads depth column [32, 91, 93, 10] [.listStart, .listEnd] where
  ne_nil := by simp
  gap := rfl
  comment y := by
    rw [List.cons_append, List.dropWhile_cons_of_pos rfl]
    exact (by decide : (91 : ℕ) ≠ 35)
  leads {s ts I k r} hready hcalm hallowed hrest hcolumn _ hr _ := by
    have hlands := lands_spaces (s := s) (j := 1)
      (r := 91 :: 93 :: 10 :: (List.replicate k 32 ++ r)) hrest
      ⟨⟨rfl, rfl⟩, (by decide : (91 : ℕ) ≠ 35)⟩
    rw [hallowed] at hlands
    exact leads_emptyList hready hcalm hlands (by omega) hr

/-! ## Rows of a collection -/

/-- Characters at a column that are read as the given tokens, as a row of a collection that starts
with the token `t`. -/
structure RowReads (t : Token) (depth column : ℕ) (x : List ℕ) (us : List Token) : Prop where
  ne_nil : x ≠ []
  starts : Starts x
  leads : ∀ {s : Scan} {ts : List Token} {I I' : List ℕ} {first : List Token} {k : ℕ} {r : List ℕ},
    s.Ready ts I → s.Calm → s.Lands true column (x ++ (List.replicate k 32 ++ r)) →
    Opens t column I first I' → k ≤ column → Starts r → I'.length + depth ≤ maxDepth →
    s.Leads (ts ++ first ++ us) I' true k r

theorem Opens.exists_cons {I I' : List ℕ} {first : List Token} (h : Opens t column I first I') :
    ∃ J, I' = column :: J := by
  cases h with
  | inside J => exact ⟨J, rfl⟩
  | start _ _ => exact ⟨I, rfl⟩

theorem ValueReads.entry {name : List ℕ} (hname : IsName name) (h : ValueReads depth column z us) :
    RowReads .blockMapStart depth column (name ++ 58 :: z)
      (.key :: .scalar .plain (textOf name) :: .value :: us) where
  ne_nil := by simp
  starts := hname.starts _
  leads {s ts I I' first k r} hready hcalm hlands hopens hk hr hdepth := by
    rw [List.append_assoc, List.cons_append] at hlands
    have hgap : isGap ((z ++ (List.replicate k 32 ++ r)).headD 0) = true := by
      obtain ⟨n, z, rfl⟩ := List.exists_cons_of_ne_nil h.ne_nil
      exact h.gap
    obtain ⟨s', hreach, hready', hcalm', hallowed, hrest, hcolumn⟩ :=
      reaches_key hname hready hcalm hlands hgap (h.comment _) hopens
    obtain ⟨J, rfl⟩ := hopens.exists_cons
    rw [List.length_cons] at hdepth
    obtain ⟨s'', hreach', h''⟩ := h.leads hready' hcalm' hallowed hrest hcolumn hk hr (by omega)
    rw [List.append_assoc] at h''
    exact ⟨s'', hreach.trans hreach', h''⟩

theorem ReadsAs.item (h : ReadsAs column x us) (hcolumn : 0 < column) :
    RowReads .blockListStart depth column (45 :: 32 :: x) (.item :: us) where
  ne_nil := by simp
  starts := ⟨⟨rfl, rfl⟩, (by decide : (45 : ℕ) ≠ 35)⟩
  leads {s ts I I' first k r} hready hcalm hlands hopens hk hr _ := by
    obtain ⟨J, rfl⟩ := hopens.exists_cons
    have hitem := leads_item hready hcalm hlands (starts_append h.starts h.ne_nil _) hcolumn hopens
    have hscalar := hitem.trans fun s' hready' hcalm' hlands' =>
      h.leads hready' hcalm' hlands' (by omega) hk hr
    rwa [List.append_assoc _ [Token.item]] at hscalar

/-- The characters of rows at a column. -/
def rowChars (column : ℕ) (rows : List (List ℕ × List Token)) : List ℕ :=
  rows.flatMap fun row => List.replicate column 32 ++ row.1

theorem rowChars_cons (column : ℕ) (row : List ℕ × List Token) (rows : List (List ℕ × List Token))
    (y : List ℕ) : rowChars column (row :: rows) ++ y =
      List.replicate column 32 ++ (row.1 ++ (rowChars column rows ++ y)) := by
  rw [rowChars, List.flatMap_cons, List.append_assoc, List.append_assoc]
  rfl

/-- The rows of a collection, one after the other. -/
theorem leads_rows {rows : List (List ℕ × List Token)}
    (hrows : ∀ row ∈ rows, RowReads t depth column row.1 row.2) (hne : rows ≠ []) {s : Scan}
    {ts : List Token} {I I' : List ℕ} {first : List Token} {k : ℕ} {r r₀ : List ℕ}
    (hready : s.Ready ts I) (hcalm : s.Calm) (hlands : s.Lands true column r₀)
    (hr₀ : List.replicate column 32 ++ r₀ = rowChars column rows ++ (List.replicate k 32 ++ r))
    (hopens : Opens t column I first I') (hk : k ≤ column) (hr : Starts r)
    (hdepth : I'.length + depth ≤ maxDepth) :
    s.Leads (ts ++ first ++ rows.flatMap Prod.snd) I' true k r := by
  induction rows generalizing s ts I first r₀ with
  | nil => exact absurd rfl hne
  | cons row rows ih =>
    rw [List.forall_mem_cons] at hrows
    rw [rowChars_cons] at hr₀
    obtain rfl := List.append_cancel_left hr₀
    rw [List.flatMap_cons, ← List.append_assoc]
    cases rows with
    | nil =>
      rw [List.flatMap_nil, List.append_nil]
      exact hrows.1.leads hready hcalm hlands hopens hk hr hdepth
    | cons next rows =>
      -- the next row is indented as far
      have hnext := List.forall_mem_cons.mp hrows.2
      have hrest := rowChars_cons column next rows (List.replicate k 32 ++ r)
      rw [hrest] at hlands
      have hrow := hrows.1.leads hready hcalm hlands hopens (Nat.le_refl _)
        (starts_append hnext.1.starts hnext.1.ne_nil _) hdepth
      obtain ⟨J, rfl⟩ := hopens.exists_cons
      refine hrow.trans fun s' hready' hcalm' hlands' => ?_
      have hmore := ih hrows.2 (by simp) hready' hcalm' hlands' hrest.symm (.inside J)
      rwa [List.append_nil] at hmore

/-- A collection on lines of its own. -/
theorem valueReads_rows {column' : ℕ} (hcolumn : column < column')
    {rows : List (List ℕ × List Token)}
    (hrows : ∀ row ∈ rows, RowReads t depth column' row.1 row.2) (hne : rows ≠ []) :
    ValueReads (depth + 1) column (10 :: rowChars column' rows)
      (t :: rows.flatMap Prod.snd ++ [.blockEnd]) where
  ne_nil := by simp
  gap := rfl
  comment y := by
    rw [List.cons_append, List.dropWhile_cons_of_neg (by decide)]
    exact (by decide : (10 : ℕ) ≠ 35)
  leads {s ts I k r} hready hcalm _ hrest _ hk hr hdepth := by
    obtain ⟨row, more, rfl⟩ := List.exists_cons_of_ne_nil hne
    have hrow := List.forall_mem_cons.mp hrows
    have hchars := rowChars_cons column' row more (List.replicate k 32 ++ r)
    have hlands : s.Lands true column'
        (row.1 ++ (rowChars column' more ++ (List.replicate k 32 ++ r))) := by
      refine lands_line ?_ (starts_append hrow.1.starts hrow.1.ne_nil _)
      rw [hrest, List.cons_append, hchars]
    have hopens : Opens t column' (column :: I) [t] (column' :: column :: I) := by
      refine .start (by simpa using hcolumn) ?_
      rw [List.length_cons]
      omega
    have hleads := leads_rows hrows hne hready hcalm hlands hchars.symm hopens (by omega) hr
      (by simp only [List.length_cons]; omega)
    have hended := hleads.trans fun s' hready' hcalm' hlands' =>
      leads_dedent hready' hcalm' hlands' (by omega)
    rwa [List.append_assoc, List.append_assoc, ← List.append_assoc [t]] at hended

end Scan

/-! ## Documents -/

/-- The tokens of a document that is a mapping. -/
theorem tokens_of_rows {rows : List (List ℕ × List Token)} {depth : ℕ}
    (hrows : ∀ row ∈ rows, Scan.RowReads .blockMapStart depth 0 row.1 row.2) (hne : rows ≠ [])
    (hdepth : depth < Scan.maxDepth) {s : Stream} (hchars : s.characters = Scan.rowChars 0 rows)
    (hbroken : s.isBroken = false) (hreach : s.markReach = 0) :
    tokens s = .blockMapStart :: rows.flatMap Prod.snd ++ [.blockEnd, .streamEnd] := by
  have hready : (Scan.start s).Ready [] [] :=
    ⟨rfl, rfl, Nat.le_refl 0, rfl, ⟨_, rfl⟩, rfl, hreach, hbroken⟩
  have hcalm : (Scan.start s).Calm := by simp [Scan.Calm, Scan.start]
  obtain ⟨row, more, rfl⟩ := List.exists_cons_of_ne_nil hne
  have hrow := List.forall_mem_cons.mp hrows
  have hstart : s.characters = row.1 ++ Scan.rowChars 0 more := by
    rw [hchars, Scan.rowChars, List.flatMap_cons]
    rfl
  have hlands : (Scan.start s).Lands true 0 (row.1 ++ Scan.rowChars 0 more) :=
    Scan.lands_spaces (j := 0) hstart (Scan.starts_append hrow.1.starts hrow.1.ne_nil _)
  obtain ⟨s', hreaches, hready', hcalm', hlands'⟩ := Scan.leads_rows (k := 0) (r := []) hrows hne
    hready hcalm hlands (by rw [← hstart, hchars]; simp) (.start (by simp) (by decide))
    (Nat.le_refl 0) ⟨⟨rfl, rfl⟩, (by decide : (0 : ℕ) ≠ 35)⟩ (by rw [List.length_singleton]; omega)
  obtain ⟨fuel, hfuel, htokens⟩ := hreaches (s.characters.length + 1) (Nat.lt_succ_self _)
  rw [tokens, htokens, Scan.tokensFrom_end hready' hcalm' hlands' hfuel]
  rfl

end ImportBlock.Yaml
