import ImportBlock.Diff
import Mathlib.Data.List.Chain

/-!
# What a diff shows

The body of a report has the lines near a change and a marker for each gap between them. The loop
that writes it remembers only whether it is in a gap. Here the entries of the diff are cut into
runs, each of which is shown or left out as a whole (`Run`):

1. A line is shown exactly if a change is near it (`isShown_iff`).
2. All entries can be cut into runs that alternate (`exists_runs`).
3. The loop treats one run after the other: behind a gap, the next run is one that is shown
   (`bodyLines_runs`).

So the changes are all there, in their order (`filter_body`), and no two markers are neighbours.
-/

namespace ImportBlock.Diff

/-- There is a change at most two entries before or after index `i`. -/
def NearChange (ls : List DiffLine) (i : ℕ) : Prop :=
  ∃ (j : ℕ) (l : DiffLine), ls[j]? = some l ∧ l.change ≠ .keep ∧ ((i : ℤ) - j).natAbs ≤ 2

theorem isShown_iff {ls : List DiffLine} {i : ℕ} : isShown ls i = true ↔ NearChange ls i := by
  unfold isShown NearChange context
  rw [List.any_eq_true]
  constructor
  · rintro ⟨l, hl, hchange⟩
    obtain ⟨k, hk⟩ := List.mem_iff_getElem?.mp hl
    rw [List.getElem?_drop, List.getElem?_take] at hk
    split_ifs at hk with hlt
    exact ⟨i - 2 + k, l, hk, by simpa using hchange, by omega⟩
  · rintro ⟨j, l, hj, hchange, hnear⟩
    refine ⟨l, List.mem_iff_getElem?.mpr ⟨j - (i - 2), ?_⟩, by simpa using hchange⟩
    have hindex : i - 2 + (j - (i - 2)) = j := by omega
    rw [List.getElem?_drop, hindex, List.getElem?_take, if_pos (by omega), hj]

/-! ## Runs -/

/-- Neighbouring entries of a diff, with their indices: all near a change, or all not. -/
structure Run (ls : List DiffLine) where
  shown : Bool
  entries : List (DiffLine × ℕ)
  ne_nil : entries ≠ []
  shown_iff : ∀ e ∈ entries, shown = true ↔ NearChange ls e.2

/-- The sign in front of a line. -/
def sign : Change → UInt8
  | .remove => 45
  | .add => 43
  | .keep => 32

/-- A line behind its sign. -/
def printed (l : DiffLine) : Text := sign l.change :: l.text

theorem signed_false (l : DiffLine) : signed false l = printed l := by
  obtain ⟨_ | _ | _, t⟩ := l <;> rfl

variable {ls : List DiffLine}

/-- The lines of the report on a run. -/
def Run.body (run : Run ls) : List Text :=
  if run.shown then run.entries.map fun e => printed e.1 else ["@@"]

/-- What the loop reads of a run. -/
def Run.marked (run : Run ls) : List (DiffLine × Bool) :=
  run.entries.map fun e => (e.1, run.shown)

/-- Entries can be cut into runs of which no two neighbours are of the same kind. -/
theorem exists_runs (ls : List DiffLine) (es : List (DiffLine × ℕ)) :
    ∃ runs : List (Run ls), runs.flatMap Run.entries = es ∧
      runs.IsChain fun run next => run.shown ≠ next.shown := by
  induction es with
  | nil => exact ⟨[], rfl, .nil⟩
  | cons e es ih =>
    obtain ⟨runs, rfl, hruns⟩ := ih
    let first : Run ls := ⟨isShown ls e.2, [e], by simp, by simp [isShown_iff]⟩
    rcases runs with _ | ⟨run, runs⟩
    · exact ⟨[first], rfl, .singleton _⟩
    by_cases hsame : run.shown = isShown ls e.2
    · -- the entry goes on with the run behind it
      let longer : Run ls := ⟨run.shown, e :: run.entries, by simp, by
        rw [List.forall_mem_cons]
        exact ⟨by rw [hsame, isShown_iff], run.shown_iff⟩⟩
      refine ⟨longer :: runs, rfl, ?_⟩
      rw [List.isChain_cons] at hruns ⊢
      exact hruns
    · exact ⟨first :: run :: runs, rfl, .cons_cons (fun h => hsame h.symm) hruns⟩

/-- The entries of the runs are lines of the diff. -/
theorem getElem?_of_mem_entries {runs : List (Run ls)}
    (hentries : runs.flatMap Run.entries = ls.zipIdx) {run : Run ls} (hrun : run ∈ runs)
    {e : DiffLine × ℕ} (he : e ∈ run.entries) : ls[e.2]? = some e.1 := by
  have hzip : e ∈ ls.zipIdx := by
    rw [← hentries]
    exact List.mem_flatMap.mpr ⟨run, hrun, he⟩
  exact List.mem_zipIdx_iff_getElem?.mp hzip

/-! ## The loop -/

theorem bodyLines_shown {xs : List (DiffLine × Bool)} (hne : xs ≠ [])
    (hxs : ∀ x ∈ xs, x.2 = true) (inRun : Bool) (rest : List (DiffLine × Bool)) :
    bodyLines false inRun (xs ++ rest) =
      xs.map (fun x => printed x.1) ++ bodyLines false false rest := by
  induction xs generalizing inRun with
  | nil => exact absurd rfl hne
  | cons x xs ih =>
    obtain ⟨hx, hrest⟩ := List.forall_mem_cons.mp hxs
    obtain ⟨l, _⟩ := x
    subst hx
    rw [List.cons_append, bodyLines, signed_false, List.map_cons, List.cons_append]
    rcases xs with _ | ⟨x', xs⟩
    · rfl
    · rw [ih (by simp) hrest]

/-- Inside a gap nothing is printed. -/
theorem bodyLines_hidden {xs : List (DiffLine × Bool)} (hxs : ∀ x ∈ xs, x.2 = false)
    (rest : List (DiffLine × Bool)) :
    bodyLines false true (xs ++ rest) = bodyLines false true rest := by
  induction xs with
  | nil => rfl
  | cons x xs ih =>
    obtain ⟨hx, hrest⟩ := List.forall_mem_cons.mp hxs
    obtain ⟨l, _⟩ := x
    subst hx
    rw [List.cons_append, bodyLines, if_pos rfl, ih hrest]

/-- A gap has its marker where it begins. -/
theorem bodyLines_gap {xs : List (DiffLine × Bool)} (hne : xs ≠ [])
    (hxs : ∀ x ∈ xs, x.2 = false) (rest : List (DiffLine × Bool)) :
    bodyLines false false (xs ++ rest) = ("@@" : Text) :: bodyLines false true rest := by
  obtain ⟨⟨l, _⟩, xs, rfl⟩ := List.exists_cons_of_ne_nil hne
  obtain ⟨hx, hrest⟩ := List.forall_mem_cons.mp hxs
  obtain rfl : _ = false := hx
  rw [List.cons_append, bodyLines, if_neg (by simp), bodyLines_hidden hrest]
  rfl

/-- One run after the other. A run that follows a gap is shown, so the loop is never inside a gap
when a gap begins. -/
theorem bodyLines_runs {runs : List (Run ls)}
    (hruns : runs.IsChain fun run next => run.shown ≠ next.shown) (inRun : Bool)
    (hnext : inRun = true → ∀ run ∈ runs.head?, run.shown = true) :
    bodyLines false inRun (runs.flatMap Run.marked) = runs.flatMap Run.body := by
  induction runs generalizing inRun with
  | nil => rfl
  | cons run runs ih =>
    obtain ⟨hhead, hruns⟩ := List.isChain_cons.mp hruns
    have hne : run.marked ≠ [] := by simpa [Run.marked] using run.ne_nil
    rw [List.flatMap_cons, List.flatMap_cons, Run.body]
    by_cases hshown : run.shown = true
    · have hmarked : ∀ x ∈ run.marked, x.2 = true := by simp [Run.marked, hshown]
      rw [bodyLines_shown hne hmarked, ih hruns false (by simp), if_pos hshown, Run.marked,
        List.map_map]
      rfl
    · have hgap : run.shown = false := by simpa using hshown
      have hmarked : ∀ x ∈ run.marked, x.2 = false := by simp [Run.marked, hgap]
      obtain rfl : inRun = false := by
        by_contra hin
        exact hshown (hnext (by simpa using hin) run rfl)
      rw [bodyLines_gap hne hmarked, ih hruns true, if_neg hshown]
      · rfl
      · intro _ next hmem
        simpa [hgap] using hhead next hmem

theorem body_of_runs {runs : List (Run ls)} (hentries : runs.flatMap Run.entries = ls.zipIdx)
    (hruns : runs.IsChain fun run next => run.shown ≠ next.shown) :
    body false ls = runs.flatMap Run.body := by
  have hmarked : ls.zipIdx.map (fun p => (p.1, isShown ls p.2)) = runs.flatMap Run.marked := by
    rw [← hentries, List.map_flatMap]
    refine List.flatMap_congr fun run _ => List.map_congr_left fun e he => ?_
    rw [Bool.eq_iff_iff.mpr (isShown_iff.trans (run.shown_iff e he).symm)]
  unfold body
  rw [hmarked, bodyLines_runs hruns false (by simp)]

/-! ## Changes and markers -/

/-- Is a printed line an added or a removed one? -/
def marksChange (t : Text) : Bool := t.head? == some 43 || t.head? == some 45

theorem marksChange_printed (l : DiffLine) : marksChange (printed l) = (l.change != .keep) := by
  obtain ⟨_ | _ | _, t⟩ := l <;> rfl

/-- A change is near itself, so a gap has none. -/
theorem Run.change_eq_keep {run : Run ls} (hgap : run.shown = false)
    (hentries : ∀ e ∈ run.entries, ls[e.2]? = some e.1) {e : DiffLine × ℕ}
    (he : e ∈ run.entries) : e.1.change = .keep := by
  by_contra hchange
  have hnear : NearChange ls e.2 := ⟨e.2, e.1, hentries e he, hchange, by omega⟩
  rw [(run.shown_iff e he).mpr hnear] at hgap
  cases hgap

theorem Run.filter_body (run : Run ls) (hentries : ∀ e ∈ run.entries, ls[e.2]? = some e.1) :
    run.body.filter marksChange =
      (run.entries.filter fun e => e.1.change != .keep).map fun e => printed e.1 := by
  unfold Run.body
  split_ifs with hshown
  · rw [List.filter_map]
    congr 1
    refine List.filter_congr fun e _ => ?_
    exact marksChange_printed e.1
  · have hgap : run.shown = false := by simpa using hshown
    have hnone : (run.entries.filter fun e => e.1.change != .keep) = [] := by
      rw [List.filter_eq_nil_iff]
      intro e he
      simp [run.change_eq_keep hgap hentries he]
    rw [hnone]
    decide

/-- The changes in a body are those of the diff, in the same order. -/
theorem filter_body (ls : List DiffLine) :
    (body false ls).filter marksChange = (ls.filter fun l => l.change != .keep).map printed := by
  obtain ⟨runs, hentries, hruns⟩ := exists_runs ls ls.zipIdx
  calc (body false ls).filter marksChange
    _ = runs.flatMap fun run =>
        (run.entries.filter fun e => e.1.change != .keep).map fun e => printed e.1 := by
      rw [body_of_runs hentries hruns, List.filter_flatMap]
      refine List.flatMap_congr fun run hrun => run.filter_body fun e he => ?_
      exact getElem?_of_mem_entries hentries hrun he
    _ = (ls.zipIdx.filter fun e => e.1.change != .keep).map fun e => printed e.1 := by
      rw [← hentries, List.filter_flatMap, List.map_flatMap]
    _ = ((ls.zipIdx.map Prod.fst).filter fun l => l.change != .keep).map printed := by
      rw [List.filter_map, List.map_map]
      rfl
    _ = (ls.filter fun l => l.change != .keep).map printed := by rw [List.zipIdx_map_fst]

theorem printed_ne_marker (l : DiffLine) : printed l ≠ ("@@" : Text) := by
  intro h
  have hsign : sign l.change = 64 := (List.cons.inj h).1
  rcases hchange : l.change with _ | _ | _ <;> rw [hchange] at hsign <;> cases hsign

/-- The two printed lines are not both markers. -/
def NotBothMarkers (t u : Text) : Prop := ¬ (t = "@@" ∧ u = "@@")

theorem Run.body_cases (run : Run ls) :
    run.shown = true ∧ (∀ t ∈ run.body, t ≠ "@@") ∨ run.shown = false ∧ run.body = ["@@"] := by
  unfold Run.body
  rcases hshown : run.shown with _ | _
  · exact Or.inr ⟨rfl, rfl⟩
  · refine Or.inl ⟨rfl, fun t ht => ?_⟩
    obtain ⟨e, -, rfl⟩ := List.mem_map.mp ht
    exact printed_ne_marker e.1

theorem isChain_body (ls : List DiffLine) : (body false ls).IsChain NotBothMarkers := by
  obtain ⟨runs, hentries, hruns⟩ := exists_runs ls ls.zipIdx
  have hne : [] ∉ runs.map Run.body := by
    intro hmem
    obtain ⟨run, -, hrun⟩ := List.mem_map.mp hmem
    unfold Run.body at hrun
    split_ifs at hrun
    exact run.ne_nil (List.map_eq_nil_iff.mp hrun)
  rw [body_of_runs hentries hruns, List.flatMap_def, List.isChain_flatten hne]
  constructor
  · intro ts hts
    obtain ⟨run, -, rfl⟩ := List.mem_map.mp hts
    rcases run.body_cases with ⟨-, hbody⟩ | ⟨-, hbody⟩
    · refine List.Pairwise.isChain (List.pairwise_of_forall_mem_list ?_)
      rintro t ht u - ⟨heq, -⟩
      exact hbody t ht heq
    · rw [hbody]
      exact .singleton _
  · refine (List.isChain_map _).mpr (hruns.imp ?_)
    rintro run next hkinds t ht u hu ⟨rfl, rfl⟩
    rcases run.body_cases with ⟨-, hbody⟩ | ⟨hgap, -⟩
    · exact hbody _ (List.mem_of_getLast? ht) rfl
    · rcases next.body_cases with ⟨-, hbody⟩ | ⟨hgap', -⟩
      · exact hbody _ (List.mem_of_mem_head? hu) rfl
      · exact hkinds (hgap.trans hgap'.symm)

/-- **Elision.** The entries of a diff are cut into maximal runs: those of a run are all at most two
entries away from a change, or none of them is, and runs of the two kinds alternate. The body of
the report has, in this order, each line of the first kind behind its sign and one marker for each
run of the second kind. So it has every change, in order, and no two markers next to each other. -/
theorem body_elides (ls : List DiffLine) :
    (∃ runs : List (Run ls), runs.flatMap Run.entries = ls.zipIdx ∧
      runs.IsChain (fun run next => run.shown ≠ next.shown) ∧
      body false ls = runs.flatMap Run.body) ∧
    (body false ls).filter marksChange = (ls.filter fun l => l.change != .keep).map printed ∧
    (body false ls).IsChain NotBothMarkers := by
  obtain ⟨runs, hentries, hruns⟩ := exists_runs ls ls.zipIdx
  exact ⟨⟨runs, hentries, hruns, body_of_runs hentries hruns⟩, filter_body ls, isChain_body ls⟩

/-- A gap at the start, and one of a single line between two changes. -/
example :
    let kept (t : Text) : DiffLine := ⟨.keep, t⟩
    body false [kept "a", kept "b", kept "c", ⟨.add, "d"⟩, kept "e", kept "f", kept "g", kept "h",
      kept "i", ⟨.remove, "j"⟩] =
      ["@@", " b", " c", "+d", " e", " f", "@@", " h", " i", "-j"] := by
  decide +kernel

end ImportBlock.Diff
