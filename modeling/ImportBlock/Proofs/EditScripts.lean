import ImportBlock.Diff
import Mathlib.Data.List.Basic

/-!
# Edit scripts spell both sequences

The two sequences of a script differ only in which chunks they leave out, additions or removals, so
both are read by `spelled`. Tidying moves items between chunks, but keeps what is spelled:

1. `settle` ends a run of edits. Its chunks spell the items that were pending (`spelled_settle`),
   and so does a whole pass of merging (`spelled_mergeRuns`).
2. An edit slides over a kept chunk that it ends or starts with (`spelled_slide`).

A cut around a common stretch puts both sequences together again (`Cut.Joins`), wherever it is made.
From there, by induction along the recursion, the script of two sequences spells them
(`script_spells`).
-/

namespace ImportBlock.Chunk

variable {α : Type}

/-- The items of a script without those of the chunks of one change. -/
def spelled (omitted : Change) (cs : List (Chunk α)) : List α :=
  cs.flatMap fun c => if c.change = omitted then [] else c.items

@[simp] theorem first_eq_spelled (cs : List (Chunk α)) : first cs = spelled .add cs := rfl

@[simp] theorem second_eq_spelled (cs : List (Chunk α)) : second cs = spelled .remove cs := rfl

@[simp] theorem spelled_nil (o : Change) : spelled o ([] : List (Chunk α)) = [] := rfl

@[simp] theorem spelled_cons (o : Change) (c : Chunk α) (cs : List (Chunk α)) :
    spelled o (c :: cs) = (if c.change = o then [] else c.items) ++ spelled o cs := rfl

@[simp] theorem spelled_append (o : Change) (cs cs' : List (Chunk α)) :
    spelled o (cs ++ cs') = spelled o cs ++ spelled o cs' := List.flatMap_append

/-! ## Shared ends -/

section Shared

variable [DecidableEq α] {xs ys common restX restY : List α}

theorem sharedStart_eq (h : sharedStart xs ys = (common, restX, restY)) :
    xs = common ++ restX ∧ ys = common ++ restY := by
  fun_induction sharedStart xs ys generalizing common restX restY with
  | case1 xs x ys common' restX' restY' hrec ih =>
    obtain ⟨rfl, rfl, rfl⟩ : x :: common' = common ∧ restX' = restX ∧ restY' = restY := by
      simpa using h
    obtain ⟨hxs, hys⟩ := ih hrec
    exact ⟨congrArg (x :: ·) hxs, congrArg (x :: ·) hys⟩
  | case2 x xs y ys hne =>
    obtain ⟨rfl, rfl, rfl⟩ : [] = common ∧ x :: xs = restX ∧ y :: ys = restY := by simpa using h
    exact ⟨rfl, rfl⟩
  | case3 xs ys hnil =>
    obtain ⟨rfl, rfl, rfl⟩ : [] = common ∧ xs = restX ∧ ys = restY := by simpa using h
    exact ⟨rfl, rfl⟩

theorem sharedEnd_eq (h : sharedEnd xs ys = (common, restX, restY)) :
    xs = restX ++ common ∧ ys = restY ++ common := by
  unfold sharedEnd at h
  rcases hstart : sharedStart xs.reverse ys.reverse with ⟨common', restX', restY'⟩
  rw [hstart] at h
  obtain ⟨hxs, hys⟩ := sharedStart_eq hstart
  obtain ⟨rfl, rfl, rfl⟩ : common'.reverse = common ∧ restX'.reverse = restX ∧
      restY'.reverse = restY := by
    simpa using h
  rw [← List.reverse_append, ← List.reverse_append, ← hxs, ← hys, List.reverse_reverse,
    List.reverse_reverse]
  exact ⟨rfl, rfl⟩

end Shared

/-! ## Tidying -/

/-- What the pending edits add to a sequence. -/
def Pending.part (o : Change) (p : Pending α) : List α := if o = .add then p.removed else p.added

/-- Only edits that were counted have items. -/
structure Pending.Counted (p : Pending α) : Prop where
  removed : p.removals = 0 → p.removed = []
  added : p.additions = 0 → p.added = []

theorem Pending.counted_none : (Pending.none : Pending α).Counted := ⟨fun _ => rfl, fun _ => rfl⟩

theorem spelled_finish (o : Change) (out : List (Chunk α)) :
    spelled o (finish out) = spelled o out.reverse := by
  unfold finish
  split
  · next c cs =>
    split_ifs with hempty
    · have hitems : c.items = [] := by simpa using hempty
      simp [hitems]
    · rfl
  · rfl

section Tidy

variable {o : Change} (ho : o ≠ .keep)

include ho

theorem Pending.spelled_chunks {p : Pending α} (hp : p.Counted) :
    spelled o p.chunks.reverse = p.part o := by
  have hremoved := hp.removed
  have hadded := hp.added
  unfold chunks part
  cases o with
  | keep => exact absurd rfl ho
  | remove => by_cases h : p.additions = 0 <;> by_cases h' : p.removals = 0 <;> simp_all
  | add => by_cases h : p.additions = 0 <;> by_cases h' : p.removals = 0 <;> simp_all

/-- The pending edits and a kept chunk, behind what is finished. -/
theorem spelled_keep_pending (out : List (Chunk α)) {p : Pending α} (hp : p.Counted)
    (items : List α) :
    spelled o (⟨.keep, items⟩ :: (p.chunks ++ out)).reverse =
      spelled o out.reverse ++ p.part o ++ items := by
  simp [← Pending.spelled_chunks ho hp, ho.symm]

theorem spelled_keepAfter (out : List (Chunk α)) (items : List α) :
    spelled o (keepAfter out items).reverse = spelled o out.reverse ++ items := by
  unfold keepAfter
  split
  · simp [ho.symm]
  · simp [ho.symm]

variable [DecidableEq α]

theorem spelled_settle (out : List (Chunk α)) {p : Pending α} (hp : p.Counted) (items : List α) :
    spelled o (settle out p items).reverse = spelled o out.reverse ++ p.part o ++ items := by
  unfold settle
  split_ifs with hfew hone
  · split
    · next hnil =>
      rw [spelled_keepAfter ho, ← Pending.spelled_chunks ho hp, hnil]
      simp
    · exact spelled_keep_pending ho out hp items
  · exact spelled_keep_pending ho out hp items
  · rcases hstart : sharedStart p.added p.removed with ⟨start, added, removed⟩
    rcases hstop : sharedEnd added removed with ⟨stop, added', removed'⟩
    obtain ⟨hadded, hremoved⟩ := sharedStart_eq hstart
    obtain ⟨hadded', hremoved'⟩ := sharedEnd_eq hstop
    have hpart : p.part o =
        start ++ Pending.part o { p with removed := removed', added := added' } ++ stop := by
      unfold Pending.part
      split_ifs
      · rw [hremoved, hremoved', List.append_assoc]
      · rw [hadded, hadded', List.append_assoc]
    have hcounted : Pending.Counted { p with removed := removed', added := added' } :=
      ⟨fun h => absurd (Or.inl h) hone, fun h => absurd (Or.inr h) hone⟩
    have hout : spelled o (if start.isEmpty then out else keepAfter out start).reverse =
        spelled o out.reverse ++ start := by
      split_ifs with hempty
      · have hnil : start = [] := by simpa using hempty
        simp [hnil]
      · exact spelled_keepAfter ho out start
    dsimp only
    rw [hstop, spelled_keep_pending ho _ hcounted, hout, hpart]
    simp

theorem spelled_mergeRuns (out : List (Chunk α)) {p : Pending α} (hp : p.Counted)
    (cs : List (Chunk α)) :
    spelled o (mergeRuns out p cs).reverse = spelled o out.reverse ++ p.part o ++ spelled o cs := by
  fun_induction mergeRuns out p cs with
  | case1 out p => simpa using spelled_settle ho out hp []
  | case2 out p items cs ih =>
    rw [ih ⟨hp.removed, by simp⟩]
    cases o <;> simp_all [Pending.part]
  | case3 out p items cs ih =>
    rw [ih ⟨by simp, hp.added⟩]
    cases o <;> simp_all [Pending.part]
  | case4 out p items cs ih =>
    rw [ih Pending.counted_none, spelled_settle ho out hp]
    simp [Pending.part, Pending.none, ho.symm]

theorem spelled_slide (before cs : List (Chunk α)) :
    spelled o (slide before cs).1 = spelled o (before.reverse ++ cs) := by
  fun_induction slide before cs with
  | case1 edit rest previous older following hsuffix moved ih =>
    obtain ⟨front, hfront⟩ := List.isSuffixOf_iff_suffix.mp hsuffix
    have hmoved : moved = previous ++ front := by
      show previous ++ edit.items.take (edit.items.length - previous.length) = _
      simp [← hfront]
    rw [ih, hmoved]
    by_cases hedit : edit.change = o <;> simp [hedit, ho.symm, ← hfront]
  | case2 edit rest previous older following _ hprefix moved ih =>
    obtain ⟨back, hback⟩ := List.isPrefixOf_iff_prefix.mp hprefix
    have hmoved : moved = back ++ following := by
      show edit.items.drop following.length ++ following = _
      simp [← hback]
    rw [ih, hmoved]
    by_cases hedit : edit.change = o <;> simp [hedit, ho.symm, ← hback]
  | case3 edit rest previous older following _ _ ih => simpa using ih
  | case4 before edit next rest _ ih => simpa using ih
  | case5 before rest _ => rfl

theorem spelled_tidyOnce (cs : List (Chunk α)) : spelled o (tidyOnce cs).1 = spelled o cs := by
  have hmerged : spelled o (finish (mergeRuns [] .none cs)) = spelled o cs := by
    rw [spelled_finish, spelled_mergeRuns ho [] Pending.counted_none]
    simp [Pending.part, Pending.none]
  unfold tidyOnce
  split
  · next hnil =>
    rw [hnil] at hmerged
    exact hmerged
  · next c cs' hcons =>
    rw [hcons] at hmerged
    rw [spelled_slide ho]
    exact hmerged

theorem spelled_tidyRounds (rounds : ℕ) (cs : List (Chunk α)) :
    spelled o (tidyRounds rounds cs) = spelled o cs := by
  induction rounds generalizing cs with
  | zero => rfl
  | succ rounds ih =>
    have honce := spelled_tidyOnce ho cs
    unfold tidyRounds
    split
    · next cs' hmoved =>
      rw [hmoved] at honce
      rw [ih, honce]
    · next cs' hstill =>
      rw [hstill] at honce
      exact honce

end Tidy

variable [DecidableEq α]

/-! ## Cuts -/

/-- The two sequences are put together from the parts of the cut. -/
def Cut.Joins (c : Cut α) (a b : List α) : Prop :=
  a = c.left.1 ++ c.common ++ c.right.1 ∧ b = c.left.2 ++ c.common ++ c.right.2

omit [DecidableEq α] in
theorem Cut.Joins.swap {c : Cut α} {a b : List α} (h : c.Joins a b) : c.swap.Joins b a := h.symm

theorem cutAround_joins (long short : List α) (i j : ℕ) :
    (cutAround long short i j).Joins long short := by
  unfold cutAround
  rcases hafter : sharedStart (long.drop i) (short.drop j) with ⟨after, longRight, shortRight⟩
  rcases hbefore : sharedEnd (long.take i) (short.take j) with ⟨before, longLeft, shortLeft⟩
  obtain ⟨hlong, hshort⟩ := sharedStart_eq hafter
  obtain ⟨hlong', hshort'⟩ := sharedEnd_eq hbefore
  constructor
  · calc long = long.take i ++ long.drop i := (List.take_append_drop i long).symm
      _ = longLeft ++ (before ++ after) ++ longRight := by
        rw [hlong, hlong']
        simp
  · calc short = short.take j ++ short.drop j := (List.take_append_drop j short).symm
      _ = shortLeft ++ (before ++ after) ++ shortRight := by
        rw [hshort, hshort']
        simp

theorem seededCut?_joins {long short : List α} {i : ℕ} {c : Cut α}
    (h : seededCut? long short i = some c) : c.Joins long short := by
  unfold seededCut? at h
  dsimp only at h
  split_ifs at h
  rw [← Option.some.inj h]
  -- the best cut so far is the first one or made around some index
  refine List.foldlRecOn (motive := fun best => Cut.Joins best long short) _ _
    (by simp [Cut.Joins]) fun best hbest j _ => ?_
  split_ifs
  · exact cutAround_joins long short i j
  · exact hbest

theorem longCut?_joins {long short : List α} {c : Cut α} (h : longCut? long short = some c) :
    c.Joins long short := by
  unfold longCut? at h
  split_ifs at h
  split at h
  · next c' d hc hd =>
    rw [← Option.some.inj h]
    split_ifs
    · exact seededCut?_joins hc
    · exact seededCut?_joins hd
  · next c' hc _ =>
    rw [← Option.some.inj h]
    exact seededCut?_joins hc
  · exact seededCut?_joins h

theorem indexOf?_eq {part xs : List α} {i : ℕ} (h : indexOf? part xs = some i) :
    xs = xs.take i ++ part ++ xs.drop (i + part.length) := by
  fun_induction indexOf? part xs generalizing i with
  | case1 hempty =>
    have hnil : part = [] := by simpa using hempty
    simp [hnil]
  | case2 => cases h
  | case3 x xs hprefix =>
    obtain ⟨rest, hrest⟩ := List.isPrefixOf_iff_prefix.mp hprefix
    obtain rfl : 0 = i := Option.some.inj h
    simp [← hrest]
  | case4 x xs _ ih =>
    obtain ⟨j, hj, rfl⟩ := Option.map_eq_some_iff.mp h
    have hrest := ih hj
    have hlen : j + 1 + part.length = j + part.length + 1 := by omega
    rw [hlen, List.take_succ_cons, List.drop_succ_cons, List.cons_append, List.cons_append, ← hrest]

/-! ## Scripts -/

/-- The script leads from the first sequence to the second. -/
structure Spells (cs : List (Chunk α)) (a b : List α) : Prop where
  first : first cs = a
  second : second cs = b

section Spells

variable {cs cs' : List (Chunk α)} {a a' b b' : List α}

omit [DecidableEq α]

theorem Spells.append (h : Spells cs a b) (h' : Spells cs' a' b') :
    Spells (cs ++ cs') (a ++ a') (b ++ b') := by
  obtain ⟨rfl, rfl⟩ := h
  obtain ⟨rfl, rfl⟩ := h'
  exact ⟨by simp, by simp⟩

theorem spells_kept (items : List α) : Spells (kept items) items items := by
  unfold kept
  split_ifs with hempty
  · obtain rfl : items = [] := by simpa using hempty
    exact ⟨rfl, rfl⟩
  · exact ⟨by simp, by simp⟩

theorem spells_exchange (a b : List α) : Spells (exchange a b) a b :=
  ⟨by simp [exchange], by simp [exchange]⟩

end Spells

theorem Spells.tidy {cs : List (Chunk α)} {a b : List α} (h : Spells cs a b) :
    Spells (tidy cs) a b := by
  obtain ⟨rfl, rfl⟩ := h
  exact ⟨spelled_tidyRounds (by simp) _ cs, spelled_tidyRounds (by simp) _ cs⟩

theorem contained?_spells {a b : List α} {cs : List (Chunk α)} (h : contained? a b = some cs) :
    Spells cs a b := by
  unfold contained? at h
  dsimp only at h
  split_ifs at h
  all_goals
    obtain ⟨i, hi, rfl⟩ := Option.map_eq_some_iff.mp h
    have heq := indexOf?_eq hi
  · exact ⟨by simpa using heq.symm, by simp⟩
  · exact ⟨by simp, by simpa using heq.symm⟩

/-- What is decided about two sequences is correct for them. -/
def Approach.Sound (a b : List α) : Approach α → Prop
  | .done cs => Spells cs a b
  | .split c => c.Joins a b

theorem approach_sound (a b : List α) : (approach a b).Sound a b := by
  have hlong : ∀ c, (if b.length < a.length then longCut? a b else (longCut? b a).map Cut.swap) =
      some c → c.Joins a b := by
    intro c h
    split_ifs at h
    · exact longCut?_joins h
    · obtain ⟨c, hc, rfl⟩ := Option.map_eq_some_iff.mp h
      exact (longCut?_joins hc).swap
  unfold approach
  split
  · next ha =>
    obtain rfl : a = [] := by simpa using ha
    exact ⟨by simp, by simp⟩
  split
  · next hb =>
    obtain rfl : b = [] := by simpa using hb
    exact ⟨by simp, by simp⟩
  split
  · next cs hcs => exact contained?_spells hcs
  split
  · exact spells_exchange a b
  split
  · next c hc => exact hlong c hc
  split
  · next x y _ => exact ⟨by simp, by simp⟩
  · exact spells_exchange a b

/-- **Edit scripts.** The script of two sequences spells both. -/
theorem script_spells (a b : List α) : Spells (script a b) a b := by
  fun_induction script a b with
  | case1 a => exact spells_kept a
  | case2 a b hne start a1 b1 hstart stop a2 b2 hstop inner ihLeft ihRight =>
    obtain ⟨rfl, rfl⟩ := sharedStart_eq hstart
    obtain ⟨rfl, rfl⟩ := sharedEnd_eq hstop
    have hinner : Spells inner a2 b2 := by
      have hsound := approach_sound a2 b2
      unfold inner
      cases happroach : approach a2 b2 with
      | done cs =>
        rw [happroach] at hsound
        exact hsound
      | split c =>
        rw [happroach] at hsound
        obtain ⟨ha, hb⟩ : c.Joins a2 b2 := hsound
        dsimp only
        split_ifs with hsmall
        · rw [ha, hb]
          exact ((ihLeft c hsmall).append (spells_kept c.common)).append (ihRight c hsmall)
        · exact spells_exchange a2 b2
    have hall := ((spells_kept start).append hinner).append (spells_kept stop)
    simpa using hall.tidy

end ImportBlock.Chunk
