import ImportBlock.Proofs.Reformatting
import ImportBlock.Proofs.Replacing
import ImportBlock.Proofs.RoundTrip

/-!
# Reading a formatted text

The lines of a formatted text are those of the sorted buffer, written and read again. The lines of
the given text are read back, and so are the new ones, which all end alike. So lines can be joined
only where the new lines meet the old ones, and only an empty line is lost there
(`lacksAtMostOne_reread_append`). At the front this takes new lines that end with line feeds, at the
back it takes carriage returns: at most one of the two happens (`format_keeps_lines`).
-/

namespace ImportBlock

open Block

/-- The second list is the first one, or the first one without one of its empty lines. -/
def LacksAtMostOne (ts us : List Text) : Prop :=
  us = ts ∨ ∃ front back, ts = front ++ [] :: back ∧ us = front ++ back

theorem LacksAtMostOne.filter_eq {ts us : List Text} (h : LacksAtMostOne ts us) {p : Text → Bool}
    (hp : p [] = false) : us.filter p = ts.filter p := by
  rcases h with rfl | ⟨front, back, rfl, rfl⟩
  · rfl
  · simp [hp]

namespace Buffer

/-! ## Joined lines -/

theorem reread_append {xs ys : List BufferLine} (hxs : Apart xs) (hys : ys ≠ [])
    (hborder : ∀ l ∈ xs.getLast?, ∀ l' ∈ ys.head?, ¬ l.Joins l') :
    reread (xs ++ ys) = xs ++ reread ys := by
  induction xs with
  | nil => rfl
  | cons x xs ih =>
    rcases xs with _ | ⟨x', xs⟩
    · obtain ⟨y, ys, rfl⟩ := List.exists_cons_of_ne_nil hys
      have hxy : ¬ x.Joins y := hborder x rfl y rfl
      simp [reread, hxy]
    · obtain ⟨hxx', hxs⟩ := List.isChain_cons_cons.mp hxs
      have hrest := ih hxs (by simpa using hborder)
      rw [List.cons_append, List.cons_append, reread, if_neg hxx', ← List.cons_append, hrest]
      rfl

/-- A line that is joined to the next one gets its line feed. -/
theorem reread_append_joined {xs ys : List BufferLine} {l l' : BufferLine}
    (hxs : Apart (xs ++ [l])) (hjoins : l.Joins l') :
    reread (xs ++ l :: l' :: ys) = xs ++ ⟨l.text, some .crlf⟩ :: reread ys := by
  obtain ⟨hxs, -, hborder⟩ := List.isChain_append.mp hxs
  rw [reread_append hxs (by simp) (by simpa using hborder), reread, if_pos hjoins]

/-- Two lists that are read back alone lose at most an empty line where they meet. -/
theorem lacksAtMostOne_reread_append {xs ys : List BufferLine} (hxs : Apart xs) (hys : Apart ys)
    (hlast : (xs ++ ys).getLast? ≠ some ⟨[], none⟩) :
    LacksAtMostOne ((xs ++ ys).map BufferLine.text) ((reread (xs ++ ys)).map BufferLine.text) := by
  by_cases hborder : ∀ l ∈ xs.getLast?, ∀ l' ∈ ys.head?, ¬ l.Joins l'
  · have hself := reread_eq_self_iff.mpr ⟨List.isChain_append.mpr ⟨hxs, hys, hborder⟩, hlast⟩
    exact Or.inl (by rw [hself])
  · push Not at hborder
    obtain ⟨l, hl, l', hl', hjoins⟩ := hborder
    obtain ⟨xs, rfl⟩ := List.getLast?_eq_some_iff.mp hl
    obtain ⟨ys, rfl⟩ := List.head?_eq_some_iff.mp hl'
    have hys' : reread ys = ys := by
      refine reread_eq_self_iff.mpr ⟨hys.tail, fun h => hlast ?_⟩
      rw [List.getLast?_append_of_ne_nil _ (by simp), List.getLast?_cons, h]
      rfl
    rw [List.append_assoc, List.singleton_append, reread_append_joined hxs hjoins, hys', hjoins.2]
    refine Or.inr ⟨xs.map BufferLine.text ++ [l.text], ys.map BufferLine.text, ?_, ?_⟩ <;> simp

/-! ## Terminators of one kind -/

/-- All terminators of the lines are the same. -/
def Uniform (e : Terminator) (ls : List BufferLine) : Prop := ∀ l ∈ ls, ∀ t ∈ l.ending, t = e

theorem uniform_append {e : Terminator} {ls ls' : List BufferLine} :
    Uniform e (ls ++ ls') ↔ Uniform e ls ∧ Uniform e ls' :=
  List.forall_mem_append

theorem Uniform.apart {e : Terminator} {ls : List BufferLine} (h : Uniform e ls) : Apart ls := by
  induction ls with
  | nil => exact .nil
  | cons l ls ih =>
    rcases ls with _ | ⟨l', ls⟩
    · exact .singleton l
    · refine .cons_cons ?_ (ih fun x hx => h x (by simp [hx]))
      rintro ⟨hcr, rfl⟩
      have hl : .cr = e := h l (by simp) .cr hcr
      have hl' : .lf = e := h ⟨[], some .lf⟩ (by simp) .lf rfl
      rw [← hl] at hl'
      cases hl'

/-- If there is one kind of terminator, it is the first one. -/
theorem Uniform.firstTerminator {e : Terminator} {ls : List BufferLine} (h : Uniform e ls) :
    Uniform (firstTerminator ls) ls := by
  intro l hl t ht
  rcases hfirst : ls.findSome? BufferLine.ending with _ | t'
  · rw [List.findSome?_eq_none_iff.mp hfirst l hl] at ht
    cases ht
  · obtain ⟨l', hl', ht'⟩ := List.exists_of_findSome?_eq_some hfirst
    rw [Buffer.firstTerminator, hfirst, Option.getD_some, h l hl t ht, h l' hl' t' ht']

theorem uniform_insertedLines (nl : Terminator) {last : Option Terminator}
    (hlast : ∀ t ∈ last, t = nl) (new : List Text) : Uniform nl (insertedLines nl last new) := by
  rcases List.eq_nil_or_concat' new with rfl | ⟨new, t, rfl⟩
  · simp [Uniform, insertedLines, setLastEnding]
  · rw [insertedLines_concat, uniform_append]
    refine ⟨by simp [Uniform], ?_⟩
    intro l hl
    rw [List.mem_singleton.mp hl]
    exact hlast

end Buffer

namespace Rules

open Buffer

/-! ## The lines of the sorted buffer -/

/-- The last of the new lines has their terminator or none. -/
theorem eq_of_mem_last {p : Prop} [Decidable p] {nl : Terminator} :
    ∀ t ∈ if p then none else some nl, t = nl := by
  intro t ht
  split_ifs at ht
  · cases ht
  · exact (Option.some.inj ht).symm

section Cut

variable {r : Rules} {src : Text} {before block after : List BufferLine}
  (hsrc : parseLines src = before ++ block ++ after)
  (hcut : IsCut (before.map BufferLine.text) (block.map BufferLine.text)
    (after.map BufferLine.text))

include hsrc hcut

theorem map_text_regroup :
    ((parse src).regroup r).lines.map BufferLine.text = r.sort (parse src).texts := by
  have htexts : (parse src).texts = before.map BufferLine.text ++ block.map BufferLine.text ++
      after.map BufferLine.text := by
    simp [texts, parse, hsrc]
  rw [lines_regroup_of_cut hsrc hcut, htexts, r.sort_of_cut hcut, List.map_append, List.map_append,
    map_text_insertedLines]

theorem ended_regroup : Ended ((parse src).regroup r).lines := by
  have hblock : block ≠ [] := by simpa using hcut.ne_nil
  have hended := ended_parseLines src
  rw [hsrc] at hended
  have hsplice := ended_splice before block after (newlineOf src)
    ((r.group (imports (block.map BufferLine.text))).lines r.collapse) hended
  rw [splice_append _ _ _ _ hblock (r.lines_ne_nil hcut.toIsBlock _)] at hsplice
  rwa [lines_regroup_of_cut hsrc hcut]

theorem clean_regroup : ∀ l ∈ ((parse src).regroup r).lines, l.text.Clean := by
  have hclean : ∀ l ∈ before ++ block ++ after, l.text.Clean := fun l hl =>
    clean_of_mem_parseLines (by rwa [hsrc])
  rw [lines_regroup_of_cut hsrc hcut]
  intro l hl
  rcases List.mem_append.mp hl with hl | hl
  · rcases List.mem_append.mp hl with hl | hl
    · exact hclean l (by simp [hl])
    · have htext := List.mem_map_of_mem (f := BufferLine.text) hl
      rw [map_text_insertedLines] at htext
      exact clean_of_mem_lines (clean_middle hsrc) htext
  · exact hclean l (by simp [hl])

theorem getLast?_regroup_ne :
    ((parse src).regroup r).lines.getLast? ≠ some ⟨[], none⟩ := by
  rw [lines_regroup_of_cut hsrc hcut]
  intro hlast
  by_cases hafter : after = []
  · have htext := congrArg (Option.map BufferLine.text) hlast
    have hne := r.lines_ne_nil hcut.toIsBlock r.collapse
    rw [hafter, List.append_nil, ← List.getLast?_map, List.map_append, map_text_insertedLines,
      List.getLast?_append_of_ne_nil _ hne] at htext
    exact r.getLast?_lines_ne _ htext
  · have hread := (reread_eq_self_iff.mp (reread_parseLines src)).2
    rw [hsrc, List.getLast?_append_of_ne_nil _ hafter] at hread
    rw [List.getLast?_append_of_ne_nil _ hafter] at hlast
    exact hread hlast

theorem parseLines_out : parseLines (r.format src).out = reread ((parse src).regroup r).lines := by
  rw [out_format, parseLines_written (clean_regroup hsrc hcut) (ended_regroup hsrc hcut)]

/-- The new lines are joined to those in front of them only if they end with line feeds, and to
those behind them only if they end with carriage returns. -/
theorem lacksAtMostOne_regroup :
    LacksAtMostOne (((parse src).regroup r).lines.map BufferLine.text)
      ((reread ((parse src).regroup r).lines).map BufferLine.text) := by
  have hlast := getLast?_regroup_ne (r := r) hsrc hcut
  have hread := (reread_eq_self_iff.mp (reread_parseLines src)).1
  rw [lines_regroup_of_cut hsrc hcut] at hlast ⊢
  rw [hsrc, Apart, List.isChain_append, List.isChain_append] at hread
  obtain ⟨⟨hbefore, -, -⟩, hafter, -⟩ := hread
  have hinserted : Uniform (newlineOf src) (insertedLines (newlineOf src)
      (if after.isEmpty && endsOpen block then none else some (newlineOf src))
      ((r.group (imports (block.map BufferLine.text))).lines r.collapse)) :=
    uniform_insertedLines _ eq_of_mem_last _
  by_cases hcr : newlineOf src = .cr
  · refine lacksAtMostOne_reread_append ?_ hafter hlast
    refine List.isChain_append.mpr ⟨hbefore, hinserted.apart, ?_⟩
    rintro l - l' hl' ⟨-, rfl⟩
    have hlf : .lf = newlineOf src := hinserted _ (List.mem_of_mem_head? hl') .lf rfl
    rw [hcr] at hlf
    cases hlf
  · rw [List.append_assoc] at hlast ⊢
    refine lacksAtMostOne_reread_append hbefore ?_ hlast
    refine List.isChain_append.mpr ⟨hinserted.apart, hafter, ?_⟩
    rintro l hl l' - ⟨hend, -⟩
    exact hcr (hinserted l (List.mem_of_getLast? hl) .cr hend).symm

theorem uniform_regroup {e : Terminator} (h : Uniform e (parseLines src)) :
    Uniform (newlineOf src) ((parse src).regroup r).lines := by
  have hall := h.firstTerminator
  rw [firstTerminator_parseLines, hsrc, uniform_append, uniform_append] at hall
  rw [lines_regroup_of_cut hsrc hcut, uniform_append, uniform_append]
  exact ⟨⟨hall.1.1, uniform_insertedLines _ eq_of_mem_last _⟩, hall.2⟩

end Cut

/-- **Reading a formatted text.** The lines of the formatted text are the sorted lines of the given
one, up to one empty line. None is missing if the given text has one kind of terminator. -/
theorem format_keeps_lines (r : Rules) (src : Text) :
    let sorted := r.sort (parse src).texts
    let lines := (parse (r.format src).out).texts
    lines.filter (fun l => Line.role l != .blank) = sorted.filter (fun l => Line.role l != .blank) ∧
    (lines = sorted ∨ ∃ front back, sorted = front ++ [] :: back ∧ lines = front ++ back) ∧
    ((∃ e, ∀ l ∈ (parse src).lines, ∀ t ∈ l.ending, t = e) → lines = sorted) := by
  intro sorted lines
  suffices h : LacksAtMostOne sorted lines ∧
      ((∃ e, Uniform e (parseLines src)) → lines = sorted) from
    ⟨h.1.filter_eq (by simp), h.1, h.2⟩
  cases hplan : r.plan (parse src).texts with
  | none =>
    have hlines : lines = sorted := by
      show (parse (r.format src).out).texts = r.sort (parse src).texts
      rw [format_of_plan_eq_none hplan, sort_of_plan_eq_none hplan]
    exact ⟨Or.inl hlines, fun _ => hlines⟩
  | some e =>
    obtain ⟨before, block, after, hsrc, hcut, -⟩ := exists_cut_of_plan_texts hplan
    have hsrc : parseLines src = before ++ block ++ after := hsrc
    have hsorted : sorted = ((parse src).regroup r).lines.map BufferLine.text :=
      (map_text_regroup hsrc hcut).symm
    have hlines : lines = (reread ((parse src).regroup r).lines).map BufferLine.text := by
      show (parseLines (r.format src).out).map BufferLine.text = _
      rw [parseLines_out hsrc hcut]
    rw [hsorted, hlines]
    refine ⟨lacksAtMostOne_regroup hsrc hcut, ?_⟩
    rintro ⟨e, he⟩
    have hself := reread_eq_self_iff.mpr
      ⟨(uniform_regroup (r := r) hsrc hcut he).apart, getLast?_regroup_ne hsrc hcut⟩
    rw [hself]

/-- Carriage returns only, and a separator that stays a line of its own. -/
theorem format_keeps_lines_carriage_returns :
    (∃ e, ∀ l ∈ (parse "x\rimport BInterfaces\rimport A").lines, ∀ t ∈ l.ending, t = e) ∧
    (parse (standard.format "x\rimport BInterfaces\rimport A").out).texts =
      ["x", "import A", "", "import BInterfaces"] := by
  have hone : ∃ e, ∀ l ∈ (parse "x\rimport BInterfaces\rimport A").lines, ∀ t ∈ l.ending, t = e :=
    ⟨.cr, by decide +kernel⟩
  refine ⟨hone, ((format_keeps_lines standard _).2.2 hone).trans ?_⟩
  decide +kernel

/-- The line feed of the separator is joined to the carriage return in front of the block. -/
example : (standard.sort (parse "x\ny\rimport AInterfaces").texts,
      (parse (standard.format "x\ny\rimport AInterfaces").out).texts) =
    ((["x", "y", "", "import AInterfaces"], ["x", "y", "import AInterfaces"]) :
      List Text × List Text) := by
  decide +kernel

end Rules

end ImportBlock
