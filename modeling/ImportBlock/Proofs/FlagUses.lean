import ImportBlock.Command.Flags
import Mathlib.Tactic.SplitIfs

/-!
# The uses of a flag on a command line

Words on a command line use flags, each with a value (`uses`). What a command line says about one
flag is found by going through the uses of that flag alone (`follows_read`): other flags, arguments
and the order among them do not matter.
-/

namespace ImportBlock.CommandLine

/-! ## Uses -/

/-- The uses of flags by the letters of a word. -/
def letterUses (known : List Flag) : Text → List (Flag × Text)
  | [] => []
  | l :: rest =>
    if Text.startsWith (l :: rest) "test." then []
    else
      match known.find? fun f => f.letter == some l with
      | none => []
      | some f =>
        match rest with
        | 61 :: b :: value => [(f, b :: value)]
        | _ => (f, "true") :: letterUses known rest

/-- The uses of flags on a command line, each with its value, up to the first mistake. -/
def uses (known : List Flag) : List Text → List (Flag × Text)
  | [] => []
  | word :: rest =>
    if isArgument word then uses known rest
    else if word == [45, 45] then []
    else if word.startsWith [45, 45] then
      match named known (word.drop 2) with
      | .error _ => []
      | .ok (f, some value) => (f, value) :: uses known rest
      | .ok (f, none) =>
        if f.isSwitch then (f, "true") :: uses known rest
        else
          match rest with
          | value :: rest => (f, value) :: uses known rest
          | [] => []
    else letterUses known (word.drop 1) ++ uses known rest

/-- The uses of the flag with a name: what the flag takes, and the value. -/
def ofName (us : List (Flag × Text)) (name : Text) : List (FlagKind × Text) :=
  (us.filter fun u => u.1.name == name).map fun u => (u.1.kind, u.2)

theorem ofName_append (us us' : List (Flag × Text)) (name : Text) :
    ofName (us ++ us') name = ofName us name ++ ofName us' name := by
  simp [ofName]

/-- The value of a flag after one more use, if the use has the right form. -/
def valueAfter? (old : Option FlagValue) (u : FlagKind × Text) : Option FlagValue :=
  match u.1 with
  | .switch _ => (Value.parseBool? u.2).map .switch
  | .text => some (.text u.2)
  | .list =>
    match Csv.read u.2 with
    | .error _ => none
    | .ok more =>
      match old with
      | some (.list ts) => some (.list (ts ++ more))
      | _ => some (.list more)

/-- The second command line comes from the first by some uses of flags: the value of each flag
follows from the uses of that flag, and is there if it has a use. -/
structure Follows (c : CommandLine) (us : List (Flag × Text)) (c' : CommandLine) : Prop where
  lookup : ∀ name, c'.flags.lookup name = (ofName us name).foldl valueAfter? (c.flags.lookup name)
  given : ∀ name, ofName us name ≠ [] → c'.flags.lookup name ≠ none

theorem Follows.refl {c c' : CommandLine} (h : c'.flags = c.flags) : Follows c [] c' where
  lookup name := by rw [h]; rfl
  given name hne := absurd rfl hne

theorem Follows.trans {c c' c'' : CommandLine} {us us' : List (Flag × Text)}
    (h : Follows c us c') (h' : Follows c' us' c'') : Follows c (us ++ us') c'' where
  lookup name := by rw [ofName_append, List.foldl_append, ← h.lookup, h'.lookup]
  given name hne := by
    by_cases hlater : ofName us' name = []
    · rw [h'.lookup, hlater]
      refine h.given name fun hnil => hne ?_
      rw [ofName_append, hnil, hlater]
      rfl
    · exact h'.given name hlater

/-! ## One use -/

theorem lookup_filter_ne {name other : Text} (h : other ≠ name) (fs : List (Text × FlagValue)) :
    (fs.filter fun f => f.1 != name).lookup other = fs.lookup other := by
  induction fs with
  | nil => rfl
  | cons f fs ih =>
    obtain ⟨n, v⟩ := f
    by_cases hn : n = name
    · have hother : (other == n) = false := by simpa [hn] using h
      rw [List.filter_cons_of_neg (by simp [hn]), ih, List.lookup_cons, hother]
    · rw [List.filter_cons_of_pos (by simpa using hn), List.lookup_cons, List.lookup_cons, ih]

theorem lookup_put (c : CommandLine) (name other : Text) (v : FlagValue) :
    (c.put name v).flags.lookup other =
      if other = name then some v else c.flags.lookup other := by
  unfold put
  rw [List.lookup_cons]
  split_ifs with hname
  · simp [hname]
  · have hother : (other == name) = false := by simpa using hname
    rw [hother]
    exact lookup_filter_ne hname c.flags

theorem use_eq_ok {c c' : CommandLine} {f : Flag} {value : Text} (h : c.use f value = .ok c') :
    ∃ v, valueAfter? (c.flags.lookup f.name) (f.kind, value) = some v ∧ c' = c.put f.name v := by
  unfold use at h
  unfold valueAfter?
  rcases hkind : f.kind with letter | _ | _
  · rw [hkind] at h
    rcases hb : Value.parseBool? value with _ | b
    · simp [hb] at h
    · simp only [hb, Except.ok.injEq] at h
      exact ⟨.switch b, rfl, h.symm⟩
  · simp only [hkind, Except.ok.injEq] at h
    exact ⟨.text value, rfl, h.symm⟩
  · rw [hkind] at h
    rcases hmore : Csv.read value with e | more
    · simp [hmore] at h
    · rcases hold : c.flags.lookup f.name with _ | _ | _ | ts <;>
        simp only [hmore, hold, Except.ok.injEq] at h <;> exact ⟨_, rfl, h.symm⟩

theorem follows_use {c c' : CommandLine} {f : Flag} {value : Text} (h : c.use f value = .ok c') :
    Follows c [(f, value)] c' := by
  obtain ⟨v, hv, rfl⟩ := use_eq_ok h
  constructor
  · intro name
    rw [lookup_put]
    split_ifs with hname
    · simp [ofName, hname, hv]
    · simp [ofName, Ne.symm hname]
  · intro name hne
    rw [lookup_put]
    split_ifs with hname
    · simp
    · simp [ofName, Ne.symm hname] at hne

/-! ## All uses -/

theorem exists_of_bind {x : Except FlagError CommandLine}
    {next : CommandLine → Except FlagError CommandLine} {c' : CommandLine}
    (h : x >>= next = .ok c') : ∃ c, x = .ok c ∧ next c = .ok c' := by
  cases x with
  | error e => cases h
  | ok c => exact ⟨c, rfl, h⟩

theorem follows_useLetters {known : List Flag} {c c' : CommandLine} {letters : Text}
    (h : c.useLetters known letters = .ok c') : Follows c (letterUses known letters) c' := by
  fun_induction useLetters known c letters with
  | case1 c =>
    cases h
    exact .refl rfl
  | case2 c l rest htest =>
    cases h
    rw [letterUses, if_pos htest]
    exact .refl rfl
  | case5 c l f hfind b value htest =>
    rw [letterUses, if_neg htest, hfind]
    exact follows_use h
  | case6 c l rest htest f hfind hvalue ih =>
    obtain ⟨c₁, hc₁, hrest⟩ := exists_of_bind h
    have huses : letterUses known (l :: rest) =
        (f, Text.ofString "true") :: letterUses known rest := by
      rw [letterUses.eq_def]
      simp only [htest, Bool.false_eq_true, if_false, hfind]
    rw [huses]
    exact (follows_use hc₁).trans (ih c₁ hrest)
  | case3 | case4 => cases h

theorem follows_readWords {known : List Flag} {c c' : CommandLine} {words : List Text}
    (h : readWords known c words = .ok c') : Follows c (uses known words) c' := by
  fun_induction readWords known c words with
  | case1 c =>
    cases h
    exact .refl rfl
  | case2 c word rest harg ih =>
    rw [uses, if_pos harg]
    exact ⟨(ih h).lookup, (ih h).given⟩
  | case3 c word rest harg hend =>
    cases h
    rw [uses, if_neg harg, if_pos hend]
    exact .refl rfl
  | case5 c word rest harg hend hlong f value hnamed ih =>
    obtain ⟨c₁, hc₁, hrest⟩ := exists_of_bind h
    rw [uses, if_neg harg, if_neg hend, if_pos hlong, hnamed]
    exact (follows_use hc₁).trans (ih c₁ hrest)
  | case6 c word rest harg hend hlong f hnamed hswitch ih =>
    obtain ⟨c₁, hc₁, hrest⟩ := exists_of_bind h
    rw [uses, if_neg harg, if_neg hend, if_pos hlong, hnamed]
    simp only [hswitch, if_true]
    exact (follows_use hc₁).trans (ih c₁ hrest)
  | case7 c word harg hend hlong f hnamed hswitch value rest ih =>
    obtain ⟨c₁, hc₁, hrest⟩ := exists_of_bind h
    rw [uses, if_neg harg, if_neg hend, if_pos hlong, hnamed]
    simp only [hswitch]
    exact (follows_use hc₁).trans (ih c₁ hrest)
  | case9 c word rest harg hend hlong ih =>
    obtain ⟨c₁, hc₁, hrest⟩ := exists_of_bind h
    rw [uses, if_neg harg, if_neg hend, if_neg hlong]
    exact (follows_useLetters hc₁).trans (ih c₁ hrest)
  | case4 | case8 => cases h

/-- A command line that is read follows the uses of flags on it. -/
theorem follows_read {known : List Flag} {c : CommandLine} {words : List Text}
    (h : read known words = .ok c) : Follows ⟨[], []⟩ (uses known words) c :=
  follows_readWords h

end ImportBlock.CommandLine
