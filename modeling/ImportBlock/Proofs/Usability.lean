import ImportBlock.Command.Run
import ImportBlock.Proofs.Reloading

/-!
# Loaded settings can be used

The words of the settings are read in several places, each with its own trimming and folding of
case: by the checks, by the logger, by the rules for grouping and by the test for source files.
`validate_eq_ok_iff` says what the checks accept in terms of those readers. So settings that a load
returned do not fail later, and none of their words silently stands for something else
(`usable_of_load`).
-/

namespace ImportBlock

/-! ## Loggers -/

theorem LogFormat.isValid_iff {word : Text} :
    isValid word = true ↔ ∃ f, parse word = .ok f := by
  unfold isValid parse
  by_cases htext : word.lower.isEmpty || word.lower == Text.ofString "text"
  · simp [htext]
  · by_cases hjson : word.lower == Text.ofString "json" <;> simp [htext, hjson]

theorem Level.toOption_parse_isNone {word : Text} :
    (parse word).toOption.isNone = false ↔ ∃ l, parse word = .ok l := by
  rcases parse word with e | l <;> simp [Except.toOption]

theorem Logger.make_eq_ok_iff {level format : Text} {g : Logger} :
    make level format = .ok g ↔
      Level.parse level = .ok g.level ∧ LogFormat.parse format = .ok g.format := by
  unfold make
  rcases Level.parse level with e | l
  · simp [bind, Except.bind]
  · rcases LogFormat.parse format with e | f
    · simp [bind, Except.bind]
    · cases g
      simp [bind, Except.bind, pure, Except.pure]

/-- There is a logger exactly for the words that pass the checks of level and format. -/
theorem Logger.exists_make_iff {level format : Text} :
    (∃ g, make level format = .ok g) ↔
      (Level.parse level).toOption.isNone = false ∧ LogFormat.isValid format = true := by
  rw [Level.toOption_parse_isNone, LogFormat.isValid_iff]
  constructor
  · rintro ⟨g, hg⟩
    obtain ⟨hlevel, hformat⟩ := make_eq_ok_iff.mp hg
    exact ⟨⟨_, hlevel⟩, ⟨_, hformat⟩⟩
  · rintro ⟨⟨l, hlevel⟩, ⟨f, hformat⟩⟩
    exact ⟨⟨l, f⟩, make_eq_ok_iff.mpr ⟨hlevel, hformat⟩⟩

/-! ## Extensions -/

namespace Settings

theorem isExtension_iff {e : Text} :
    isExtension e = true ↔
      e.trim ≠ [] ∧ e.trim ≠ [46] ∧ 47 ∉ e.trim ∧ 92 ∉ e.trim ∧ 32 ∉ e.trim := by
  unfold isExtension
  simp only [Bool.and_eq_true, Bool.not_eq_true', List.isEmpty_eq_false_iff, bne_iff_ne, ne_eq,
    List.any_eq_false, Bool.or_eq_true, beq_iff_eq, not_or]
  grind

/-- An extension that passes the check is compared as a dot, another byte and more. -/
theorem exists_normalizeExtension {e : Text} (h : isExtension e = true) :
    ∃ b rest, Path.normalizeExtension e = 46 :: b :: rest := by
  obtain ⟨hne, hdot, -⟩ := isExtension_iff.mp h
  unfold Path.normalizeExtension
  rcases he : e.trim with _ | ⟨a, rest⟩
  · exact absurd he hne
  · by_cases ha : a = 46
    · subst ha
      rcases rest with _ | ⟨b, rest⟩
      · exact absurd he hdot
      · exact ⟨b, rest, by simp [Text.startsWith]⟩
    · exact ⟨a, rest, by simp [Text.startsWith, Ne.symm ha]⟩

theorem mem_normalizeExtension {e : Text} {b : UInt8} (h : b ∈ Path.normalizeExtension e) :
    b = 46 ∨ b ∈ e.trim := by
  unfold Path.normalizeExtension at h
  by_cases hdot : e.trim.isEmpty || e.trim.startsWith [46]
  · simp only [hdot, if_true] at h
    exact Or.inr h
  · simp only [hdot, Bool.false_eq_true, if_false] at h
    exact List.mem_cons.mp h

/-! ## Settings -/

/-- The checks accept exactly the settings whose suffix is not blank, for which there is a logger,
and whose extensions are extensions. -/
theorem validate_eq_ok_iff {s : Settings} :
    s.validate = .ok () ↔ s.interfaceSuffix.trim ≠ [] ∧
      (∃ g, Logger.make s.logLevel s.logFormat = .ok g) ∧
      ∀ e ∈ s.extensions, isExtension e = true := by
  rw [Logger.exists_make_iff]
  unfold validate
  by_cases hsuffix : s.interfaceSuffix.trim = []
  · simp [hsuffix]
  rcases hlevel : (Level.parse s.logLevel).toOption.isNone
  · rcases hformat : LogFormat.isValid s.logFormat
    · simp [hsuffix]
    · rcases hfind : s.extensions.find? fun e => !isExtension e with _ | e
      · simpa [hsuffix] using hfind
      · have hmem := List.mem_of_find?_eq_some hfind
        have hbad : isExtension e = false := by simpa using List.find?_some hfind
        simpa [hsuffix] using ⟨e, hmem, hbad⟩
  · simp [hsuffix]

/-- What a run needs of its settings: a logger at their level and at the level of details; names of
frameworks that reading them again leaves as they are; a suffix for which the standard one does not
step in; and extensions with a name in them and without separators. -/
structure Usable (s : Settings) : Prop where
  logger : ∀ level ∈ [s.logLevel, Text.ofString "debug"],
    ∃ g, Logger.make level s.logFormat = .ok g
  distinct : s.frameworks.Nodup
  trimmed : ∀ t ∈ s.frameworks, t ≠ [] ∧ t.trim = t
  names : (Frameworks.ofNames s.frameworks).names = s.frameworks
  suffix : s.interfaceSuffix.trim ≠ [] ∧ s.rules.interfaceSuffix = s.interfaceSuffix.trim
  extensions : ∀ e ∈ s.extensions, let n := Path.normalizeExtension e
    n.head? = some 46 ∧ 2 ≤ n.length ∧ 47 ∉ n ∧ 92 ∉ n ∧ 32 ∉ n

theorem usable_of_validate {s : Settings} (hvalid : s.validate = .ok ())
    (hclean : (Frameworks.ofNames s.frameworks).names = s.frameworks) : s.Usable := by
  obtain ⟨hsuffix, ⟨g, hg⟩, hextensions⟩ := validate_eq_ok_iff.mp hvalid
  refine ⟨?_, ?_, ?_, hclean, ⟨hsuffix, ?_⟩, ?_⟩
  · intro level hlevel
    rcases List.mem_pair.mp hlevel with rfl | rfl
    · exact ⟨g, hg⟩
    · have hdebug : Level.parse (Text.ofString "debug") = .ok Level.debug := by decide +kernel
      obtain ⟨-, hformat⟩ := Logger.make_eq_ok_iff.mp hg
      exact ⟨⟨Level.debug, g.format⟩, Logger.make_eq_ok_iff.mpr ⟨hdebug, hformat⟩⟩
  · rw [← hclean]
    exact Frameworks.nodup_distinct _
  · intro t ht
    rw [← hclean] at ht
    exact (Frameworks.mem_names_ofNames ht).symm
  · show (if s.interfaceSuffix.trim.isEmpty then _ else _) = _
    rw [if_neg (by simpa using hsuffix)]
  · intro e he n
    obtain ⟨-, -, hslash, hback, hspace⟩ := isExtension_iff.mp (hextensions e he)
    obtain ⟨b, rest, hn⟩ := exists_normalizeExtension (hextensions e he)
    have hbytes : ∀ x : UInt8, x ≠ 46 → x ∉ e.trim → x ∉ n := fun x hdot hx hmem =>
      (mem_normalizeExtension hmem).elim hdot hx
    refine ⟨?_, ?_, hbytes 47 (by decide) hslash, hbytes 92 (by decide) hback,
      hbytes 32 (by decide) hspace⟩
    · show (Path.normalizeExtension e).head? = _
      rw [hn]
      rfl
    · show 2 ≤ (Path.normalizeExtension e).length
      rw [hn]
      simp

/-- **Loaded settings can be used.** Whatever was given to a load that returned settings, they are
usable, and no run with them fails for want of a logger. -/
theorem usable_of_load {path : Text} {flags : List (Key × Value)} {declared : List Key}
    {env : Environment} {h : Host} {s : Settings}
    (hload : (load path flags declared env h).1 = .ok s) :
    s.Usable ∧ ∀ (c : CommandLine) (file : Text) (h' : Host) (e : LogError),
      (Command.work c s file h').error ≠ some (.logging e) := by
  obtain ⟨hvalid, hclean⟩ := validate_of_load hload
  have husable := usable_of_validate hvalid hclean
  refine ⟨husable, fun c file h' e => ?_⟩
  have hlevel : (if c.isOn "verbose" then Text.ofString "debug" else s.logLevel) ∈
      [s.logLevel, Text.ofString "debug"] := by
    split_ifs <;> simp
  obtain ⟨g, hg⟩ := husable.logger _ hlevel
  have hlogger : Command.loggerOf c s = .ok g := hg
  unfold Command.work
  simp only [hlogger]
  cases ((Command.jobOf c s file).run h').error <;> simp

/-- Words in capitals and with blanks around them, some of them outside ASCII; names that occur
twice or are blank; an extension that is no valid UTF-8. -/
theorem usable_of_load_spaced :
    let flags : List (Key × Value) :=
      [(.frameworks, .list [.text " A", .text "B", .text "", .text "A\t"]),
        (.interfaceSuffix, .text "\u2003Api "),
        (.extensions, .list [.text "\u00A0swift", .text ".m ", .text [0xFF]]),
        (.logLevel, .text " Warning\n"), (.logFormat, .text "JSON")]
    let s : Settings :=
      { frameworks := ["A", "B"], interfaceSuffix := "\u2003Api ", collapse := false,
        extensions := [Text.ofString "\u00A0swift", Text.ofString ".m ", [0xFF]],
        logLevel := " Warning\n", logFormat := "JSON" }
    (load [] flags [] [] (.start ⟨.memory, []⟩ [] Faults.none)).1 = .ok s ∧ s.Usable := by
  intro flags s
  have hload : (load [] flags [] [] (.start ⟨.memory, []⟩ [] Faults.none)).1 = .ok s := by
    decide +kernel
  exact ⟨hload, (usable_of_load hload).1⟩

end Settings

end ImportBlock
