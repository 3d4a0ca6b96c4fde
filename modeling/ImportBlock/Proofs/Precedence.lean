import ImportBlock.Config.Load
import ImportBlock.Proofs.FlagUses

/-!
# Precedence of settings

A setting is decoded from one value, which comes from the first layer that provides one: the flag,
the environment variable, the file, or the standard settings (`Layers.value_eq`). So a setting does
not depend on the layers behind the first that provides it, nor on other keys
(`Loading.precedence`).
-/

namespace ImportBlock

/-! ## Fields -/

/-- What the setting under a key is: a list of texts, a truth value or a text. -/
abbrev Key.Field : Key → Type
  | frameworks => List Text
  | interfaceSuffix => Text
  | collapse => Bool
  | extensions => List Text
  | logLevel => Text
  | logFormat => Text

/-- The setting under a key. -/
def Settings.get (s : Settings) : (k : Key) → k.Field
  | .frameworks => s.frameworks
  | .interfaceSuffix => s.interfaceSuffix
  | .collapse => s.collapse
  | .extensions => s.extensions
  | .logLevel => s.logLevel
  | .logFormat => s.logFormat

/-- The setting that a value stands for. -/
def Key.decode? : (k : Key) → Value → Option k.Field
  | frameworks, v => v.toTexts?.map fun names => (Frameworks.ofNames names).names
  | interfaceSuffix, v => v.toText?
  | collapse, v => v.toBool?
  | extensions, v => v.toTexts?
  | logLevel, v => v.toText?
  | logFormat, v => v.toText?

/-- The standard settings are decoded from the values that stand for them. -/
theorem Key.decode?_standard (k : Key) : k.decode? k.standard = some (Settings.standard.get k) := by
  cases k <;> decide +kernel

namespace Layers

variable {l : Layers} {s : Settings}

theorem settings?_eq_some_iff :
    l.settings? = some s ↔ l.hasBrokenGroup = false ∧
      (l.value .frameworks).toTexts? = some s.frameworks ∧
      (l.value .interfaceSuffix).toText? = some s.interfaceSuffix ∧
      (l.value .collapse).toBool? = some s.collapse ∧
      (l.value .extensions).toTexts? = some s.extensions ∧
      (l.value .logLevel).toText? = some s.logLevel ∧
      (l.value .logFormat).toText? = some s.logFormat := by
  unfold settings?
  cases hbroken : l.hasBrokenGroup with
  | true => simp
  | false =>
    simp only [Bool.false_eq_true, if_false, Option.pure_def, Option.bind_eq_bind,
      Option.bind_eq_some_iff, Option.some.injEq, true_and]
    constructor
    · rintro ⟨_, hframeworks, _, hsuffix, _, hcollapse, _, hextensions, _, hlevel, _, hformat,
        rfl⟩
      exact ⟨hframeworks, hsuffix, hcollapse, hextensions, hlevel, hformat⟩
    · rintro ⟨hframeworks, hsuffix, hcollapse, hextensions, hlevel, hformat⟩
      exact ⟨_, hframeworks, _, hsuffix, _, hcollapse, _, hextensions, _, hlevel, _, hformat,
        rfl⟩

/-- Checked settings are those of the layers, with the names of frameworks cleaned. -/
theorem checked_eq_ok_iff :
    l.checked = .ok s ↔ ∃ names, l.settings? = some { s with frameworks := names } ∧
      s.frameworks = (Frameworks.ofNames names).names ∧ s.validate = .ok () := by
  unfold checked
  constructor
  · intro h
    rcases hset : l.settings? with _ | s'
    · simp [hset] at h
    · simp only [hset] at h
      split at h
      · next hvalid =>
        cases h
        exact ⟨s'.frameworks, rfl, rfl, hvalid⟩
      · cases h
  · rintro ⟨names, hset, hnames, hvalid⟩
    rw [hset]
    simp only [← hnames, hvalid]

theorem decode?_value (h : l.checked = .ok s) (k : Key) :
    k.decode? (l.value k) = some (s.get k) := by
  obtain ⟨names, hset, hnames, -⟩ := checked_eq_ok_iff.mp h
  obtain ⟨-, hframeworks, hsuffix, hcollapse, hextensions, hlevel, hformat⟩ :=
    settings?_eq_some_iff.mp hset
  cases k with
  | frameworks => simp [Key.decode?, hframeworks, Settings.get, hnames]
  | interfaceSuffix => exact hsuffix
  | collapse => exact hcollapse
  | extensions => exact hextensions
  | logLevel => exact hlevel
  | logFormat => exact hformat

/-! ## The first layer that provides a value -/

/-- Nothing but a mapping is in the place of the group of log settings, neither in the file nor in
the environment. -/
structure Regular (env : Environment) (file : Value) : Prop where
  env : env.get? Key.loggingEnvName = none
  file : ∀ v, file.entry? Key.logging = some v → ∃ entries, v = .map entries

theorem hasLooseGroup_eq (h : Regular l.env l.file) : l.hasLooseGroup = false := by
  unfold hasLooseGroup
  rcases hentry : l.file.entry? Key.logging with _ | v
  · rfl
  · obtain ⟨entries, rfl⟩ := h.file v hentry
    rfl

theorem hasEmptyGroup_eq (h : Regular l.env l.file) : l.hasEmptyGroup = false := by
  unfold hasEmptyGroup
  rcases hentry : l.file.entry? Key.logging with _ | v
  · rfl
  · obtain ⟨entries, rfl⟩ := h.file v hentry
    rfl

/-- The order of the layers. -/
theorem value_eq (h : Regular l.env l.file) (k : Key) :
    l.value k = ((l.flag? k).or (((l.env.get? k.envName).map .text).or (k.inFile? l.file))).getD
      k.standard := by
  have hvariable : l.groupVariable = false := by
    unfold groupVariable
    rw [h.env]
    rfl
  unfold value lower
  rw [hasEmptyGroup_eq h, hasLooseGroup_eq h, hvariable]
  rcases l.flag? k with _ | v
  · rcases l.env.get? k.envName with _ | t
    · rcases k.inFile? l.file with _ | v <;> simp
    · simp
  · simp

end Layers

/-! ## Two loads -/

/-- A load succeeds when the file can be read and the layers pass the checks. -/
theorem Settings.load_eq_ok_iff {path : Text} {flags : List (Key × Value)} {declared : List Key}
    {env : Environment} {h : Host} {s : Settings} :
    (load path flags declared env h).1 = .ok s ↔
      ∃ file, (ConfigFile.load path env h).1 = .ok file ∧
        Layers.checked ⟨flags, declared, env, file⟩ = .ok s := by
  unfold load
  rcases ConfigFile.load path env h with ⟨e | file, h'⟩ <;> simp

namespace CommandLine

theorem lookup_filterMap (c : CommandLine) (k : Key) (ks : List Key) :
    (ks.filterMap fun k => (c.flags.lookup k.flag).map fun v => (k, settingOf v)).lookup k =
      if k ∈ ks then (c.flags.lookup k.flag).map settingOf else none := by
  induction ks with
  | nil => rfl
  | cons k' ks ih =>
    rw [List.filterMap_cons]
    by_cases hk : k = k'
    · subst hk
      rcases hlookup : c.flags.lookup k.flag with _ | v
      · simp [ih, hlookup]
      · simp
    · have hother : (k == k') = false := by simpa using hk
      rcases c.flags.lookup k'.flag with _ | v
      · simp [ih, hk]
      · simp [ih, hk, List.lookup_cons, hother]

/-- The flag of a setting provides its value, and no other flag does. -/
theorem lookup_settings (c : CommandLine) (k : Key) :
    c.settings.lookup k = (c.flags.lookup k.flag).map settingOf := by
  have hk : k ∈ Key.all := by cases k <;> decide
  unfold settings
  rw [lookup_filterMap, if_pos hk]

end CommandLine

/-- A load that succeeds: what it is given, what it reads and what comes out. -/
structure Loading where
  /-- The path of the configuration file, empty if one is searched for. -/
  path : Text
  /-- The flags that the command line may use. -/
  known : List Flag
  words : List Text
  env : Environment
  host : Host
  line : CommandLine
  file : Value
  settings : Settings
  line_eq : CommandLine.read known words = .ok line
  file_eq : (ConfigFile.load path env host).1 = .ok file
  settings_eq : (Settings.load path line.settings (CommandLine.declared known) env host).1 =
    .ok settings

namespace Loading

/-- The uses of the flag of a key on the command line. -/
def uses (a : Loading) (k : Key) : List (FlagKind × Text) :=
  CommandLine.ofName (CommandLine.uses a.known a.words) k.flag

/-- The layers of a load. -/
def layers (a : Loading) : Layers :=
  ⟨a.line.settings, CommandLine.declared a.known, a.env, a.file⟩

theorem checked_layers (a : Loading) : a.layers.checked = .ok a.settings := by
  obtain ⟨file, hfile, hchecked⟩ := Settings.load_eq_ok_iff.mp a.settings_eq
  rw [a.file_eq, Except.ok.injEq] at hfile
  rw [← hfile] at hchecked
  exact hchecked

theorem flag?_layers (a : Loading) (k : Key) :
    a.layers.flag? k = ((a.uses k).foldl CommandLine.valueAfter? none).map
      CommandLine.settingOf := by
  have hfollows := CommandLine.follows_read a.line_eq
  unfold Layers.flag? layers uses
  rw [CommandLine.lookup_settings, hfollows.lookup]
  rfl

theorem flag?_layers_of_uses (a : Loading) {k : Key} (h : a.uses k ≠ []) :
    ∃ v, a.layers.flag? k = some v := by
  have hgiven := (CommandLine.follows_read a.line_eq).given k.flag h
  obtain ⟨v, hv⟩ := Option.ne_none_iff_exists'.mp hgiven
  refine ⟨CommandLine.settingOf v, ?_⟩
  unfold Layers.flag? layers
  rw [CommandLine.lookup_settings, hv]
  rfl

theorem value_of_no_uses (a : Loading) (h : Layers.Regular a.env a.file) {k : Key}
    (huses : a.uses k = []) :
    a.layers.value k =
      (((a.env.get? k.envName).map .text).or (k.inFile? a.file)).getD k.standard := by
  have hflag : a.layers.flag? k = none := by
    rw [flag?_layers, huses]
    rfl
  rw [Layers.value_eq (l := a.layers) h, hflag, Option.none_or]
  rfl

/-- Two loads agree on a setting whose value they find alike. -/
theorem get_eq_of_value_eq {a b : Loading} {k : Key} (h : a.layers.value k = b.layers.value k) :
    a.settings.get k = b.settings.get k := by
  have ha := Layers.decode?_value a.checked_layers k
  rw [h, Layers.decode?_value b.checked_layers k] at ha
  exact (Option.some.inj ha).symm

/-- **Precedence, key by key.** Of two loads that succeed, each setting is the same if its flag is
used alike, whatever the variables and files; if its flag is not used and its variable is the same,
whatever the files and the other flags; and if neither is there and the files have the same value.
A setting that nothing provides is the standard one. -/
theorem precedence (a b : Loading) (ha : Layers.Regular a.env a.file)
    (hb : Layers.Regular b.env b.file) (k : Key) :
    (a.uses k ≠ [] → b.uses k = a.uses k → a.settings.get k = b.settings.get k) ∧
    (a.uses k = [] → b.uses k = [] →
      (∀ t, a.env.get? k.envName = some t → b.env.get? k.envName = some t →
        a.settings.get k = b.settings.get k) ∧
      (a.env.get? k.envName = none → b.env.get? k.envName = none →
        ∀ v, k.inFile? a.file = some v → k.inFile? b.file = some v →
          a.settings.get k = b.settings.get k)) ∧
    (a.uses k = [] → a.env.get? k.envName = none → k.inFile? a.file = none →
      a.settings.get k = Settings.standard.get k) := by
  refine ⟨fun huses hsame => ?_, fun hua hub => ⟨fun t hta htb => ?_, fun hna hnb v hva hvb => ?_⟩,
    fun hua hna hfile => ?_⟩
  · apply get_eq_of_value_eq
    obtain ⟨v, hv⟩ := a.flag?_layers_of_uses huses
    have hv' : b.layers.flag? k = some v := by
      rw [← hv, flag?_layers, flag?_layers, hsame]
    rw [Layers.value_eq (l := a.layers) ha, Layers.value_eq (l := b.layers) hb, hv, hv']
    rfl
  · apply get_eq_of_value_eq
    rw [a.value_of_no_uses ha hua, b.value_of_no_uses hb hub, hta, htb]
    rfl
  · apply get_eq_of_value_eq
    rw [a.value_of_no_uses ha hua, b.value_of_no_uses hb hub, hna, hnb, hva, hvb]
  · have hget := Layers.decode?_value a.checked_layers k
    rw [a.value_of_no_uses ha hua, hna, hfile] at hget
    exact Option.some.inj (hget.symm.trans k.decode?_standard)

/-- Two loads with the same flags in other forms, one variable in common, and two files that agree
on the level alone. -/
theorem precedence_flags :
    ∃ a b : Loading, a.words = (["--frameworks=A,B", "--frameworks", "C"] : List Text) ∧
      b.words =
        (["--log-format=json", "--frameworks", "A,B", "x", "--frameworks=C"] : List Text) ∧
      a.file = .map [(Text.ofString "logging", .map [(Text.ofString "level", .text "debug")])] ∧
      b.file = .map [(Text.ofString "frameworks", .list [.text "Z"]),
        (Text.ofString "logging", .map [(Text.ofString "level", .text "debug")])] ∧
      a.settings.frameworks = b.settings.frameworks ∧
      a.settings.extensions = b.settings.extensions ∧
      a.settings.logLevel = b.settings.logLevel ∧
      a.settings.interfaceSuffix = Settings.standard.interfaceSuffix := by
  let a : Loading :=
    { path := "a.yaml", known := Key.all.map Key.toFlag,
      words := ["--frameworks=A,B", "--frameworks", "C"], env := [("SIG_EXTENSIONS", ".m,.mm")],
      host := Host.start ⟨.memory, [("a.yaml", .file "logging:\n  level: debug\n" 0o644)]⟩ []
        Faults.none,
      line := ⟨[("frameworks", .list ["A", "B", "C"])], []⟩,
      file := .map [(Text.ofString "logging", .map [(Text.ofString "level", .text "debug")])],
      settings := { Settings.standard with
        frameworks := ["A", "B", "C"], extensions := [".m", ".mm"], logLevel := "debug" },
      line_eq := rfl, file_eq := rfl, settings_eq := rfl }
  let b : Loading :=
    { path := "b.json", known := Key.all.map Key.toFlag,
      words := ["--log-format=json", "--frameworks", "A,B", "x", "--frameworks=C"],
      env := [("SIG_FRAMEWORKS", "Q"), ("SIG_EXTENSIONS", ".m,.mm")],
      host := Host.start ⟨.memory, [("b.json", .file
        "\x7b\"frameworks\":[\"Z\"],\"logging\":\x7b\"level\":\"debug\"\x7d\x7d" 0o644)]⟩ []
        Faults.none,
      line := ⟨[("frameworks", .list ["A", "B", "C"]), ("log-format", .text "json")], ["x"]⟩,
      file := .map [(Text.ofString "frameworks", .list [.text "Z"]),
        (Text.ofString "logging", .map [(Text.ofString "level", .text "debug")])],
      settings := { Settings.standard with
        frameworks := ["A", "B", "C"], extensions := [".m", ".mm"], logLevel := "debug",
        logFormat := "json" },
      line_eq := rfl, file_eq := rfl, settings_eq := rfl }
  have ha : Layers.Regular a.env a.file := ⟨rfl, fun v hv => ⟨_, (Option.some.inj hv).symm⟩⟩
  have hb : Layers.Regular b.env b.file := ⟨rfl, fun v hv => ⟨_, (Option.some.inj hv).symm⟩⟩
  refine ⟨a, b, rfl, rfl, rfl, rfl, ?_, ?_, ?_, ?_⟩
  · exact (precedence a b ha hb .frameworks).1 (List.cons_ne_nil _ _) rfl
  · exact ((precedence a b ha hb .extensions).2.1 rfl rfl).1 ".m,.mm" rfl rfl
  · exact ((precedence a b ha hb .logLevel).2.1 rfl rfl).2 rfl rfl (.text "debug") rfl rfl
  · exact (precedence a b ha hb .interfaceSuffix).2.2 rfl rfl rfl

end Loading

end ImportBlock
