import ImportBlock.Proofs.Precedence
import ImportBlock.Proofs.PrintedSettings

/-!
# Printing and reloading settings

A configuration file that holds the values of settings under their names provides every setting,
empty texts and lists included, so none falls back to the standard one (`inFile?_document`).
Settings that a load returned were cleaned and checked, and both leave them as they are the second
time. Since their printed form reads as their values, loading it returns them (`load_toYaml`).
-/

namespace ImportBlock

/-! ## Values of settings -/

theorem Value.toTexts?_list_text (ts : List Text) :
    (Value.list (ts.map .text)).toTexts? = some ts := by
  show (ts.map Value.text).mapM Value.toText? = some ts
  induction ts with
  | nil => rfl
  | cons t ts ih =>
    rw [List.map_cons, List.mapM_cons, ih]
    rfl

theorem Settings.inFile?_document (s : Settings) (k : Key) :
    k.inFile? s.document = some (s.valueOf k) := by
  cases k <;> rfl

theorem Layers.regular_document {env : Environment} (h : env.get? Key.loggingEnvName = none)
    (s : Settings) : Regular env s.document := by
  refine ⟨h, fun v hv => ?_⟩
  have hgroup : s.document.entry? Key.logging = some (.map
      [(Key.logLevel.name, .text s.logLevel), (Key.logFormat.name, .text s.logFormat)]) := rfl
  rw [hgroup] at hv
  exact ⟨_, (Option.some.inj hv).symm⟩

/-! ## Loading -/

/-- The environment provides no setting. -/
def Environment.Silent (env : Environment) : Prop :=
  env.get? Key.loggingEnvName = none ∧ ∀ k : Key, env.get? k.envName = none

namespace ConfigFile

/-- The configuration file is a YAML file with the given content: the one that is named, or the one
that is found. -/
inductive Holds (env : Environment) (h : Host) (content : Text) : Text → Prop
  | named {path : Text} : path ≠ [] → Format.ofPath? path = some .yaml →
      h.read path = .ok content → Holds env h content path
  | found {path : Text} {h' : Host} : find (candidates h.volume.kind env) h = (some path, h') →
      h'.read path = .ok content → Holds env h content []

theorem readAs_yaml {h : Host} {content path : Text} {entries : List (Text × Value)}
    (hcontent : h.read path = .ok content) (hread : Yaml.read? content = some (.map entries)) :
    readAs .yaml path h = .ok (.map entries) := by
  have hparse : parse? .yaml content = some (.map entries) := by
    unfold parse?
    simp only [hread]
  unfold readAs
  simp only [hcontent, hparse]

theorem Holds.load {env : Environment} {h : Host} {content path : Text}
    (hfile : Holds env h content path) {entries : List (Text × Value)}
    (hread : Yaml.read? content = some (.map entries)) :
    (ConfigFile.load path env h).1 = .ok (.map entries) := by
  unfold ConfigFile.load
  cases hfile with
  | named hne hformat hcontent =>
    have hempty : path.isEmpty = false := by simpa using hne
    simp only [hempty, Bool.false_eq_true, if_false, hformat]
    exact readAs_yaml hcontent hread
  | found hfind hcontent =>
    simp only [List.isEmpty_nil, if_true, hfind]
    exact readAs_yaml hcontent hread

end ConfigFile

namespace Settings

/-- Loaded settings are valid, and their names of frameworks are clean. -/
theorem validate_of_load {path : Text} {flags : List (Key × Value)} {declared : List Key}
    {env : Environment} {h : Host} {s : Settings}
    (hload : (load path flags declared env h).1 = .ok s) :
    s.validate = .ok () ∧ (Frameworks.ofNames s.frameworks).names = s.frameworks := by
  obtain ⟨file, -, hchecked⟩ := load_eq_ok_iff.mp hload
  obtain ⟨names, -, hnames, hvalid⟩ := Layers.checked_eq_ok_iff.mp hchecked
  refine ⟨hvalid, ?_⟩
  rw [hnames, Frameworks.names_ofNames_names]

theorem checked_document {s : Settings} (hvalid : s.validate = .ok ())
    (hclean : (Frameworks.ofNames s.frameworks).names = s.frameworks) {env : Environment}
    (henv : env.Silent) (declared : List Key) :
    Layers.checked ⟨[], declared, env, s.document⟩ = .ok s := by
  let l : Layers := ⟨[], declared, env, s.document⟩
  have hregular : Layers.Regular l.env l.file := Layers.regular_document henv.1 s
  have hvalue : ∀ k, l.value k = s.valueOf k := by
    intro k
    have hflag : l.flag? k = none := rfl
    have hvariable : l.env.get? k.envName = none := henv.2 k
    have hinFile : k.inFile? l.file = some (s.valueOf k) := inFile?_document s k
    rw [Layers.value_eq hregular, hflag, hvariable, hinFile]
    rfl
  have hbroken : l.hasBrokenGroup = false := by
    rw [Layers.hasBrokenGroup, Layers.hasLooseGroup_eq hregular, Bool.false_and]
  refine Layers.checked_eq_ok_iff.mpr ⟨s.frameworks, ?_, hclean.symm, hvalid⟩
  rw [Layers.settings?_eq_some_iff]
  refine ⟨hbroken, ?_, ?_, ?_, ?_, ?_, ?_⟩ <;> rw [hvalue]
  · exact Value.toTexts?_list_text s.frameworks
  · rfl
  · rfl
  · exact Value.toTexts?_list_text s.extensions
  · rfl
  · rfl

theorem isFormat_of_validate {s : Settings} (h : s.validate = .ok ()) :
    LogFormat.isValid s.logFormat = true := by
  unfold validate at h
  split_ifs at h with hsuffix hlevel hformat
  simpa using hformat

/-- **Reloading is lossless.** Settings that a load returned are returned again, in every field, by
a load without flags and variables of a YAML file with their printed form. Of a suffix, a level and
extensions with several lines that start with a blank or a line break it is assumed that they,
printed as a block, read back on their own. -/
theorem load_toYaml {s : Settings}
    (hload : ∃ path flags declared env h, (load path flags declared env h).1 = .ok s)
    (hsuffix : Yaml.BlockReadsBack 0 4 s.interfaceSuffix)
    (hextensions : ∀ e ∈ s.extensions, Yaml.BlockReadsBack 4 6 e)
    (hlevel : Yaml.BlockReadsBack 4 8 s.logLevel) {path : Text} {env : Environment} {h : Host}
    (henv : env.Silent) (hfile : ConfigFile.Holds env h s.toYaml path) (declared : List Key) :
    (load path [] declared env h).1 = .ok s := by
  obtain ⟨_, _, _, _, _, hload⟩ := hload
  obtain ⟨hvalid, hclean⟩ := validate_of_load hload
  have hframeworks : ∀ t ∈ s.frameworks, Yaml.BlockReadsBack 4 6 t := by
    intro t ht
    rw [← hclean] at ht
    exact .of_trim (Frameworks.mem_names_ofNames ht).1
  have hread := read?_toYaml hframeworks hsuffix hextensions hlevel
    (.of_isFormat (isFormat_of_validate hvalid))
  exact load_eq_ok_iff.mpr
    ⟨s.document, hfile.load hread, checked_document hvalid hclean henv declared⟩

/-- Settings with empty texts and an empty list, and with texts that are printed between quotes, as
blocks and in base 64. One of the blocks starts with a space. -/
theorem load_toYaml_empty :
    ∃ (s : Settings) (h : Host), s.frameworks = [] ∧ s.collapse = true ∧
      s.interfaceSuffix = Text.ofString " it's:\n#1" ∧
      s.extensions = [Text.ofString "yes", Text.ofString "a\nb", [0xFF]] ∧
      s.logLevel = [] ∧ s.logFormat = [] ∧ h.read "/.sig.yaml" = .ok s.toYaml ∧
      (load [] [] [] [] h).1 = .ok s := by
  let s : Settings :=
    { frameworks := [], interfaceSuffix := " it's:\n#1", collapse := true,
      extensions := [Text.ofString "yes", Text.ofString "a\nb", [0xFF]], logLevel := [],
      logFormat := [] }
  let start : Host := .start ⟨.memory, []⟩ [] Faults.none
  let h : Host := .start ⟨.memory, [("/.sig.yaml", .file s.toYaml 0o644)]⟩ [] Faults.none
  refine ⟨s, h, rfl, rfl, rfl, rfl, rfl, rfl, by decide +kernel, ?_⟩
  apply load_toYaml
  · exact ⟨[], Key.all.map fun k => (k, s.valueOf k), Key.all, [], start, by decide +kernel⟩
  · decide +kernel
  · decide +kernel
  · decide +kernel
  · exact ⟨rfl, fun k => rfl⟩
  · -- two other names are looked for before this one
    have hfind : ConfigFile.find (ConfigFile.candidates h.volume.kind []) h =
        (some (Text.ofString "/.sig.yaml"), { h with lookups := 3 }) := by decide +kernel
    exact .found hfind (by decide +kernel)

end Settings

end ImportBlock
