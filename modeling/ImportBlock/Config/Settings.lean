import ImportBlock.Log
import ImportBlock.Source.Groups
import ImportBlock.Text.Basic
import ImportBlock.Yaml.Printer

/-!
# Settings and their layers

The settings of a run, the keys they are stored under, and the layers that provide their values:
flags, environment variables, a configuration file and the standard settings.
-/

/-!
## Environment variables

A text may refer to variables, as `$NAME` or `${NAME}`. `expand` puts their values in, once: a value
that refers to a variable itself stays as it is.
-/

namespace ImportBlock

abbrev Environment := List (Text × Text)

namespace Environment

/-- The value of a variable. An empty one counts as missing. -/
def get? (env : Environment) (name : Text) : Option Text :=
  (env.lookup name).filter fun t => !t.isEmpty

/-- Is the byte a name on its own? -/
def isShortName (b : UInt8) : Bool :=
  Text.isDigit b || (Text.ofString "*#$@!?-").contains b

/-- May the byte be part of a longer name? -/
def isNameByte (b : UInt8) : Bool :=
  Text.isDigit b || (65 ≤ b && b ≤ 90) || (97 ≤ b && b ≤ 122) || b == 95

/-- The name that a text after a dollar sign starts with, and how many bytes of the text belong to
it. Without a name the dollar sign stands for itself; an open brace that is not closed is dropped
together with the sign, and so are braces with nothing between them. -/
def nameAt : Text → Option Text × Nat
  | [] => (none, 0)
  | b :: rest =>
    if b = 123 then
      match Text.cutAt 125 rest with
      | (name, some _) => (some name, name.length + 2)
      | (_, none) => (some [], 1)
    else if isShortName b then (some [b], 1)
    else
      let name := (b :: rest).takeWhile isNameByte
      if name.isEmpty then (none, 0) else (some name, name.length)

/-- The text without its first `skip` bytes, and with the values of the variables that the rest
refers to. -/
def expandFrom (env : Environment) : Nat → Text → Text
  | _, [] => []
  | skip + 1, _ :: rest => expandFrom env skip rest
  | 0, b :: rest =>
    if b = 36 then
      match nameAt rest with
      | (some name, width) => (env.lookup name).getD [] ++ expandFrom env width rest
      | (none, _) => b :: expandFrom env 0 rest
    else b :: expandFrom env 0 rest

/-- The text with the values of the variables that it refers to. -/
def expand (env : Environment) (t : Text) : Text := expandFrom env 0 t

/-- The names that a text refers to. -/
def namesIn : Text → List Text
  | [] => []
  | b :: rest => (if b = 36 then (nameAt rest).1.toList else []) ++ namesIn rest

end Environment

/-!
## Settings

What can be configured: how imports are grouped, which files are source files, and what is logged.
Settings are checked before they are used, and can be printed in the form of a configuration file.
-/

structure Settings where
  frameworks : List Text
  interfaceSuffix : Text
  collapse : Bool
  extensions : List Text
  logLevel : Text
  logFormat : Text
  deriving DecidableEq, Repr

/-- Why settings are refused. -/
inductive SettingsError
  | emptySuffix
  | invalidLevel (word : Text)
  | invalidFormat (word : Text)
  | invalidExtension (extension : Text)
  deriving DecidableEq, Repr

def SettingsError.message : SettingsError → Text
  | emptySuffix => "interface suffix must not be empty"
  | invalidLevel word => "invalid log level: " ++ word.quote
  | invalidFormat word => "invalid log format: " ++ word.quote
  | invalidExtension e => "invalid file extension: " ++ e.quote

namespace Settings

/-- The settings when nothing is configured. -/
def standard : Settings where
  frameworks := Frameworks.defaultNames
  interfaceSuffix := Rules.defaultSuffix
  collapse := false
  extensions := [".swift"]
  logLevel := "info"
  logFormat := "text"

/-- Is the text an extension? Blanks around it do not count; a slash, a backslash and a space do not
occur in one, and a dot alone is none. -/
def isExtension (e : Text) : Bool :=
  let e := e.trim
  !e.isEmpty && e != [46] && !(e.any fun b => b == 47 || b == 92 || b == 32)

/-- Check the settings: suffix, level, format and extensions, in this order. -/
def validate (s : Settings) : Except SettingsError Unit :=
  if s.interfaceSuffix.trim.isEmpty then .error .emptySuffix
  else if (Level.parse s.logLevel).toOption.isNone then .error (.invalidLevel s.logLevel)
  else if !LogFormat.isValid s.logFormat then .error (.invalidFormat s.logFormat)
  else
    match s.extensions.find? fun e => !isExtension e with
    | some e => .error (.invalidExtension e)
    | none => .ok ()

/-- The rules for grouping imports. -/
def rules (s : Settings) : Rules :=
  .ofSettings (some s.frameworks) s.interfaceSuffix.trim s.collapse

/-- The settings as a configuration file. -/
def toYaml (s : Settings) : Text :=
  Yaml.printList "frameworks" s.frameworks
    ++ Yaml.printEntry 0 "interface_suffix" s.interfaceSuffix
    ++ "collapse_blank_lines: " ++ (if s.collapse then "true\n" else "false\n")
    ++ Yaml.printList "extensions" s.extensions
    ++ "logging:\n"
    ++ Yaml.printEntry 1 "level" s.logLevel
    ++ Yaml.printEntry 1 "format" s.logFormat

end Settings

/-!
## Keys and layers

Each setting has a key, under which a command-line flag, an environment variable, the configuration
file or the standard settings provide its value; the first of these that does counts. Level and
format are kept under a common name in the file.
-/

/-- What a setting is called. -/
inductive Key
  | frameworks
  | interfaceSuffix
  | collapse
  | extensions
  | logLevel
  | logFormat
  deriving DecidableEq, Repr

namespace Key

def all : List Key := [frameworks, interfaceSuffix, collapse, extensions, logLevel, logFormat]

/-- The name in the configuration file, after that of the group if the setting is in one. -/
def name : Key → Text
  | frameworks => "frameworks"
  | interfaceSuffix => "interface_suffix"
  | collapse => "collapse_blank_lines"
  | extensions => "extensions"
  | logLevel => "level"
  | logFormat => "format"

/-- Is the setting in the group of log settings? -/
def isLogging : Key → Bool
  | logLevel => true
  | logFormat => true
  | _ => false

/-- The group of log settings in the configuration file. -/
def logging : Text := "logging"

/-- The names on the way to the setting, with a dot in between. -/
def path (k : Key) : Text := if k.isLogging then logging ++ 46 :: k.name else k.name

/-- The environment variable of a path: the name of the program in front, all letters capital, and
an underscore for each dot. -/
def variableOf (path : Text) : Text :=
  (Text.ofString "SIG_" ++ path).map fun b => if b == 46 then 95 else Text.capital b

def envName (k : Key) : Text := variableOf k.path

/-- The environment variable with the name of the group of log settings. -/
def loggingEnvName : Text := variableOf logging

/-- The command-line flags, each with the path of its setting. -/
def flagPaths : List (Text × Text) :=
  [("frameworks", "frameworks"), ("interface-suffix", "interface_suffix"),
    ("collapse-blank-lines", "collapse_blank_lines"), ("extensions", "extensions"),
    ("log-level", "logging.level"), ("log-format", "logging.format")]

def flag (k : Key) : Text := ((flagPaths.find? fun f => f.2 == k.path).map Prod.fst).getD []

/-- The value in the standard settings. -/
def standard : Key → Value
  | frameworks => .list (Settings.standard.frameworks.map .text)
  | interfaceSuffix => .text Settings.standard.interfaceSuffix
  | collapse => .bool Settings.standard.collapse
  | extensions => .list (Settings.standard.extensions.map .text)
  | logLevel => .text Settings.standard.logLevel
  | logFormat => .text Settings.standard.logFormat

/-- The value in a configuration file. A log setting may also stand at the top, with the name of the
group and a dot in front of its own; that spelling goes first. -/
def inFile? (k : Key) (file : Value) : Option Value :=
  if k.isLogging then
    (file.child? k.path).or ((file.child? logging).bind fun g => g.child? k.name)
  else file.child? k.name

end Key

/-- Where settings come from. -/
structure Layers where
  /-- The values of the flags that were given. -/
  flags : List (Key × Value)
  /-- The keys for which there is a flag, given or not. -/
  declared : List Key
  env : Environment
  /-- The content of the configuration file. -/
  file : Value
  deriving Repr

namespace Layers

/-- The value of the flag of a key. -/
def flag? (l : Layers) (k : Key) : Option Value := l.flags.lookup k

/-- Does a variable named like the group hide the log settings of the file? -/
def groupVariable (l : Layers) : Bool := (l.env.get? Key.loggingEnvName).isSome

/-- Does the file have something under the name of the group that is not a mapping? -/
def hasLooseGroup (l : Layers) : Bool :=
  match l.file.entry? Key.logging with
  | none => false
  | some (.map _) => false
  | some _ => true

/-- Does the file name the group without any content? Variables are then asked only for settings
that have a flag. -/
def hasEmptyGroup (l : Layers) : Bool := (l.file.entry? Key.logging).any Value.isNull

/-- The value of a key from the environment, the file or the standard settings. A text in the place
of the group of log settings hides what later layers have. -/
def lower (l : Layers) (k : Key) : Value :=
  match l.env.get? k.envName with
  | some t => .text t
  | none =>
    if k.isLogging && l.groupVariable then .null
    else
      match k.inFile? l.file with
      | some v => v
      | none =>
        if k.isLogging && l.hasLooseGroup && !l.hasEmptyGroup then .null else k.standard

/-- The value of a key from the first layer that provides it. -/
def value (l : Layers) (k : Key) : Value :=
  match l.flag? k with
  | some v => v
  | none =>
    if k.isLogging && l.hasEmptyGroup && !l.declared.contains k then k.standard else l.lower k

/-- Is there a text or a list in the place of the group of log settings? -/
def hasBrokenGroup (l : Layers) : Bool :=
  l.hasLooseGroup && (!l.hasEmptyGroup || l.groupVariable)

/-- The settings of the layers, `none` if a value has no conversion to what its key needs. -/
def settings? (l : Layers) : Option Settings := do
  if l.hasBrokenGroup then none
  let frameworks ← (l.value .frameworks).toTexts?
  let interfaceSuffix ← (l.value .interfaceSuffix).toText?
  let collapse ← (l.value .collapse).toBool?
  let extensions ← (l.value .extensions).toTexts?
  let logLevel ← (l.value .logLevel).toText?
  let logFormat ← (l.value .logFormat).toText?
  return { frameworks, interfaceSuffix, collapse, extensions, logLevel, logFormat }

end Layers

end ImportBlock
