import ImportBlock.Config.Settings
import ImportBlock.Config.Value
import ImportBlock.Files
import ImportBlock.Text.Characters
import ImportBlock.Yaml.Document

/-!
# Configuration files

A configuration file is JSON or YAML. The values read from it are one of the layers that settings
are loaded from.
-/

/-!
## JSON

A reader for JSON texts. Undecodable bytes and lone surrogates in strings become replacement
characters, and of several members with one name the last counts. Arrays and objects lie in each
other up to a limit.
-/

namespace ImportBlock.Json

def skipBlanks (t : Text) : Text :=
  t.dropWhile fun b => b == 32 || b == 9 || b == 10 || b == 13

/-- The number of four hexadecimal digits and what follows them. -/
def takeHex4? : Text → Option (Nat × Text)
  | a :: b :: c :: d :: rest => do
    let a ← Text.hexValue? a
    let b ← Text.hexValue? b
    let c ← Text.hexValue? c
    let d ← Text.hexValue? d
    return (((a * 16 + b) * 16 + c) * 16 + d, rest)
  | _ => none

/-- The escapes of one letter. -/
def escape? (b : UInt8) : Option UInt8 :=
  match b with
  | 34 => some 34
  | 92 => some 92
  | 47 => some 47
  | 98 => some 8
  | 102 => some 12
  | 110 => some 10
  | 114 => some 13
  | 116 => some 9
  | _ => none

/-- A character given by one or two UTF-16 units, and what follows it. -/
def unitsChar (n : Nat) (rest : Text) : Text × Text :=
  if 0xD800 ≤ n && n < 0xDC00 then
    match rest with
    | 92 :: 117 :: more =>
      match takeHex4? more with
      | some (low, after) =>
        if 0xDC00 ≤ low && low < 0xE000 then
          (Utf8.encode (0x10000 + (n - 0xD800) * 1024 + (low - 0xDC00)), after)
        else (Utf8.encode Utf8.replacement, rest)
      | none => (Utf8.encode Utf8.replacement, rest)
    | _ => (Utf8.encode Utf8.replacement, rest)
  else if 0xDC00 ≤ n && n < 0xE000 then (Utf8.encode Utf8.replacement, rest)
  else (Utf8.encode n, rest)

/-- The content of a string after its opening quote, and what follows its closing quote. -/
def stringBody? : Nat → Text → Option (Text × Text)
  | 0, _ => none
  | _ + 1, [] => none
  | fuel + 1, b :: rest =>
    if b = 34 then some ([], rest)
    else if b < 32 then none
    else if b = 92 then
      match rest with
      | 117 :: more => do
        let (n, more) ← takeHex4? more
        let (c, more) := unitsChar n more
        let (s, after) ← stringBody? fuel more
        return (c ++ s, after)
      | e :: more => do
        let c ← escape? e
        let (s, after) ← stringBody? fuel more
        return (c :: s, after)
      | [] => none
    else do
      let (s, after) ← stringBody? fuel rest
      return (b :: s, after)

/-- The content of a string with replacement characters for undecodable bytes. -/
def repair (t : Text) : Text :=
  (Utf8.decode t).flatMap fun g => if g.code.isSome then g.bytes else Utf8.encode Utf8.replacement

/-- A string after its opening quote. -/
def string? (t : Text) : Option (Text × Text) :=
  (stringBody? (t.length + 1) t).map fun p => (repair p.1, p.2)

/-- Is a literal a JSON number? Numbers have no superfluous zeros in front, and digits on both
sides of a point. -/
def isNumber (t : Text) : Bool :=
  let body := if t.startsWith [45] then t.drop 1 else t
  let (whole, rest) := Decimal.takeDigits body
  let wholeOk := !whole.isEmpty && (whole.length == 1 || !whole.startsWith [48])
  let rest? : Option Text :=
    match rest with
    | 46 :: more =>
      let (fraction, tail) := Decimal.takeDigits more
      if fraction.isEmpty then none else some tail
    | _ => some rest
  wholeOk &&
    match rest? with
    | some tail => (Decimal.parseExponent? tail).isSome
    | none => false

/-- Bytes that numbers and words are made of. -/
def isWordByte (b : UInt8) : Bool :=
  Text.isDigit b || (97 ≤ b && b ≤ 122) || (65 ≤ b && b ≤ 90) || b == 43 || b == 45 || b == 46

/-- The value of a number or a word. A number too great for double precision is an error. -/
def word? (w : Text) : Option Value :=
  if w == Text.ofString "null" then some .null
  else if w == Text.ofString "true" then some (.bool true)
  else if w == Text.ofString "false" then some (.bool false)
  else if isNumber w then (Decimal.parse? w).bind fun d => (Real64.ofDecimal? d).map .float
  else none

def maxDepth : Nat := 10000

mutual

/-- A value at the start of a text, and what follows it, with so many arrays and objects around. -/
def value? : Nat → Nat → Text → Option (Value × Text)
  | 0, _, _ => none
  | fuel + 1, depth, t =>
    match skipBlanks t with
    | 123 :: rest =>
      if maxDepth ≤ depth then none
      else
        match skipBlanks rest with
        | 125 :: after => some (.map [], after)
        | rest => members? fuel (depth + 1) [] rest
    | 91 :: rest =>
      if maxDepth ≤ depth then none
      else
        match skipBlanks rest with
        | 93 :: after => some (.list [], after)
        | rest => elements? fuel (depth + 1) [] rest
    | 34 :: rest => (string? rest).map fun p => (.text p.1, p.2)
    | t => (word? (t.takeWhile isWordByte)).map fun v => (v, t.dropWhile isWordByte)

/-- The elements of an array, after `[` or a comma. -/
def elements? : Nat → Nat → List Value → Text → Option (Value × Text)
  | 0, _, _, _ => none
  | fuel + 1, depth, before, t => do
    let (v, rest) ← value? fuel depth t
    match skipBlanks rest with
    | 44 :: rest => elements? fuel depth (before ++ [v]) rest
    | 93 :: after => some (.list (before ++ [v]), after)
    | _ => none

/-- The members of an object, after an opening brace or a comma. -/
def members? : Nat → Nat → List (Text × Value) → Text → Option (Value × Text)
  | 0, _, _, _ => none
  | fuel + 1, depth, before, t =>
    match skipBlanks t with
    | 34 :: rest => do
      let (name, rest) ← string? rest
      match skipBlanks rest with
      | 58 :: rest => do
        let (v, rest) ← value? fuel depth rest
        match skipBlanks rest with
        | 44 :: rest => members? fuel depth (Value.put name v before) rest
        | 125 :: after => some (.map (Value.put name v before), after)
        | _ => none
      | _ => none
    | _ => none

end

/-- Read a JSON text: one value with nothing but blanks around it. -/
def read? (t : Text) : Option Value := do
  let (v, rest) ← value? (2 * t.length + 2) 0 t
  if (skipBlanks rest).isEmpty then some v else none

end ImportBlock.Json

/-!
## Loading settings

The configuration file is named, or found in the working directory or the home directory. Its values
and those of the other layers make the settings, which are then checked.
-/

namespace ImportBlock

/-- Why settings cannot be loaded. -/
inductive LoadError
  | fileUnreadable
  | valueUnusable
  | invalid (cause : SettingsError)
  deriving DecidableEq, Repr

def LoadError.message : LoadError → Text
  | fileUnreadable => "failed to read config file"
  | valueUnusable => "failed to unmarshal config"
  | invalid cause => "invalid configuration: " ++ cause.message

namespace ConfigFile

/-! ### Formats -/

inductive Format
  | yaml
  | json
  deriving DecidableEq, Repr

/-- The format that the extension of a path stands for. -/
def Format.ofPath? (path : Text) : Option Format :=
  let e := Path.extension path
  if e == Text.ofString ".yaml" || e == Text.ofString ".yml" then some .yaml
  else if e == Text.ofString ".json" then some .json
  else none

/-- Read the content of a file. At its top there is a mapping or nothing. -/
def parse? (format : Format) (content : Text) : Option Value :=
  let top? :=
    match format with
    | .yaml => Yaml.read? content
    | .json => Json.read? content
  match top? with
  | some (.map entries) => some (.map entries)
  | some .null => some (.map [])
  | _ => none

/-! ### Search -/

/-- The names of configuration files, in the order they are looked for. -/
def names : List Text :=
  [".sig.json", ".sig.toml", ".sig.yaml", ".sig.yml", ".sig.properties", ".sig.props", ".sig.prop",
    ".sig.hcl", ".sig.tfvars", ".sig.dotenv", ".sig.env", ".sig.ini", ".sig"]

def workingDirectory : VolumeKind → Text
  | .memory => [47]
  | .disk => [46]

/-- The home directory. Its name may refer to variables, and a relative one is taken from the
working directory. -/
def homeDirectory (kind : VolumeKind) (env : Environment) : Text :=
  let home := env.expand ((env.lookup (Text.ofString "HOME")).getD [])
  if Path.isRooted home then Path.clean home else Path.inside (workingDirectory kind) home

/-- The paths where a configuration file may be. -/
def candidates (kind : VolumeKind) (env : Environment) : List Text :=
  let here := workingDirectory kind
  let home := homeDirectory kind env
  (if home == here then [here] else [here, home]).flatMap fun d => names.map (Path.inside d)

/-- The first of the paths with a file. A path that cannot be looked up is passed over. -/
def find : List Text → Host → Option Text × Host
  | [], h => (none, h)
  | path :: rest, h =>
    match h.stat path with
    | (.ok e, h) => if e.isDirectory then find rest h else (some path, h)
    | (.error _, h) => find rest h

/-- The values of the file at a path. -/
def readAs (format : Format) (path : Text) (h : Host) : Except LoadError Value :=
  match h.read path with
  | .error _ => .error .fileUnreadable
  | .ok content =>
    match parse? format content with
    | some v => .ok v
    | none => .error .fileUnreadable

/-- The values of the configuration file. Without a path one is searched for, and none need be
found. A file that was found is read as YAML, whatever its name. -/
def load (path : Text) (env : Environment) (h : Host) : Except LoadError Value × Host :=
  if path.isEmpty then
    match find (candidates h.volume.kind env) h with
    | (none, h) => (.ok (.map []), h)
    | (some found, h) => (readAs .yaml found h, h)
  else
    match Format.ofPath? path with
    | none => (.error .fileUnreadable, h)
    | some format => (readAs format path h, h)

end ConfigFile

namespace Layers

/-- The checked settings of the layers. Names of frameworks lose the blanks around them and
repetitions. -/
def checked (l : Layers) : Except LoadError Settings :=
  match l.settings? with
  | none => .error .valueUnusable
  | some s =>
    let s := { s with frameworks := (Frameworks.ofNames s.frameworks).names }
    match s.validate with
    | .ok _ => .ok s
    | .error e => .error (.invalid e)

end Layers

namespace Settings

/-- Load the settings: the flags that were given and those that there are, the environment, and the
file at a path or a file that is searched for. -/
def load (path : Text) (flags : List (Key × Value)) (declared : List Key) (env : Environment)
    (h : Host) : Except LoadError Settings × Host :=
  match ConfigFile.load path env h with
  | (.error e, h) => (.error e, h)
  | (.ok file, h) => (Layers.checked ⟨flags, declared, env, file⟩, h)

end Settings

end ImportBlock
