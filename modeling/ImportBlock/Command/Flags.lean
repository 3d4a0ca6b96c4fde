import ImportBlock.Config.Settings
import ImportBlock.Text.Characters

/-!
# The flags of a command line

A command line is words, some of which are flags and their values. A flag that takes a list reads
its value as a comma-separated record. The flags of the settings come last.
-/

/-!
## Comma-separated records

A record is fields with commas between them. A field between quotes may hold commas, line breaks
and, written twice, quotes. Empty lines before a record are skipped.
-/

namespace ImportBlock.Csv

/-- A place in a text, counted from one. Columns count bytes. -/
structure Position where
  line : Nat
  column : Nat
  deriving DecidableEq, Repr

/-- What is wrong with a record. -/
inductive Fault
  | bareQuote
  | misplacedQuote
  deriving DecidableEq, Repr

/-- Why no record can be read. -/
inductive Error
  /-- There is no record. -/
  | empty
  /-- The record that starts in line `start` has a fault. -/
  | malformed (fault : Fault) (start : Nat) (place : Position)
  deriving DecidableEq, Repr

def Fault.message : Fault → Text
  | bareQuote => "bare \" in non-quoted-field"
  | misplacedQuote => "extraneous or missing \" in quoted-field"

def Error.message : Error → Text
  | empty => "EOF"
  | malformed fault start place =>
    (if start = place.line then []
      else Text.ofString "record on line " ++ Text.ofNat start ++ [59, 32])
      ++ Text.ofString "parse error on line " ++ Text.ofNat place.line
      ++ Text.ofString ", column " ++ Text.ofNat place.column ++ 58 :: 32 :: fault.message

/-! ### Reading -/

/-- The text with plain line feeds at the ends of lines and no carriage return at its own end. -/
def withLineFeeds : Text → Text
  | [] => []
  | [b] => if b = 13 then [] else [b]
  | a :: b :: rest =>
    if a = 13 ∧ b = 10 then withLineFeeds (b :: rest) else a :: withLineFeeds (b :: rest)

/-- Is the byte the end of a plain field? -/
def endsField (b : UInt8) : Bool := b == 44 || b == 10

/-- Part of a field and what follows it. -/
structure Piece where
  field : Text
  place : Position
  rest : Text
  deriving DecidableEq, Repr

/-- The content of a quoted field after its opening quote. What follows starts with a comma or ends
the line. -/
def quotedField (place : Position) : Text → Except (Fault × Position) Piece
  | [] => .error (.misplacedQuote, place)
  | [b] =>
    if b = 34 then .ok ⟨[], ⟨place.line, place.column + 1⟩, []⟩
    else .error (.misplacedQuote, ⟨place.line, place.column + 1⟩)
  | a :: b :: rest =>
    if a = 34 then
      if b = 34 then
        (quotedField ⟨place.line, place.column + 2⟩ rest).map fun p =>
          { p with field := 34 :: p.field }
      else if b = 44 ∨ b = 10 then .ok ⟨[], ⟨place.line, place.column + 1⟩, b :: rest⟩
      else .error (.misplacedQuote, place)
    else
      let next : Position :=
        if a = 10 then ⟨place.line + 1, 1⟩ else ⟨place.line, place.column + 1⟩
      (quotedField next (b :: rest)).map fun p => { p with field := a :: p.field }

def plainField (place : Position) (t : Text) : Except (Fault × Position) Piece :=
  let field := t.takeWhile fun b => !endsField b
  let before := field.takeWhile fun b => b != 34
  if before.length < field.length then
    .error (.bareQuote, ⟨place.line, place.column + before.length⟩)
  else .ok ⟨field, ⟨place.line, place.column + field.length⟩, t.dropWhile fun b => !endsField b⟩

/-- The field at the start of a text. -/
def field (place : Position) : Text → Except (Fault × Position) Piece
  | 34 :: rest => quotedField ⟨place.line, place.column + 1⟩ rest
  | t => plainField place t

/-- The fields up to the end of the record. -/
def fields : Nat → Position → Text → Except (Fault × Position) (List Text)
  | 0, _, _ => .ok []
  | fuel + 1, place, t => do
    let p ← field place t
    match p.rest with
    | 44 :: rest =>
      let more ← fields fuel ⟨p.place.line, p.place.column + 1⟩ rest
      return p.field :: more
    | _ => return [p.field]

/-- The first record of a text that starts in the given line. -/
def firstRecord (line : Nat) : Text → Except Error (List Text)
  | [] => .error .empty
  | b :: rest =>
    if b = 10 then firstRecord (line + 1) rest
    else
      match fields (rest.length + 2) ⟨line, 1⟩ (b :: rest) with
      | .ok fs => .ok fs
      | .error (fault, place) => .error (.malformed fault line place)

/-- The fields of the first record of a text. An empty text is a record without fields. -/
def read (t : Text) : Except Error (List Text) :=
  if t.isEmpty then .ok [] else firstRecord 1 (withLineFeeds t)

/-! ### Writing -/

/-- Must the field stand between quotes? -/
def needsQuotes (f : Text) : Bool :=
  f == [92, 46] || (f.any fun b => b == 10 || b == 13 || b == 34 || b == 44)
    || ((Utf8.decode f).head?.any Glyph.isBlank)

def writeField (f : Text) : Text :=
  if needsQuotes f then
    34 :: f.flatMap (fun b => if b = 34 then [34, 34] else [b]) ++ [34]
  else f

/-- The fields as a record. A single empty field leaves no trace. -/
def write (fs : List Text) : Text := Text.join [44] (fs.map writeField)

end ImportBlock.Csv

/-!
## Command-line flags

Words of a command line are flags or arguments, in any order. A flag is a switch, or has a text or a
list of texts as its value. Switches may have a letter, and letters may be joined in one word.
-/

namespace ImportBlock

inductive FlagKind
  | switch (letter : Option UInt8)
  | text
  | list
  deriving DecidableEq, Repr

/-- A flag that a command knows. -/
structure Flag where
  name : Text
  kind : FlagKind
  /-- What the flag is for. -/
  purpose : Text
  deriving DecidableEq, Repr

namespace Flag

def letter (f : Flag) : Option UInt8 :=
  match f.kind with
  | .switch letter => letter
  | _ => none

def isSwitch (f : Flag) : Bool :=
  match f.kind with
  | .switch _ => true
  | _ => false

/-- The flag as messages show it. -/
def label (f : Flag) : Text :=
  match f.letter with
  | some l => 45 :: l :: 44 :: 32 :: 45 :: 45 :: f.name
  | none => 45 :: 45 :: f.name

end Flag

/-- The value of a flag that was given. -/
inductive FlagValue
  | switch (on : Bool)
  | text (t : Text)
  | list (ts : List Text)
  deriving DecidableEq, Repr

/-- Why a flag's value is refused. -/
inductive ValueFault
  | notBool (t : Text)
  | notRecord (cause : Csv.Error)
  deriving DecidableEq, Repr

def ValueFault.message : ValueFault → Text
  | notBool t => "strconv.ParseBool: parsing " ++ t.quote ++ Text.ofString ": invalid syntax"
  | notRecord cause => cause.message

/-- Why a command line is refused. -/
inductive FlagError
  | helpRequested
  | badSyntax (word : Text)
  | unknownName (name : Text)
  | unknownLetter (letter : UInt8) (letters : Text)
  | missingValue (name : Text)
  | invalidValue (value : Text) (flag : Flag) (fault : ValueFault)
  deriving DecidableEq, Repr

/-- The letter that a message shows: the first byte of the UTF-8 sequence of the code point that the
byte in the word numbers. For ASCII letters that is the letter itself. -/
def letterShown (letter : UInt8) : UInt8 := (Utf8.encode letter.toNat).headD letter

def FlagError.message : FlagError → Text
  | helpRequested => "pflag: help requested"
  | badSyntax word => "bad flag syntax: " ++ word
  | unknownName name => "unknown flag: --" ++ name
  | unknownLetter letter letters =>
    "unknown shorthand flag: " ++ Text.quoteChar (letterShown letter).toNat
      ++ Text.ofString " in -" ++ letters
  | missingValue name => "flag needs an argument: --" ++ name
  | invalidValue value flag fault =>
    "invalid argument " ++ value.quote ++ Text.ofString " for " ++ flag.label.quote
      ++ Text.ofString " flag: " ++ fault.message

/-- The flags that were given, each with its value, and the other words. -/
structure CommandLine where
  flags : List (Text × FlagValue)
  arguments : List Text
  deriving DecidableEq, Repr

namespace CommandLine

def isOn (c : CommandLine) (name : Text) : Bool := c.flags.lookup name == some (.switch true)

/-- The text of a flag, empty if it was not given. -/
def textOf (c : CommandLine) (name : Text) : Text :=
  match c.flags.lookup name with
  | some (.text t) => t
  | _ => []

/-- Give a flag its value. -/
def put (c : CommandLine) (name : Text) (v : FlagValue) : CommandLine :=
  { c with flags := (name, v) :: c.flags.filter fun f => f.1 != name }

/-- Use a flag with a value. A list is a record, and goes after that of an earlier use. -/
def use (c : CommandLine) (f : Flag) (value : Text) : Except FlagError CommandLine :=
  match f.kind with
  | .switch _ =>
    match Value.parseBool? value with
    | some b => .ok (c.put f.name (.switch b))
    | none => .error (.invalidValue value f (.notBool value))
  | .text => .ok (c.put f.name (.text value))
  | .list =>
    match Csv.read value with
    | .error e => .error (.invalidValue value f (.notRecord e))
    | .ok more =>
      match c.flags.lookup f.name with
      | some (.list ts) => .ok (c.put f.name (.list (ts ++ more)))
      | _ => .ok (c.put f.name (.list more))

/-- Use the letters of a word. The value after `=` is for the letter before it. -/
def useLetters (known : List Flag) (c : CommandLine) : Text → Except FlagError CommandLine
  | [] => .ok c
  | l :: rest =>
    if Text.startsWith (l :: rest) "test." then .ok c
    else
      match known.find? fun f => f.letter == some l with
      | none =>
        if l = 104 then .error .helpRequested else .error (.unknownLetter l (l :: rest))
      | some f =>
        match rest with
        | 61 :: b :: value => c.use f (b :: value)
        | _ => do useLetters known (← c.use f "true") rest

def isArgument : Text → Bool
  | 45 :: _ :: _ => false
  | _ => true

/-- The flag that a word after its dashes names, and the value that it holds. -/
def named (known : List Flag) (body : Text) : Except FlagError (Flag × Option Text) :=
  if body.isEmpty || body.startsWith [45] || body.startsWith [61] then
    .error (.badSyntax (45 :: 45 :: body))
  else
    match Text.cutAt 61 body with
    | (name, value) =>
      match known.find? fun f => f.name == name with
      | some f => .ok (f, value)
      | none =>
        if name == Text.ofString "help" then .error .helpRequested else .error (.unknownName name)

/-- Read the words after those already in `c`. -/
def readWords (known : List Flag) (c : CommandLine) : List Text → Except FlagError CommandLine
  | [] => .ok c
  | word :: rest =>
    if isArgument word then readWords known { c with arguments := c.arguments ++ [word] } rest
    else if word == [45, 45] then .ok { c with arguments := c.arguments ++ rest }
    else if word.startsWith [45, 45] then
      match named known (word.drop 2) with
      | .error e => .error e
      | .ok (f, some value) => do readWords known (← c.use f value) rest
      | .ok (f, none) =>
        if f.isSwitch then do readWords known (← c.use f "true") rest
        else
          match rest with
          | value :: rest => do readWords known (← c.use f value) rest
          | [] => .error (.missingValue f.name)
    else do readWords known (← c.useLetters known (word.drop 1)) rest

def read (known : List Flag) (words : List Text) : Except FlagError CommandLine :=
  readWords known ⟨[], []⟩ words

/-! ### Flags of settings -/

/-- The value of a flag as a setting. A list is what its record reads back as. -/
def settingOf : FlagValue → Value
  | .switch b => .bool b
  | .text t => .text t
  | .list ts => .list (((Csv.read (Csv.write ts)).toOption.getD []).map .text)

/-- The settings that were given by flags. -/
def settings (c : CommandLine) : List (Key × Value) :=
  Key.all.filterMap fun k => (c.flags.lookup k.flag).map fun v => (k, settingOf v)

/-- The keys that flags are known for. -/
def declared (known : List Flag) : List Key :=
  Key.all.filter fun k => known.any fun f => f.name == k.flag

end CommandLine

def Key.flagKind : Key → FlagKind
  | .frameworks | .extensions => .list
  | .collapse => .switch none
  | .interfaceSuffix | .logLevel | .logFormat => .text

/-- What the flag of a setting is for. -/
def Key.purpose : Key → Text
  | .frameworks => "Comma-separated list of system framework names grouped first"
  | .interfaceSuffix => "Module name suffix of interface imports grouped last"
  | .collapse => "Only place one blank line between non-empty groups"
  | .extensions => "Comma-separated list of accepted source file extensions"
  | .logLevel => "Log level: debug, info, warn or error"
  | .logFormat => "Log format: text or json"

def Key.toFlag (k : Key) : Flag := ⟨k.flag, k.flagKind, k.purpose⟩

end ImportBlock
