import ImportBlock.Text.Characters
import ImportBlock.Text.Quoted

/-!
# Logging

A logger writes the records that are severe enough, as pairs of keys and values or as JSON.
-/

/-!
## Log levels and formats

Levels are numbers with names for every fourth of them. The configuration names them by words, up
to case.
-/

namespace ImportBlock

/-- Why no logger can be made. -/
inductive LogError
  | unknownLevel (word : Text)
  | unknownFormat (word : Text)
  deriving DecidableEq, Repr

def LogError.message : LogError → Text
  | unknownLevel w => "unknown log level: " ++ w.quote
  | unknownFormat w => "unknown log format: " ++ w.quote

/-- A severity. Greater is more severe. -/
abbrev Level := Int

namespace Level

def debug : Level := -4

def info : Level := 0

def warn : Level := 4

def error : Level := 8

/-- The level that a word names. Blanks around the word do not count, and no word means `info`. -/
def parse (word : Text) : Except LogError Level :=
  let w := word.trim.lower
  if w == Text.ofString "debug" then .ok debug
  else if w.isEmpty || w == Text.ofString "info" then .ok info
  else if w == Text.ofString "warn" || w == Text.ofString "warning" then .ok warn
  else if w == Text.ofString "error" then .ok error
  else .error (.unknownLevel word)

/-- A name with a signed distance, which is left out when it is zero. -/
def offset (name : Text) (distance : Int) : Text :=
  if distance = 0 then name
  else if 0 < distance then name ++ 43 :: Text.ofInt distance
  else name ++ Text.ofInt distance

/-- The nearest name from below with the distance from it. Levels below `debug` count from it. -/
def name (l : Level) : Text :=
  if l < info then offset "DEBUG" (l - debug)
  else if l < warn then offset "INFO" (l - info)
  else if l < error then offset "WARN" (l - warn)
  else offset "ERROR" (l - error)

end Level

/-- How records are written. -/
inductive LogFormat
  | text
  | json
  deriving DecidableEq, Repr

namespace LogFormat

/-- The format that a word names. No word means `text`; blanks around the word do count. -/
def parse (word : Text) : Except LogError LogFormat :=
  let w := word.lower
  if w.isEmpty || w == Text.ofString "text" then .ok text
  else if w == Text.ofString "json" then .ok json
  else .error (.unknownFormat word)

/-- Does the word name a format? -/
def isValid (word : Text) : Bool :=
  let w := word.lower
  w.isEmpty || w == Text.ofString "text" || w == Text.ofString "json"

end LogFormat

/-!
## Log records

A record is one line: a level, a message and attributes, either as `key=value` pairs or as a JSON
object.
-/

/-- The value of an attribute. -/
inductive LogValue
  | text (t : Text)
  | int (n : Int)
  | bool (b : Bool)
  deriving DecidableEq, Repr

/-- What is logged. -/
structure LogRecord where
  level : Level
  message : Text
  attributes : List (Text × LogValue)
  deriving DecidableEq, Repr

namespace LogRecord

def boolText (b : Bool) : Text := if b then "true" else "false"

/-! ### Pairs -/

/-- Does a glyph force quotes? A backslash and the delete character do not. -/
def needsQuotes (g : Glyph) : Bool :=
  match g.code with
  | none => true
  | some n =>
    if n < 0x80 then n < 0x21 || n == 34 || n == 61
    else n == Utf8.replacement || isBlankCode n || !isPrintableCode n

/-- A key or value, between quotes where it would not be readable without. -/
def pairText (t : Text) : Text :=
  if t.isEmpty || (Utf8.decode t).any needsQuotes then t.quote else t

/-- An attribute value in a pair. -/
def pairValue : LogValue → Text
  | .text t => pairText t
  | .int n => Text.ofInt n
  | .bool b => boolText b

def pair (key : Text) (value : LogValue) : Text := pairText key ++ 61 :: pairValue value

def toPairs (r : LogRecord) : Text :=
  Text.join [32]
    (pair "level" (.text r.level.name) :: pair "msg" (.text r.message)
      :: r.attributes.map fun a => pair a.1 a.2)

/-! ### JSON -/

def jsonGlyph (g : Glyph) : Text :=
  match g.code with
  | none => Utf8.encode Utf8.replacement
  | some n =>
    if n == 34 || n == 92 then [92, UInt8.ofNat n]
    else if n == 10 then "\\n"
    else if n == 13 then "\\r"
    else if n == 9 then "\\t"
    else if n < 0x20 || n == 0x2028 || n == 0x2029 then 92 :: 117 :: Text.hex .lower 4 n
    else g.bytes

def jsonText (t : Text) : Text := 34 :: (Utf8.decode t).flatMap jsonGlyph ++ [34]

def jsonValue : LogValue → Text
  | .text t => jsonText t
  | .int n => Text.ofInt n
  | .bool b => boolText b

def jsonMember (key : Text) (value : LogValue) : Text := jsonText key ++ 58 :: jsonValue value

def toJson (r : LogRecord) : Text :=
  123 :: Text.join [44]
    (jsonMember "level" (.text r.level.name) :: jsonMember "msg" (.text r.message)
      :: r.attributes.map fun a => jsonMember a.1 a.2) ++ [125]

end LogRecord

/-- A logger: which records it writes, and how. -/
structure Logger where
  level : Level
  format : LogFormat
  deriving DecidableEq, Repr

namespace Logger

/-- The logger for a level and a format given by words. The level is looked at first. -/
def make (level format : Text) : Except LogError Logger := do
  let l ← Level.parse level
  let f ← LogFormat.parse format
  return ⟨l, f⟩

/-- The line that a logger writes for a record, empty for a record below its level. -/
def line (g : Logger) (r : LogRecord) : Text :=
  if r.level < g.level then []
  else
    match g.format with
    | .text => r.toPairs ++ [10]
    | .json => r.toJson ++ [10]

/-- What a logger writes for a list of records. Without a logger nothing is written. -/
def write (g : Option Logger) (rs : List LogRecord) : Text :=
  match g with
  | some g => rs.flatMap g.line
  | none => []

end Logger

end ImportBlock
