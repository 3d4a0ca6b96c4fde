import ImportBlock.Yaml.Scalar
import ImportBlock.Yaml.Cursor

/-!
# Printing scalars

A text of several lines is printed as a block scalar. Any other is printed without quotes where it
then reads back as itself, else between single quotes, and between double quotes if it holds
characters that need an escape or would be taken for something else than a text. Bytes that are no
text at all are printed in base 64.
-/

namespace ImportBlock.Yaml

/-! ## Texts that look like something else -/

/-- Words that other readers take for truth values. -/
def isSwitchWord (t : Text) : Bool :=
  isOneOf ["y", "Y", "yes", "Yes", "YES", "on", "On", "ON",
    "n", "N", "no", "No", "NO", "off", "Off", "OFF"] t

def isLooseDigit (b : UInt8) : Bool := Text.isDigit b || b == 95

/-- One or two digits below sixty. -/
def isSixtieth : Text → Bool
  | [a] => Text.isDigit a
  | [a, b] => Text.isDigit a && a < 54 && Text.isDigit b
  | _ => false

/-- Is the text a number in base sixty, with colons between its digits? -/
def isSexagesimal (t : Text) : Bool :=
  match Text.cutAt 46 (signOf t).2 with
  | (whole, fraction) =>
    (fraction.all fun f => f.all isLooseDigit) &&
      match whole.splitAt 58 with
      | (b :: first) :: second :: more =>
        Text.isDigit b && first.all isLooseDigit && (second :: more).all isSixtieth
      | _ => false

/-- Would the text without quotes read back, here or elsewhere, as something else than a text? -/
def isMistakable (t : Text) : Bool := !isPlainText t || isSwitchWord t || isSexagesimal t

/-! ## Characters -/

/-- May the character be printed as it is? -/
def isPrinted (n : Nat) : Bool :=
  n == 10 || (0x20 ≤ n && n ≤ 0x7E) || (0xA0 ≤ n && n ≤ 0xFFFD && n != 0xFEFF)

/-- Has the character to be escaped wherever it stands? Tabs need not be in a block scalar. -/
def isSpecial (n : Nat) : Bool := n != 9 && !isPrinted n

/-- Do two characters with the given properties stand side by side? -/
def hasPair (p q : Nat → Bool) : List Nat → Bool
  | a :: b :: rest => (p a && q b) || hasPair p q (b :: rest)
  | _ => false

def isSpace (n : Nat) : Bool := n == 32

/-- Does a space stand at the end of a line? -/
def hasSpaceBeforeBreak (cs : List Nat) : Bool := hasPair isSpace isBreak cs

/-- Does a space stand at the start of a line after the first? -/
def hasSpaceAfterBreak (cs : List Nat) : Bool := hasPair isBreak isSpace cs

/-! ## Without quotes -/

/-- Is there a colon before a space, or a number sign after one? The character before is given. -/
def hasStructure (before : Nat) : List Nat → Bool
  | [] => false
  | n :: rest =>
    (n == 58 && (rest.isEmpty || rest.head? == some 32)) || (n == 35 && before == 32)
      || hasStructure n rest

/-- Does the text start like a mark between documents? -/
def startsLikeMark (cs : List Nat) : Bool :=
  cs.take 3 == [45, 45, 45] || cs.take 3 == [46, 46, 46]

/-- Would the start or a mark inside the text be read as part of the document's structure? -/
def hasMeaning (cs : List Nat) : Bool :=
  cs.head? == some 32 || cs.getLast? == some 32 || startsLikeMark cs
    || isAmong "#,[]\x7b\x7d&*!|>'\"%@\x60" (cs.headD 0)
    || (isAmong "?:-" (cs.headD 0) && (cs.length == 1 || cs[1]? == some 32))
    || hasStructure 0 cs

/-- Can the text be printed without quotes? -/
def isPlainPrintable (cs : List Nat) : Bool :=
  cs.all (fun n => isPrinted n && !isBreak n) && !hasMeaning cs

/-! ## Between quotes -/

/-- The letter of the short escape of a character. -/
def escapeLetter? (n : Nat) : Option UInt8 :=
  match n with
  | 0 => some 48
  | 7 => some 97
  | 8 => some 98
  | 9 => some 116
  | 10 => some 110
  | 11 => some 118
  | 12 => some 102
  | 13 => some 114
  | 27 => some 101
  | 34 => some 34
  | 92 => some 92
  | 0x85 => some 78
  | 0xA0 => some 95
  | 0x2028 => some 76
  | 0x2029 => some 80
  | _ => none

/-- The escape of a character: its letter, or as few of two, four or eight digits as it needs. -/
def escapeText (n : Nat) : Text :=
  match escapeLetter? n with
  | some letter => [92, letter]
  | none =>
    if n < 0x100 then 92 :: 120 :: Text.hex .upper 2 n
    else if n < 0x10000 then 92 :: 117 :: Text.hex .upper 4 n
    else 92 :: 85 :: Text.hex .upper 8 n

/-- A character between double quotes. -/
def escapedCharacter (n : Nat) : Text :=
  if !isPrinted n || isBreak n || n == 34 || n == 92 then escapeText n else Utf8.encode n

/-- The text between double quotes. After a byte order mark every character is escaped. -/
def doubleQuoted (cs : List Nat) : Text :=
  34 :: cs.flatMap (if cs.head? == some 0xFEFF then escapeText else escapedCharacter) ++ [34]

/-- Can the text be printed between single quotes? -/
def isSingleQuotable (cs : List Nat) : Bool :=
  cs.all isPrinted && !hasSpaceBeforeBreak cs && !hasSpaceAfterBreak cs

/-- The characters of a text between single quotes, where each quote is written twice and a line
after the first is indented. The flag tells whether a line starts here. -/
def singleFrom (margin : Text) : Bool → List Nat → Text
  | _, [] => []
  | fresh, n :: rest =>
    if isBreak n then Utf8.encode n ++ singleFrom margin true rest
    else
      (if fresh then margin else []) ++ (if n == 39 then [39, 39] else Utf8.encode n)
        ++ singleFrom margin false rest

def singleQuoted (margin : Text) (cs : List Nat) : Text := 39 :: singleFrom margin false cs ++ [39]

/-! ## Block scalars -/

/-- Can the text be printed as a block scalar? -/
def isBlockPrintable (cs : List Nat) : Bool :=
  !cs.any isSpecial && cs.getLast? != some 32 && !hasSpaceBeforeBreak cs

/-- The number of columns of one level of indentation. -/
def step : Nat := 4

/-- The mark that says which line breaks at the end count. -/
def chompMark (cs : List Nat) : Text :=
  match cs.reverse with
  | [] => [45]
  | last :: before =>
    if !isBreak last then [45]
    else
      match before with
      | [] => [43]
      | n :: _ => if isBreak n then [43] else []

/-- The header of a block scalar. It states the indentation of a text that starts with a blank. -/
def blockHeader (cs : List Nat) : Text :=
  124 :: (if cs.head?.any fun n => isSpace n || isBreak n then Text.ofNat step else [])
    ++ chompMark cs

/-- Where the next character of a block scalar goes. -/
inductive Place
  | header
  | lineStart
  | inLine
  deriving DecidableEq, Repr

/-- The lines of a block scalar. A line break right behind the header ends the header's line. -/
def blockLines (margin : Text) : Place → List Nat → Text
  | _, [] => []
  | place, n :: rest =>
    if isBreak n then Utf8.encode n ++ blockLines margin .lineStart rest
    else
      let front : Text :=
        match place with
        | .header => 10 :: margin
        | .lineStart => margin
        | .inLine => []
      front ++ Utf8.encode n ++ blockLines margin .inLine rest

def blockScalar (margin : Text) (cs : List Nat) : Text :=
  blockHeader cs ++ blockLines margin .header cs

/-- The text as a block scalar, with the end of its last line. -/
def printBlock (margin : Text) (cs : List Nat) : Text :=
  blockScalar margin cs ++ if cs.getLast?.any isBreak then [] else [10]

/-! ## Scalars -/

def spaces (n : Nat) : Text := List.replicate n 32

/-- The greatest length of a line in base 64. -/
def base64Width : Nat := 70

/-- The digits in lines, each with a line break behind it; `left` more fit into the present one. -/
def inLines : Nat → Text → Text
  | _, [] => [10]
  | 0, b :: rest => 10 :: b :: inLines (base64Width - 1) rest
  | left + 1, b :: rest => b :: inLines left rest

/-- Bytes in base 64, in several lines if they are many. -/
def printBinary (margin t : Text) : Text :=
  let digits := Base64.encode t
  if digits.length < base64Width then digits ++ [10]
  else printBlock margin (Utf8.codes (inLines base64Width digits))

/-- A text as a scalar, with the end of its last line. Lines after the first are indented by
`margin` columns. -/
def printText (margin : Nat) (t : Text) : Text :=
  if !Utf8.isValid t then "!!binary " ++ printBinary (spaces margin) t
  else
    let cs := Utf8.codes t
    if cs.contains 10 && isBlockPrintable cs then printBlock (spaces margin) cs
    else if cs.contains 10 || isMistakable t then doubleQuoted cs ++ [10]
    else if isPlainPrintable cs then t ++ [10]
    else if isSingleQuotable cs then singleQuoted (spaces margin) cs ++ [10]
    else doubleQuoted cs ++ [10]

/-! ## Rows -/

/-- A key with a text at a depth of mappings. -/
def printEntry (depth : Nat) (key t : Text) : Text :=
  spaces (depth * step) ++ key ++ 58 :: 32 :: printText ((depth + 1) * step) t

/-- A key with a list of texts. -/
def printList (key : Text) (items : List Text) : Text :=
  if items.isEmpty then key ++ Text.ofString ": []\n"
  else
    key ++ 58 :: 10 :: items.flatMap fun t => spaces step ++ 45 :: 32 :: printText (step + 2) t

end ImportBlock.Yaml
