import ImportBlock.Text.Basic
import ImportBlock.Yaml.Cursor

/-!
# Tokens

The tokens of a document, in the order in which they are written; the start of a block collection,
its end, and the key mark in front of a key without `?` are tokens of their own.
-/

namespace ImportBlock.Yaml

/-- How a scalar is written. -/
inductive Style
  | plain
  | quoted
  | block
  deriving DecidableEq, Repr

inductive Token
  /-- The end of the stream. -/
  | streamEnd
  /-- The directive with the version of the language. -/
  | version (major minor : Nat)
  /-- The directive that gives a handle its meaning. -/
  | handle (name meaning : Text)
  /-- Three dashes. -/
  | documentStart
  /-- Three dots. -/
  | documentEnd
  | blockListStart
  | blockMapStart
  | blockEnd
  /-- An opening bracket. -/
  | listStart
  /-- A closing bracket. -/
  | listEnd
  /-- An opening brace. -/
  | mapStart
  /-- A closing brace. -/
  | mapEnd
  /-- A dash in front of an item. -/
  | item
  | comma
  | key
  | value
  | anchor (name : Text)
  | reference (name : Text)
  | tag (handle suffix : Text)
  | scalar (style : Style) (text : Text)
  deriving DecidableEq, Repr

end ImportBlock.Yaml

/-!
## Scalars without quotes

A scalar without quotes is words with gaps in between. It ends before a colon with a gap after it,
a comment, a mark between documents or a line that is not indented; within brackets also before the
characters that have a meaning there.
-/

namespace ImportBlock.Yaml.Plain

/-- The word that characters start with. -/
def word (inFlow : Bool) : List Nat → List Nat
  | [] => []
  | n :: rest =>
    if isGap n || (n == 58 && isGap (rest.headD 0)) || (inFlow && isAmong ",?[]\x7b\x7d" n) then []
    else n :: word inFlow rest

/-- A scalar that was read. -/
structure Result where
  text : List Nat
  /-- Does the gap after the scalar reach into another line? -/
  endsLine : Bool
  cursor : Cursor
  deriving DecidableEq, Repr

/-- Read at most `fuel` words after `text` and the gap `g`. -/
def readFrom (inFlow : Bool) (indent : Nat) : Nat → List Nat → Gap → Cursor → Option Result
  | 0, text, g, c => some ⟨text, g.isBroken, c⟩
  | fuel + 1, text, g, c =>
    if c.isDocumentMark || c.peek == 35 then some ⟨text, g.isBroken, c⟩
    else
      let w := word inFlow c.rest
      let c := c.skip w.length
      if w.isEmpty then some ⟨text, g.isBroken, c⟩
      else
        let text := text ++ g.characters ++ w
        match Gap.read indent .empty c with
        | none => none
        | some (g, c) =>
          if !inFlow && c.column < indent then some ⟨text, g.isBroken, c⟩
          else readFrom inFlow indent fuel text g c

/-- Read a scalar. Its lines after the first are indented by `indent` columns at least. -/
def read (inFlow : Bool) (indent : Nat) (c : Cursor) : Option Result :=
  readFrom inFlow indent (c.rest.length + 1) [] .empty c

end ImportBlock.Yaml.Plain

/-!
## Scalars between quotes

Between single quotes a quote is written twice, and nothing else has a meaning. Between double
quotes a backslash starts an escape; at the end of a line it joins two lines without a space. Gaps
that reach into another line are folded in both.
-/

namespace ImportBlock.Yaml.Quoted

/-- Which quotes stand around a scalar. -/
inductive Quote
  | single
  | double
  deriving DecidableEq, Repr

def Quote.character : Quote → Nat
  | single => 39
  | double => 34

/-- The character that a letter after a backslash stands for. -/
def escaped? (n : Nat) : Option Nat :=
  match n with
  | 48 => some 0
  | 97 => some 7
  | 98 => some 8
  | 116 => some 9
  | 9 => some 9
  | 110 => some 10
  | 118 => some 11
  | 102 => some 12
  | 114 => some 13
  | 101 => some 27
  | 32 => some 32
  | 34 => some 34
  | 39 => some 39
  | 92 => some 92
  | 78 => some 0x85
  | 95 => some 0xA0
  | 76 => some 0x2028
  | 80 => some 0x2029
  | _ => none

/-- The number of digits after a letter that starts a numeric escape. -/
def digitCount? (n : Nat) : Option Nat :=
  match n with
  | 120 => some 2
  | 117 => some 4
  | 85 => some 8
  | _ => none

def hexValue? (ds : List Nat) : Option Nat :=
  ds.foldlM (fun n d => (hexDigit? d).map fun d => n * 16 + d) 0

/-- Is the number that of a character? -/
def isScalarValue (n : Nat) : Bool := n < 0xD800 || (0xDFFF < n && n ≤ 0x10FFFF)

/-- The character of an escape, after its backslash, and the length of the escape. -/
def escape? : List Nat → Option (Nat × Nat)
  | [] => none
  | n :: rest =>
    match escaped? n with
    | some m => some (m, 1)
    | none =>
      match digitCount? n with
      | none => none
      | some count =>
        let digits := rest.take count
        if digits.length < count then none
        else ((hexValue? digits).filter isScalarValue).map fun m => (m, count + 1)

/-- The characters between double quotes up to a gap, the end or an escaped line break, and how many
characters they are written with; the first `skip` are passed over. -/
def doubleWord : Nat → List Nat → Option (List Nat × Nat)
  | _, [] => some ([], 0)
  | skip + 1, _ :: rest => (doubleWord skip rest).map fun r => (r.1, r.2 + 1)
  | 0, n :: rest =>
    if isGap n || n == 34 then some ([], 0)
    else if n == 92 then
      if isBreak (rest.headD 0) then some ([], 0)
      else
        match escape? rest with
        | none => none
        | some (m, width) => (doubleWord width rest).map fun r => (m :: r.1, r.2 + 1)
    else (doubleWord 0 rest).map fun r => (n :: r.1, r.2 + 1)

/-- The characters between single quotes up to a gap or the end, and how many characters they are
written with. -/
def singleWord : List Nat → List Nat × Nat
  | [] => ([], 0)
  | [n] => if isGap n || n == 39 then ([], 0) else ([n], 1)
  | n :: m :: rest =>
    if n == 39 then
      if m == 39 then
        let r := singleWord rest
        (39 :: r.1, r.2 + 2)
      else ([], 0)
    else if isGap n then ([], 0)
    else
      let r := singleWord (m :: rest)
      (n :: r.1, r.2 + 1)

/-- The word that characters start with, and how many characters it is written with. -/
def word (q : Quote) (cs : List Nat) : Option (List Nat × Nat) :=
  match q with
  | .single => some (singleWord cs)
  | .double => doubleWord 0 cs

/-- Read at most `fuel` words after `text`, and the quote at the end. -/
def readFrom (q : Quote) : Nat → List Nat → Cursor → Option (List Nat × Cursor)
  | 0, _, _ => none
  | fuel + 1, text, c =>
    if c.isDocumentMark || c.rest.isEmpty then none
    else
      match word q c.rest with
      | none => none
      | some (w, width) =>
        let c := c.skip width
        let text := text ++ w
        if c.peek == q.character then some (text, c.skip 1)
        else
          let start : Gap × Cursor :=
            if c.peek == 92 then (⟨[], .escaped, []⟩, (c.skip 1).nextLine) else (.empty, c)
          match Gap.read 0 start.1 start.2 with
          | none => none
          | some (g, c) => readFrom q fuel (text ++ g.characters) c

/-- Read a scalar, from the quote in front of it on. -/
def read (q : Quote) (c : Cursor) : Option (List Nat × Cursor) :=
  readFrom q (c.rest.length + 1) [] (c.skip 1)

end ImportBlock.Yaml.Quoted

/-!
## Block scalars

A block scalar is the indented lines after `|` or `>`. After `|` every line break counts; after `>`
a line break between two lines that start without a blank is folded. A header may say how far the
lines are indented, and which of the line breaks at the end count.
-/

namespace ImportBlock.Yaml.Block

/-- Which of the line breaks at the end count. -/
inductive Chomping
  /-- None. -/
  | strip
  /-- The first one. -/
  | clip
  /-- All of them. -/
  | keep
  deriving DecidableEq, Repr

/-- What stands after the mark of a block scalar. Without an explicit indentation it is zero. -/
structure Header where
  chomping : Chomping
  indentation : Nat
  deriving DecidableEq, Repr

/-- The chomping that a character stands for. -/
def chomping? (n : Nat) : Option Chomping :=
  if n = 43 then some .keep else if n = 45 then some .strip else none

def isDigit (n : Nat) : Bool := 48 ≤ n && n ≤ 57

/-- The indentation that a digit stands for, and the place after it; zero if there is none. An
indentation by no column is refused. -/
def indentation? (c : Cursor) : Option (Nat × Cursor) :=
  if c.peek = 48 then none
  else if isDigit c.peek then some (c.peek - 48, c.skip 1)
  else some (0, c)

/-- The start of the line after this one, if nothing but a comment is left of this one. -/
def endLine? (c : Cursor) : Option Cursor :=
  let c := c.skipWhile isBlank
  let c := if c.peek == 35 then c.skipWhile fun n => !isBreakOrEnd n else c
  if isBreak c.peek then some c.nextLine else if c.rest.isEmpty then some c else none

/-- Read a header: chomping and indentation in either order, or one of them, or none. -/
def header? (c : Cursor) : Option (Header × Cursor) :=
  match chomping? c.peek with
  | some ch =>
    match indentation? (c.skip 1) with
    | none => none
    | some (n, c) => (endLine? c).map fun c => (⟨ch, n⟩, c)
  | none =>
    match indentation? c with
    | none => none
    | some (n, c) =>
      match chomping? c.peek with
      | some ch => (endLine? (c.skip 1)).map fun c => (⟨ch, n⟩, c)
      | none => (endLine? c).map fun c => (⟨.clip, n⟩, c)

/-- Empty lines: their line breaks, the greatest number of spaces in front of one or of the line
after them, and the place after them and the indentation of that line. -/
structure Empty where
  breaks : List Nat
  most : Nat
  cursor : Cursor
  deriving DecidableEq, Repr

/-- Read empty lines and the indentation of the line after them. An indentation of zero is one that
is not known yet; all spaces then count. A tab may not stand within the indentation. -/
def emptyFrom (indent : Nat) : Nat → List Nat → Nat → Cursor → Option Empty
  | 0, breaks, most, c => some ⟨breaks, most, c⟩
  | fuel + 1, breaks, most, c =>
    let spaces := (c.rest.takeWhile fun n => n == 32).length
    let c := c.skip (if indent = 0 then spaces else min spaces (indent - c.column))
    let most := max most c.column
    if (indent = 0 || c.column < indent) && c.peek == 9 then none
    else if isBreak c.peek then emptyFrom indent fuel (breaks ++ [c.lineBreak]) most c.nextLine
    else some ⟨breaks, most, c⟩

/-- Read empty lines and the indentation of the line after them. -/
def empty? (indent : Nat) (c : Cursor) : Option Empty :=
  emptyFrom indent (c.rest.length + 1) [] 0 c

/-- What has been read of a block scalar: its text, the line break after the last line and those of
the empty lines after it, and whether that line starts with a blank. -/
structure Lines where
  text : List Nat
  lastBreak : List Nat
  breaks : List Nat
  isBlank : Bool
  cursor : Cursor
  deriving DecidableEq, Repr

/-- The text with the line breaks after it, before a line that starts with a blank or not. -/
def Lines.joined (folded : Bool) (l : Lines) (blank : Bool) : List Nat :=
  if folded && !l.isBlank && !blank && l.lastBreak == [10] then
    l.text ++ (if l.breaks.isEmpty then [32] else l.breaks)
  else l.text ++ l.lastBreak ++ l.breaks

/-- Read at most `fuel` lines of the given indentation. -/
def linesFrom (folded : Bool) (indent : Nat) : Nat → Lines → Option Lines
  | 0, l => some l
  | fuel + 1, l =>
    let c := l.cursor
    if c.column != indent || c.rest.isEmpty then some l
    else
      let blank := Yaml.isBlank c.peek
      let line := c.rest.takeWhile fun n => !isBreakOrEnd n
      let text := l.joined folded blank ++ line
      let c := c.skip line.length
      let lastBreak := if isBreak c.peek then [c.lineBreak] else []
      let c := if isBreak c.peek then c.nextLine else c
      match empty? indent c with
      | none => none
      | some e => linesFrom folded indent fuel ⟨text, lastBreak, e.breaks, blank, e.cursor⟩

/-- The text of lines, with the line breaks at its end that count. -/
def Lines.chomped (l : Lines) : Chomping → List Nat
  | .strip => l.text
  | .clip => l.text ++ l.lastBreak
  | .keep => l.text ++ l.lastBreak ++ l.breaks

/-- Read a block scalar, from the mark in front of it on. It lies within collections of which the
innermost is indented by `outer` columns, and its lines are indented by `least` at least. -/
def read (folded : Bool) (outer least : Nat) (c : Cursor) : Option (List Nat × Cursor) :=
  match header? (c.skip 1) with
  | none => none
  | some (h, c) =>
    let given := if h.indentation = 0 then 0 else outer + h.indentation
    match empty? given c with
    | none => none
    | some e =>
      let indent := if given = 0 then max e.most (max least 1) else given
      match linesFrom folded indent (c.rest.length + 1) ⟨[], [], e.breaks, false, e.cursor⟩ with
      | none => none
      | some l => some (l.chomped h.chomping, l.cursor)

end ImportBlock.Yaml.Block

/-!
## Anchors, tags and directives

Names of anchors are letters, digits, dashes and underscores. A tag is a handle and a suffix, or
stands between `!<` and `>` as a whole. A directive takes a line of its own.
-/

namespace ImportBlock.Yaml.Mark

/-- Letters, digits, dashes and underscores. -/
def isNameCharacter (n : Nat) : Bool :=
  (48 ≤ n && n ≤ 57) || (65 ≤ n && n ≤ 90) || (97 ≤ n && n ≤ 122) || n == 95 || n == 45

/-- The name here and the place after it. -/
def name (c : Cursor) : Text × Cursor :=
  let cs := c.rest.takeWhile isNameCharacter
  (textOf cs, c.skip cs.length)

/-- Read the name of an anchor or a reference, after its mark. -/
def anchorName? (c : Cursor) : Option (Text × Cursor) :=
  let (n, c) := name (c.skip 1)
  if n.isEmpty || !(isGap c.peek || isAmong "?:,]\x7d%@\x60" c.peek) then none else some (n, c)

/-! ### Tags -/

/-- The characters that a tag may have besides those of names. -/
def isTagCharacter (n : Nat) : Bool := isNameCharacter n || isAmong ";/?:@&=+$,.!~*'()[]" n

/-- The number of bytes of a UTF-8 sequence by its first byte. -/
def sequenceLength? (b : Nat) : Option Nat :=
  if b < 0x80 then some 1
  else if 0xC0 ≤ b && b ≤ 0xDF then some 2
  else if 0xE0 ≤ b && b ≤ 0xEF then some 3
  else if 0xF0 ≤ b && b ≤ 0xF7 then some 4
  else none

/-- The byte of a percent sign and two digits. -/
def percentByte? : List Nat → Option Nat
  | 37 :: a :: b :: _ => do
    let a ← hexDigit? a
    let b ← hexDigit? b
    return a * 16 + b
  | _ => none

/-- Bytes after percent signs that continue a sequence. -/
def continued? : Nat → List Nat → Option (List Nat)
  | 0, _ => some []
  | count + 1, cs =>
    match percentByte? cs with
    | some b =>
      if 0x80 ≤ b && b ≤ 0xBF then (continued? count (cs.drop 3)).map (b :: ·) else none
    | none => none

/-- The bytes of a character that is written with percent signs. -/
def percent? (cs : List Nat) : Option (List Nat) :=
  match percentByte? cs with
  | some b =>
    match sequenceLength? b with
    | some n => (continued? (n - 1) (cs.drop 3)).map (b :: ·)
    | none => none
  | none => none

/-- Read the characters of a tag, of which the first `skip` are passed over. The result has the
bytes of the tag and the number of characters they are written with. -/
def tagText? : Nat → List Nat → Option (Text × Nat)
  | _, [] => some ([], 0)
  | skip + 1, _ :: rest => (tagText? skip rest).map fun r => (r.1, r.2 + 1)
  | 0, n :: rest =>
    if n == 37 then
      match percent? (n :: rest) with
      | none => none
      | some bytes =>
        (tagText? (3 * bytes.length - 1) rest).map fun r =>
          (bytes.map UInt8.ofNat ++ r.1, r.2 + 1)
    else if isTagCharacter n then (tagText? 0 rest).map fun r => (UInt8.ofNat n :: r.1, r.2 + 1)
    else some ([], 0)

/-- Read the characters of a tag after `head`. There is at least one character. -/
def tagPart? (head : Text) (c : Cursor) : Option (Text × Cursor) :=
  match tagText? 0 c.rest with
  | none => none
  | some (t, width) =>
    if head.isEmpty && width = 0 then none else some (head.drop 1 ++ t, c.skip width)

/-- The handle here: an exclamation mark, a name, and another exclamation mark if there is one. -/
def handle (c : Cursor) : Text × Cursor :=
  let (n, c) := name (c.skip 1)
  if c.peek == 33 then (33 :: n ++ [33], c.skip 1) else (33 :: n, c)

/-- Read a tag that is given as a whole. -/
def verbatim? (c : Cursor) : Option (Token × Cursor) :=
  match tagPart? [] (c.skip 2) with
  | some (t, c) => if c.peek == 62 then some (.tag [] t, c.skip 1) else none
  | none => none

/-- Read a tag with a handle. One exclamation mark alone is a tag as well. -/
def shorthand? (c : Cursor) : Option (Token × Cursor) :=
  let (h, c) := handle c
  if 1 < h.length && h.endsWith [33] then
    (tagPart? [] c).map fun r => (.tag h r.1, r.2)
  else
    (tagPart? h c).map fun r => (if r.1.isEmpty then .tag [] [33] else .tag [33] r.1, r.2)

/-- Read a tag. A gap follows it. -/
def tag? (c : Cursor) : Option (Token × Cursor) :=
  (if c.peekAt 1 == 60 then verbatim? c else shorthand? c).filter fun r => isGap r.2.peek

/-! ### Directives -/

def number? (c : Cursor) : Option (Nat × Cursor) :=
  let digits := c.rest.takeWhile fun n => 48 ≤ n && n ≤ 57
  if digits.isEmpty || 2 < digits.length then none
  else some (Text.digitsValue (textOf digits), c.skip digits.length)

/-- Read the numbers of a version, with a point in between. -/
def version? (c : Cursor) : Option (Token × Cursor) :=
  match number? (c.skipWhile isBlank) with
  | none => none
  | some (major, c) =>
    if c.peek != 46 then none
    else (number? (c.skip 1)).map fun r => (.version major r.1, r.2)

/-- Read a handle and its meaning. The handle is one exclamation mark, or ends with a second. -/
def meaning? (c : Cursor) : Option (Token × Cursor) :=
  let c := c.skipWhile isBlank
  if c.peek != 33 then none
  else
    let (h, c) := handle c
    if !(h.length == 1 || h.endsWith [33]) || !isBlank c.peek then none
    else
      match tagPart? [] (c.skipWhile isBlank) with
      | some (t, c) => if isGap c.peek then some (.handle h t, c) else none
      | none => none

/-- Read a directive, from its percent sign on, and the rest of its line. -/
def directive? (c : Cursor) : Option (Token × Cursor) :=
  let (n, c) := name (c.skip 1)
  if !isGap c.peek then none
  else
    let found? :=
      if n == Text.ofString "YAML" then version? c
      else if n == Text.ofString "TAG" then meaning? c
      else none
    match found? with
    | none => none
    | some (token, c) =>
      let c := c.skipWhile isBlank
      let c := if c.peek == 35 then c.skipWhile fun n => !isBreakOrEnd n else c
      if isBreak c.peek then some (token, c.nextLine)
      else if c.rest.isEmpty then some (token, c)
      else none

end ImportBlock.Yaml.Mark
