import ImportBlock.Text.Characters

/-!
# Characters of a document and places in it

A document is delivered as blocks of characters, and read through a cursor that knows its line and
column.
-/

/-!
## Character streams

A document arrives as bytes in UTF-8, or in UTF-16 if a byte order mark says so. The bytes are read
in blocks, and a block with bytes that are no character, or with a character that documents may not
hold, is not delivered at all: the stream then ends before it and is broken.
-/

namespace ImportBlock.Yaml

/-- The characters that a document may hold. -/
def isAllowed (n : Nat) : Bool :=
  n == 9 || n == 10 || n == 13 || (0x20 ≤ n && n ≤ 0x7E) || n == 0x85
    || (0xA0 ≤ n && n ≤ 0xD7FF) || (0xE000 ≤ n && n ≤ 0xFFFD) || (0x10000 ≤ n && n ≤ 0x10FFFF)

/-- The characters that can be read, block by block, and whether something that cannot be read
follows. -/
structure Stream where
  blocks : List (List Nat)
  isBroken : Bool
  deriving DecidableEq, Repr

namespace Stream

def characters (s : Stream) : List Nat := s.blocks.flatten

/-- The number of characters within reach of a byte order mark at the start: those of its block. -/
def markReach (s : Stream) : Nat :=
  match s.blocks with
  | (0xFEFF :: cs) :: _ => cs.length + 1
  | _ => 0

def blockSize : Nat := 512

/-- A few bytes: the character they stand for, if they do and documents may hold it. -/
structure Piece where
  width : Nat
  code : Option Nat
  deriving DecidableEq, Repr

/-- A piece for the character of a code. -/
def Piece.ofCode (width n : Nat) : Piece := ⟨width, if isAllowed n then some n else none⟩

/-- A piece without a character. If its bytes are not complete, it fills a block on its own. -/
def Piece.bad (width left : Nat) : Piece := ⟨if left < width then blockSize else width, none⟩

/-! ### UTF-8 -/

/-- The length of a sequence by its first byte. -/
def widthOf (b : UInt8) : Nat :=
  if 0xF0 ≤ b && b ≤ 0xF7 then 4
  else if 0xE0 ≤ b && b ≤ 0xEF then 3
  else if 0xC0 ≤ b && b ≤ 0xDF then 2
  else 1

/-- The pieces of a text in UTF-8, of which `left` bytes are left. -/
def pieces8 : Nat → List Glyph → List Piece
  | _, [] => []
  | left, g :: gs =>
    match g.code with
    | some n => .ofCode g.bytes.length n :: pieces8 (left - g.bytes.length) gs
    | none => [.bad (widthOf (g.bytes.headD 0)) left]

/-! ### UTF-16 -/

inductive ByteOrder
  | littleEndian
  | bigEndian
  deriving DecidableEq, Repr

/-- The number that two bytes make. -/
def ByteOrder.unit (o : ByteOrder) (a b : UInt8) : Nat :=
  match o with
  | littleEndian => b.toNat * 256 + a.toNat
  | bigEndian => a.toNat * 256 + b.toNat

/-- Units for the first half of a character. -/
def isHighSurrogate (n : Nat) : Bool := 0xD800 ≤ n && n ≤ 0xDBFF

/-- Units for the second half of a character. -/
def isLowSurrogate (n : Nat) : Bool := 0xDC00 ≤ n && n ≤ 0xDFFF

/-- The pieces of a text in UTF-16. -/
def pieces16 (o : ByteOrder) : Text → List Piece
  | [] => []
  | [_] => [.bad 2 1]
  | a :: b :: rest =>
    let n := o.unit a b
    if isLowSurrogate n then [.bad 2 2]
    else if isHighSurrogate n then
      match rest with
      | c :: d :: rest =>
        let m := o.unit c d
        if isLowSurrogate m then
          .ofCode 4 (0x10000 + (n - 0xD800) * 0x400 + (m - 0xDC00)) :: pieces16 o rest
        else [.bad 4 4]
      | _ => [.bad 4 2]
    else .ofCode 2 n :: pieces16 o rest

/-! ### Blocks -/

/-- The stream of pieces. The block being read has `used` bytes so far, with the characters `held`,
the last one first. -/
def deliver : Nat → List Nat → List Piece → Stream
  | _, held, [] => ⟨[held.reverse], false⟩
  | used, held, p :: ps =>
    let fits := used + p.width ≤ blockSize
    match p.code with
    | none => ⟨if fits then [] else [held.reverse], true⟩
    | some n =>
      if fits then deliver (used + p.width) (n :: held) ps
      else
        let later := deliver p.width [n] ps
        ⟨held.reverse :: later.blocks, later.isBroken⟩

/-- The characters of a document. A byte order mark at its start is not one of them. -/
def ofText (t : Text) : Stream :=
  match t with
  | 0xFF :: 0xFE :: rest => deliver 2 [] (pieces16 .littleEndian rest)
  | 0xFE :: 0xFF :: rest => deliver 2 [] (pieces16 .bigEndian rest)
  | 0xEF :: 0xBB :: 0xBF :: rest => deliver 3 [] (pieces8 rest.length (Utf8.decode rest))
  | _ => deliver 0 [] (pieces8 t.length (Utf8.decode t))

end Stream

/-!
## Places in a document

A cursor is a place in the characters of a document, with its line and column. Zero stands for the
character at the end: no document holds it.
-/

/-! ### Characters -/

/-- A space or a tab. -/
def isBlank (n : Nat) : Bool := n == 32 || n == 9

/-- The characters that end a line. -/
def isBreak (n : Nat) : Bool := n == 10 || n == 13 || n == 0x85 || n == 0x2028 || n == 0x2029

/-- A line break, or the end of the document. -/
def isBreakOrEnd (n : Nat) : Bool := isBreak n || n == 0

/-- A blank, a line break, or the end of the document. -/
def isGap (n : Nat) : Bool := isBlank n || isBreakOrEnd n

/-- Is the character one of an ASCII text? -/
def isAmong (marks : String) (n : Nat) : Bool := marks.toList.any fun c => c.toNat == n

def hexDigit? (n : Nat) : Option Nat := if n < 0x80 then Text.hexValue? (UInt8.ofNat n) else none

def textOf (cs : List Nat) : Text := cs.flatMap Utf8.encode

/-- A place in a document. -/
structure Cursor where
  /-- The characters from here on. -/
  rest : List Nat
  /-- The number of characters before. -/
  index : Nat
  line : Nat
  column : Nat
  deriving DecidableEq, Repr

namespace Cursor

def start (cs : List Nat) : Cursor := ⟨cs, 0, 0, 0⟩

def peek (c : Cursor) : Nat := c.rest.headD 0

def peekAt (c : Cursor) (n : Nat) : Nat := c.rest.getD n 0

/-- The place some characters further on, on the same line. -/
def skip (c : Cursor) (n : Nat) : Cursor :=
  { c with rest := c.rest.drop n, index := c.index + n, column := c.column + n }

/-- The place after the characters that have a property. -/
def skipWhile (c : Cursor) (p : Nat → Bool) : Cursor := c.skip (c.rest.takeWhile p).length

/-- The length of the line break that characters start with. -/
def breakWidth : List Nat → Nat
  | 13 :: 10 :: _ => 2
  | _ => 1

/-- The start of the next line, from the line break at the end of this one. -/
def nextLine (c : Cursor) : Cursor :=
  let width := breakWidth c.rest
  ⟨c.rest.drop width, c.index + width, c.line + 1, 0⟩

/-- The line break here as it counts in a text. The separators of lines and paragraphs stay. -/
def lineBreak (c : Cursor) : Nat := if c.peek == 0x2028 || c.peek == 0x2029 then c.peek else 10

/-- Does a line with three dashes, or three of another character, and a gap start here? -/
def isMark (c : Cursor) (n : Nat) : Bool :=
  c.column == 0 && c.peek == n && c.peekAt 1 == n && c.peekAt 2 == n && isGap (c.peekAt 3)

/-- Does a mark between documents stand here? -/
def isDocumentMark (c : Cursor) : Bool := c.isMark 45 || c.isMark 46

end Cursor

/-! ### Gaps -/

/-- How a line ends within a gap. -/
inductive Turn
  /-- The gap lies within one line. -/
  | none
  /-- The line break is escaped. -/
  | escaped
  /-- There is a line break. -/
  | broken (n : Nat)
  deriving DecidableEq, Repr

/-- Blanks and line breaks between two words of a scalar. -/
structure Gap where
  /-- The blanks of a gap within one line. -/
  blanks : List Nat
  turn : Turn
  /-- The line breaks after the first one. -/
  breaks : List Nat
  deriving DecidableEq, Repr

namespace Gap

/-- Nothing between two words. -/
def empty : Gap := ⟨[], .none, []⟩

/-- Does the gap reach into another line? -/
def isBroken (g : Gap) : Bool := g.turn != .none

/-- What a gap counts as. One line break is a space, of several the first does not count; a
separator of lines or paragraphs always counts. -/
def characters (g : Gap) : List Nat :=
  match g.turn with
  | .none => g.blanks
  | .escaped => g.breaks
  | .broken 10 => if g.breaks.isEmpty then [32] else g.breaks
  | .broken n => n :: g.breaks

/-- The gap with a blank after it. Blanks in front of a line do not count. -/
def addBlank (g : Gap) (n : Nat) : Gap :=
  if g.isBroken then g else { g with blanks := g.blanks ++ [n] }

/-- The gap with a line break after it. -/
def addBreak (g : Gap) (n : Nat) : Gap :=
  match g.turn with
  | .none => ⟨[], .broken n, []⟩
  | _ => { g with breaks := g.breaks ++ [n] }

/-- Read a gap of at most `fuel` characters after `g`. A tab may not stand among the first `indent`
columns of a line. -/
def readFrom (indent : Nat) : Nat → Gap → Cursor → Option (Gap × Cursor)
  | 0, g, c => some (g, c)
  | fuel + 1, g, c =>
    if isBlank c.peek then
      if g.isBroken && c.column < indent && c.peek == 9 then none
      else readFrom indent fuel (g.addBlank c.peek) (c.skip 1)
    else if isBreak c.peek then readFrom indent fuel (g.addBreak c.lineBreak) c.nextLine
    else some (g, c)

/-- Read the gap here, after `g`. -/
def read (indent : Nat) (g : Gap) (c : Cursor) : Option (Gap × Cursor) :=
  readFrom indent c.rest.length g c

end Gap

end ImportBlock.Yaml
