import ImportBlock.Log
import ImportBlock.Source.Block
import ImportBlock.Source.Groups

/-!
# Formatting a source text

A source text is a buffer of lines with their terminators. Formatting groups and sorts the import
block of the buffer.
-/

/-!
## Line buffers

A buffer holds the lines of a file, each with its own terminator, so that what is not edited is
written back byte for byte. Inserted lines get the first terminator of the file.
-/

namespace ImportBlock

inductive Terminator
  | lf
  | crlf
  | cr
  deriving DecidableEq, Repr

def Terminator.bytes : Terminator → Text
  | lf => [10]
  | crlf => [13, 10]
  | cr => [13]

/-- A line and its terminator, `none` for a line that the end of the text ends. -/
structure BufferLine where
  text : Text
  ending : Option Terminator
  deriving DecidableEq, Repr

/-- The bytes of a line with its terminator. -/
def BufferLine.bytes (l : BufferLine) : Text :=
  match l.ending with
  | some e => l.text ++ e.bytes
  | none => l.text

/-- The lines of a file and the terminator that inserted lines get. -/
structure Buffer where
  lines : List BufferLine
  newline : Terminator
  deriving DecidableEq, Repr

namespace Buffer

/-- Cut a text after each terminator. A carriage return and a line feed are one terminator. -/
def parseLines : Text → List BufferLine
  | [] => []
  | 10 :: rest => ⟨[], some .lf⟩ :: parseLines rest
  | 13 :: 10 :: rest => ⟨[], some .crlf⟩ :: parseLines rest
  | 13 :: rest => ⟨[], some .cr⟩ :: parseLines rest
  | b :: rest =>
    match parseLines rest with
    | l :: ls => ⟨b :: l.text, l.ending⟩ :: ls
    | [] => [⟨[b], none⟩]

/-- The first terminator among the lines, a line feed if there is none. -/
def firstTerminator (lines : List BufferLine) : Terminator :=
  (lines.findSome? BufferLine.ending).getD .lf

def parse (src : Text) : Buffer := ⟨parseLines src, firstTerminator (parseLines src)⟩

/-- The lines without their terminators. -/
def texts (b : Buffer) : List Text := b.lines.map BufferLine.text

def size (b : Buffer) : Nat := b.lines.length

/-- The text of the buffer. -/
def bytes (b : Buffer) : Text := b.lines.flatMap BufferLine.bytes

/-- Does the last of the lines lack a terminator? -/
def endsOpen (lines : List BufferLine) : Bool :=
  match lines.getLast? with
  | some l => l.ending.isNone
  | none => false

/-- Give the last line another terminator, or none. -/
def setLastEnding (e : Option Terminator) : List BufferLine → List BufferLine
  | [] => []
  | [l] => [{ l with ending := e }]
  | l :: l' :: ls => l :: setLastEnding e (l' :: ls)

/-- Replace the lines from `start` up to `stop`. If they are the end of an open last line, the new
last line stays open; lines that follow an open last line close it and end open themselves. -/
def splice (b : Buffer) (start stop : Nat) (new : List Text) : Buffer :=
  let before := b.lines.take start
  let removed := (b.lines.drop start).take (stop - start)
  let after := b.lines.drop stop
  let inserted := new.map fun t => (⟨t, some b.newline⟩ : BufferLine)
  if after.isEmpty && endsOpen removed then
    { b with lines := setLastEnding none (before ++ inserted) }
  else if after.isEmpty && removed.isEmpty && endsOpen before && !new.isEmpty then
    { b with lines := setLastEnding (some b.newline) before ++ setLastEnding none inserted }
  else
    { b with lines := before ++ inserted ++ after }

/-- Replace a span given as words. What lies outside the buffer is moved to its nearest end. -/
def replace (b : Buffer) (s : Span) (new : List Text) : Buffer :=
  let start := Span.clamp b.size s.start
  b.splice start (max start (Span.clamp b.size s.stop)) new

/-- Carry out an edit of the buffer's lines. -/
def edit (b : Buffer) (e : Edit) : Buffer := b.splice e.range.start e.range.stop e.lines

/-- Group and sort the import block of the buffer, if it has one. -/
def regroup (b : Buffer) (r : Rules) : Buffer :=
  match r.plan b.texts with
  | some e => b.edit e
  | none => b

end Buffer

/-!
## Formatting a source text

The text of a file with its import block grouped and sorted, and what is logged on the way.
-/

/-- A formatted text, and whether it differs from what was given. -/
structure Formatted where
  out : Text
  changed : Bool
  deriving DecidableEq, Repr

namespace Rules

/-- Group and sort the import block of a source text. Without a block the text stays as it is. -/
def format (r : Rules) (src : Text) : Formatted :=
  let b := Buffer.parse src
  match r.plan b.texts with
  | some e => ⟨(b.edit e).bytes, (b.edit e).bytes != src⟩
  | none => ⟨src, false⟩

/-- A record about a file. -/
def record (level : Level) (message path : Text) (attributes : List (Text × LogValue)) :
    LogRecord :=
  ⟨level, message, (Text.ofString "path", .text path) :: attributes⟩

/-- A number as an attribute. -/
def count (key : Text) (n : Nat) : Text × LogValue := (key, .int n)

/-- What is logged while the text of a file is formatted. -/
def formatRecords (r : Rules) (path src : Text) : List LogRecord :=
  let b := Buffer.parse src
  match r.plan b.texts with
  | some e =>
    [record .debug "located import block" path
        [count "start" e.range.start, count "length" e.range.length],
      record .debug "grouped imports" path
        [count "lines" e.lines.length, (Text.ofString "changed", .bool (r.format src).changed)]]
  | none => [record .debug "no import block found" path [count "lines" b.size]]

end Rules

end ImportBlock
