import ImportBlock.Text.Characters

/-!
# The import block of a source text

What the lines of a source text are to the scan for imports, where the block is, and what cutting
it out by signed words does.
-/

/-!
## Source lines

A line counts as an import by its normal form, in which every run of blanks is one space and no
blank stands at either end.
-/

namespace ImportBlock

/-- What a source line is to the scan for the import block. -/
inductive Role
  | blank
  | statement
  | code
  deriving DecidableEq, Repr

namespace Line

/-- How the normal form of an import statement starts. -/
def importWord : Text := "import "

/-- The fields of a line with single spaces in between. -/
def normalize (line : Text) : Text := Text.join [32] line.fields

def isImport (normal : Text) : Bool := normal.startsWith importWord

/-- An import statement, a blank line, or any other line. -/
def role (line : Text) : Role :=
  if isImport (normalize line) then .statement
  else if (normalize line).isEmpty then .blank
  else .code

end Line

/-!
## The import block

The block of a source reaches from its first import statement to the last one that only blank
lines and other imports separate from it. Blank lines inside the block belong to it, blank lines
after it do not.
-/

/-- A stretch of lines, given by its first index and its number of lines. -/
structure LineRange where
  start : Nat
  length : Nat
  deriving DecidableEq, Repr

namespace LineRange

def stop (r : LineRange) : Nat := r.start + r.length

/-- The lines of the stretch. -/
def select (r : LineRange) (lines : List Text) : List Text := (lines.drop r.start).take r.length

end LineRange

namespace Block

/-- The lines without the blank ones at the end. -/
def dropBlankEnd (lines : List Text) : List Text :=
  (lines.reverse.dropWhile fun l => Line.role l == .blank).reverse

/-- Where the import block is, if the lines have one. -/
def locate (lines : List Text) : Option LineRange :=
  let lead := lines.takeWhile fun l => Line.role l != .statement
  let run := (lines.drop lead.length).takeWhile fun l => Line.role l != .code
  let block := dropBlankEnd run
  if block.isEmpty then none else some ⟨lead.length, block.length⟩

/-- The normal forms of the lines that are not blank. -/
def imports (lines : List Text) : List Text :=
  (lines.map Line.normalize).filter fun l => !l.isEmpty

/-- The imports of a stretch of lines, in normal form. -/
def extract (lines : List Text) (r : LineRange) : List Text := imports (r.select lines)

end Block

/-!
## Spans given as machine words

Callers outside the library address lines by two signed 64-bit words, a start and a length, whose
sum wraps around. `Span` is such a pair; each operation on it says what happens when it does not
fit the lines. The lines lie in memory, of which more may belong to them than they fill. What stands
there is not one of the lines, but a span may reach it.
-/

/-- Lines in memory, and what stands behind them in the memory that belongs to them. -/
structure Slice where
  lines : List Text
  spare : List Text
  deriving DecidableEq

/-- Lines that fill their memory. -/
instance : Coe (List Text) Slice := ⟨fun lines => ⟨lines, []⟩⟩

namespace Slice

def memory (l : Slice) : List Text := l.lines ++ l.spare

/-- The number of lines that there is memory for. -/
def capacity (l : Slice) : Nat := l.lines.length + l.spare.length

end Slice

/-- A start and a length as signed 64-bit words. -/
structure Span where
  start : Int64
  length : Int64
  deriving DecidableEq

namespace Span

def stop (s : Span) : Int64 := s.start + s.length

def isEmpty (s : Span) : Bool := s.length == 0

/-- The word as an index of `n` lines, `n` itself included. -/
def index? (n : Nat) (w : Int64) : Option Nat :=
  if 0 ≤ w.toInt ∧ w.toInt ≤ n then some w.toInt.toNat else none

/-- The word moved into the range from 0 to `n`. -/
def clamp (n : Nat) (w : Int64) : Nat := min w.toInt.toNat n

/-- The lines of the span, if both ends lie in the memory of the lines and in order. -/
def select? (s : Span) (l : Slice) : Option (List Text) := do
  let first ← index? l.capacity s.start
  let last ← index? l.capacity s.stop
  if first ≤ last then some ((l.memory.drop first).take (last - first)) else none

/-- The imports of a span of lines, in normal form. -/
def extract? (s : Span) (l : Slice) : Option (List Text) := (s.select? l).map Block.imports

/-- Room for the lines after a replacement, as a signed word that wraps around. -/
def room (s : Span) (l : Slice) (new : List Text) : Int64 :=
  Int64.ofNat l.lines.length - s.length + Int64.ofNat new.length

/-- Put new lines between what stands before the start and the lines from the end on. What stands
before the start is taken from the memory of the lines, so the start may lie behind the last of
them, but the end may not. The two ends may be in either order, so that lines between them can be
repeated. -/
def splice? (s : Span) (l : Slice) (new : List Text) : Option (List Text) :=
  if s.room l new < 0 then none
  else do
    let first ← index? l.capacity s.start
    let last ← index? l.lines.length s.stop
    some (l.memory.take first ++ new ++ l.lines.drop last)

end Span

end ImportBlock
