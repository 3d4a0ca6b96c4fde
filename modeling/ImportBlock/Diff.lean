import ImportBlock.Text.Basic

/-!
# Diffs

The diff between two texts comes from an edit script between their lines, which is searched for
from both ends, tidied, and shown with some unchanged lines around each change.
-/

/-!
## Edit scripts

An edit script between two sequences is a list of chunks. The items of the kept and removed chunks
spell the first sequence, those of the kept and added chunks the second.
-/

namespace ImportBlock

/-- What happens to items on the way from the first sequence to the second. -/
inductive Change
  | keep
  | remove
  | add
  deriving DecidableEq, Repr

/-- Items that the same happens to. -/
structure Chunk (α : Type) where
  change : Change
  items : List α
  deriving DecidableEq, Repr

namespace Chunk

variable {α : Type}

/-- The items of the first sequence in a script. -/
def first (cs : List (Chunk α)) : List α :=
  cs.flatMap fun c => if c.change = .add then [] else c.items

/-- The items of the second sequence in a script. -/
def second (cs : List (Chunk α)) : List α :=
  cs.flatMap fun c => if c.change = .remove then [] else c.items

/-- A script that keeps items; it has no chunk when there are none. -/
def kept (items : List α) : List (Chunk α) := if items.isEmpty then [] else [⟨.keep, items⟩]

variable [DecidableEq α]

/-- The longest common start of two lists, and what follows it in each. -/
def sharedStart : List α → List α → List α × List α × List α
  | x :: xs, y :: ys =>
    if x = y then
      match sharedStart xs ys with
      | (common, restX, restY) => (x :: common, restX, restY)
    else ([], x :: xs, y :: ys)
  | xs, ys => ([], xs, ys)

/-- The longest common end of two lists, and what precedes it in each. -/
def sharedEnd (xs ys : List α) : List α × List α × List α :=
  match sharedStart xs.reverse ys.reverse with
  | (common, restX, restY) => (common.reverse, restX.reverse, restY.reverse)

end Chunk

end ImportBlock

/-!
## Tidying edit scripts

Neighbouring edits are merged into one removal and one addition, what both have in common moves
into the kept chunks around them, and a single edit between two kept chunks slides over one of
them when the result is the same.
-/

namespace ImportBlock.Chunk

variable {α : Type} [DecidableEq α]

/-- The edits met since the last kept chunk. -/
structure Pending (α : Type) where
  removals : Nat
  additions : Nat
  removed : List α
  added : List α

def Pending.none : Pending α := ⟨0, 0, [], []⟩

/-- The chunks for the pending edits, the last one first. -/
def Pending.chunks (p : Pending α) : List (Chunk α) :=
  (if p.additions = 0 then [] else [⟨.add, p.added⟩])
    ++ (if p.removals = 0 then [] else [⟨.remove, p.removed⟩])

/-- Add kept items after a script that is given last chunk first. -/
def keepAfter (out : List (Chunk α)) (items : List α) : List (Chunk α) :=
  match out with
  | ⟨.keep, before⟩ :: older => ⟨.keep, before ++ items⟩ :: older
  | _ => ⟨.keep, items⟩ :: out

/-- End a run of edits at a kept chunk. If the run has both removals and additions, their common
start goes to the kept chunk before them and their common end to the one after them. -/
def settle (out : List (Chunk α)) (p : Pending α) (items : List α) : List (Chunk α) :=
  if p.removals + p.additions ≤ 1 then
    match p.chunks with
    | [] => keepAfter out items
    | cs => ⟨.keep, items⟩ :: (cs ++ out)
  else if p.removals = 0 ∨ p.additions = 0 then ⟨.keep, items⟩ :: (p.chunks ++ out)
  else
    match sharedStart p.added p.removed with
    | (start, added, removed) =>
      match sharedEnd added removed with
      | (stop, added, removed) =>
        let out := if start.isEmpty then out else keepAfter out start
        ⟨.keep, stop ++ items⟩ :: ({ p with removed, added }.chunks ++ out)

/-- Merge the edits between kept chunks. `out` holds the finished chunks, the last one first. -/
def mergeRuns (out : List (Chunk α)) (p : Pending α) : List (Chunk α) → List (Chunk α)
  | [] => settle out p []
  | ⟨.add, items⟩ :: cs =>
    mergeRuns out { p with additions := p.additions + 1, added := p.added ++ items } cs
  | ⟨.remove, items⟩ :: cs =>
    mergeRuns out { p with removals := p.removals + 1, removed := p.removed ++ items } cs
  | ⟨.keep, items⟩ :: cs => mergeRuns (settle out p items) .none cs

/-- The finished chunks in order, without an empty last one. -/
def finish : List (Chunk α) → List (Chunk α)
  | c :: cs => if c.items.isEmpty then cs.reverse else (c :: cs).reverse
  | [] => []

/-- Slide single edits over kept chunks. `before` holds the chunks passed, the last one first.
The second part says whether anything moved. -/
def slide (before : List (Chunk α)) : List (Chunk α) → List (Chunk α) × Bool
  | edit :: next :: rest =>
    match before, next with
    | ⟨.keep, previous⟩ :: older, ⟨.keep, following⟩ =>
      if previous.isSuffixOf edit.items then
        let moved := previous ++ edit.items.take (edit.items.length - previous.length)
        ((slide (⟨.keep, previous ++ following⟩ :: { edit with items := moved } :: older) rest).1,
          true)
      else if following.isPrefixOf edit.items then
        let moved := edit.items.drop following.length ++ following
        ((slide ({ edit with items := moved } :: ⟨.keep, previous ++ following⟩ :: older) rest).1,
          true)
      else slide (edit :: before) (next :: rest)
    | _, _ => slide (edit :: before) (next :: rest)
  | rest => (before.reverse ++ rest, false)

/-- One round of merging and sliding. -/
def tidyOnce (cs : List (Chunk α)) : List (Chunk α) × Bool :=
  match finish (mergeRuns [] .none cs) with
  | [] => ([], false)
  | c :: cs => slide [c] cs

/-- Rounds of merging and sliding, until nothing moves or the rounds are used up. -/
def tidyRounds : Nat → List (Chunk α) → List (Chunk α)
  | 0, cs => cs
  | rounds + 1, cs =>
    match tidyOnce cs with
    | (cs, true) => tidyRounds rounds cs
    | (cs, false) => cs

/-- A script with its edits merged and slid. Each round in which something moves leaves one kept
chunk less, so that the rounds suffice. -/
def tidy (cs : List (Chunk α)) : List (Chunk α) :=
  tidyRounds (2 * cs.length + (cs.flatMap fun c => c.items).length + 2) cs

/-!
## The middle of two sequences

Where two sequences are cut in two so that the halves can be compared one by one: the point in
which shortest edit paths from both ends meet. Any cut is a correct one; this one makes the
scripts short.
-/

variable {α : Type} [DecidableEq α]

/-- How far two sequences agree from the given positions on, or, backward, from as many items
before their ends. -/
def advance (a b : Array α) (backward : Bool) : Nat → Nat → Nat → Nat × Nat
  | 0, x, y => (x, y)
  | steps + 1, x, y =>
    if x < a.size ∧ y < b.size then
      let i := if backward then a.size - x - 1 else x
      let j := if backward then b.size - y - 1 else y
      if a[i]? = b[j]? then advance a b backward steps (x + 1) (y + 1) else (x, y)
    else (x, y)

/-- The furthest reaching points of one direction, by diagonal, with the diagonals that left the
sequences at either side. -/
structure Frontier where
  reach : Array Int
  skipLow : Int
  skipHigh : Int

/-- The entry of a diagonal, `-1` where none was reached. -/
def Frontier.get (f : Frontier) (i : Int) : Int :=
  if i < 0 then -1 else f.reach.getD i.toNat (-1)

def Frontier.set (f : Frontier) (i x : Int) : Frontier :=
  { f with reach := f.reach.setIfInBounds i.toNat x }

/-- The start of a search with `bound` edits at most. -/
def Frontier.start (bound : Nat) : Frontier :=
  Frontier.set ⟨Array.replicate (2 * bound) (-1), 0, 0⟩ (bound + 1) 0

/-- The diagonals `k` of one round, two apart. A meeting point ends the search; otherwise the
frontier is extended on each diagonal in turn. -/
def sweep (a b : Array α) (bound : Nat) (backward : Bool) (d : Nat) (other : Frontier) :
    Nat → Int → Frontier → Except (Nat × Nat) Frontier
  | 0, _, f => .ok f
  | turns + 1, k, f =>
    if k > d - f.skipHigh then .ok f
    else
      let o : Int := bound + k
      let x0 : Int :=
        if k = -(d : Int) ∨ (k ≠ d ∧ f.get (o - 1) < f.get (o + 1)) then f.get (o + 1)
        else f.get (o - 1) + 1
      match advance a b backward a.size x0.toNat (x0 - k).toNat with
      | (x, y) =>
        let f := f.set o x
        let delta : Int := a.size - b.size
        let q := bound + delta - k
        if x > a.size then
          sweep a b bound backward d other turns (k + 2) { f with skipHigh := f.skipHigh + 2 }
        else if y > b.size then
          sweep a b bound backward d other turns (k + 2) { f with skipLow := f.skipLow + 2 }
        else if decide (delta % 2 ≠ 0) = !backward ∧ 0 ≤ q ∧ q < 2 * bound ∧ other.get q ≠ -1
            ∧ (a.size : Int) - other.get q ≤ x then
          if backward then .error ((other.get q).toNat, (bound + other.get q - q).toNat)
          else .error (x, y)
        else sweep a b bound backward d other turns (k + 2) f

/-- Rounds of the search with `d` edits from each end. -/
def search (a b : Array α) (bound : Nat) : Nat → Nat → Frontier → Frontier → Option (Nat × Nat)
  | 0, _, _, _ => none
  | rounds + 1, d, front, back =>
    match sweep a b bound false d back (d + 1) (-(d : Int) + front.skipLow) front with
    | .error p => some p
    | .ok front =>
      match sweep a b bound true d front (d + 1) (-(d : Int) + back.skipLow) back with
      | .error p => some p
      | .ok back => search a b bound rounds (d + 1) front back

/-- Where shortest edit paths from both ends meet. -/
def middle? (a b : List α) : Option (Nat × Nat) :=
  let bound := (a.length + b.length + 1) / 2
  search a.toArray b.toArray bound bound 0 (.start bound) (.start bound)

/-!
## Comparing two sequences

`script a b` is an edit script from `a` to `b`. Common items at both ends are kept first; the rest
is cut in two, at a long common stretch if there is one, else where shortest edit paths meet.
-/

variable {α : Type} [DecidableEq α]

/-- The first index from which on `part` occurs in a list. -/
def indexOf? (part : List α) : List α → Option Nat
  | [] => if part.isEmpty then some 0 else none
  | x :: xs =>
    if part.isPrefixOf (x :: xs) then some 0 else (indexOf? part xs).map (· + 1)

/-- All indices from which on `part` occurs in a list, in ascending order. -/
def indicesOf (part : List α) (xs : List α) : List Nat :=
  (List.range (xs.length + 1)).filter fun i => part.isPrefixOf (xs.drop i)

/-- Two sequences cut around a common stretch. -/
structure Cut (α : Type) where
  /-- What precedes the stretch in each sequence. -/
  left : List α × List α
  common : List α
  /-- What follows the stretch in each sequence. -/
  right : List α × List α

def Cut.swap (c : Cut α) : Cut α := ⟨c.left.swap, c.common, c.right.swap⟩

/-- The common stretch around position `i` of one sequence and `j` of the other. -/
def cutAround (long short : List α) (i j : Nat) : Cut α :=
  match sharedStart (long.drop i) (short.drop j), sharedEnd (long.take i) (short.take j) with
  | (after, longRight, shortRight), (before, longLeft, shortLeft) =>
    ⟨(longLeft, shortLeft), before ++ after, (longRight, shortRight)⟩

/-- The first of the longest common stretches around a quarter of the longer sequence that starts
at `i`, if it is at least half as long as that sequence. -/
def seededCut? (long short : List α) (i : Nat) : Option (Cut α) :=
  let seed := (long.drop i).take (long.length / 4)
  let best := (indicesOf seed short).foldl
    (fun best j =>
      let c := cutAround long short i j
      if best.common.length < c.common.length then c else best)
    (⟨(long, short), [], ([], [])⟩ : Cut α)
  if 2 * best.common.length < long.length then none else some best

/-- A common stretch at least half as long as the longer sequence. -/
def longCut? (long short : List α) : Option (Cut α) :=
  if long.length < 4 ∨ 2 * short.length < long.length then none
  else
    match seededCut? long short ((long.length + 3) / 4),
      seededCut? long short ((long.length + 1) / 2) with
    | some c, some d => some (if d.common.length < c.common.length then c else d)
    | some c, none => some c
    | none, d => d

/-- How two sequences without common items at their ends are compared. -/
inductive Approach (α : Type)
  | done (cs : List (Chunk α))
  | split (c : Cut α)

/-- The script that removes one sequence and adds the other. -/
def exchange (a b : List α) : List (Chunk α) := [⟨.remove, a⟩, ⟨.add, b⟩]

/-- Where the shorter sequence occurs in the longer one, only the rest is an edit. -/
def contained? (a b : List α) : Option (List (Chunk α)) :=
  let around (change : Change) (long short : List α) : Option (List (Chunk α)) :=
    (indexOf? short long).map fun i =>
      [⟨change, long.take i⟩, ⟨.keep, short⟩, ⟨change, long.drop (i + short.length)⟩]
  if b.length < a.length then around .remove a b else around .add b a

/-- Decide how to compare two sequences. -/
def approach (a b : List α) : Approach α :=
  if a.isEmpty then .done [⟨.add, b⟩]
  else if b.isEmpty then .done [⟨.remove, a⟩]
  else
    match contained? a b with
    | some cs => .done cs
    | none =>
      if min a.length b.length = 1 then .done (exchange a b)
      else
        match if b.length < a.length then longCut? a b else (longCut? b a).map Cut.swap with
        | some c => .split c
        | none =>
          match middle? a b with
          | some (x, y) => .split ⟨(a.take x, b.take y), [], (a.drop x, b.drop y)⟩
          | none => .done (exchange a b)

/-- An edit script from one sequence to another. -/
def script (a b : List α) : List (Chunk α) :=
  if a = b then kept a
  else
    match sharedStart a b with
    | (start, a1, b1) =>
      match sharedEnd a1 b1 with
      | (stop, a2, b2) =>
        let inner :=
          match approach a2 b2 with
          | .done cs => cs
          | .split c =>
            if c.left.1.length + c.left.2.length < a.length + b.length
                ∧ c.right.1.length + c.right.2.length < a.length + b.length then
              script c.left.1 c.left.2 ++ kept c.common ++ script c.right.1 c.right.2
            else exchange a2 b2
        tidy (kept start ++ inner ++ kept stop)
  termination_by a.length + b.length

end ImportBlock.Chunk

/-!
## Diffs between texts

A diff shows the lines of two texts that differ, with two unchanged lines around them. Line
terminators are all alike to it, except that a last line without one differs from the same line
with one.
-/

namespace ImportBlock

structure DiffLine where
  change : Change
  text : Text
  deriving DecidableEq, Repr

namespace Diff

def foldEndings : Text → Text
  | [] => []
  | 13 :: 10 :: rest => 10 :: foldEndings rest
  | 13 :: rest => 10 :: foldEndings rest
  | b :: rest => b :: foldEndings rest

/-- A text cut after each line feed. These are the items that are compared. -/
def rows : Text → List Text
  | [] => []
  | b :: rest =>
    if b = 10 then [b] :: rows rest
    else
      match rows rest with
      | row :: more => (b :: row) :: more
      | [] => [[b]]

/-- The lines of a text that has no other terminator than the line feed. -/
def splitLines (t : Text) : List Text :=
  if t.isEmpty then [] else (t.dropEnd [10]).splitAt 10

/-- The lines of a chunk of rows. The rows are put together before they are split into lines. -/
def chunkLines (c : Chunk Text) : List DiffLine :=
  (splitLines c.items.flatten).map fun t => ⟨c.change, t⟩

/-- The line diff between two texts. -/
def lines (before after : Text) : List DiffLine :=
  (Chunk.script (rows (foldEndings before)) (rows (foldEndings after))).flatMap chunkLines

/-- The number of unchanged lines shown around a change. -/
def context : Nat := 2

/-- Is there a change within the context of the line at index `i`? -/
def isShown (ls : List DiffLine) (i : Nat) : Bool :=
  ((ls.take (i + context + 1)).drop (i - context)).any fun l => l.change != .keep

/-! ### Colours -/

/-- How a part of the diff is highlighted. -/
inductive Style
  | header
  | removed
  | added
  | marker
  | plain
  deriving DecidableEq, Repr

/-- The codes of the terminal that switch a style on and off. -/
def Style.codes : Style → Text × Text
  | header => ("1", "22")
  | removed => ("31", "0")
  | added => ("32", "0")
  | marker => ("36", "0")
  | plain => ([], [])

/-- The control sequence with a code. -/
def sequence (code : Text) : Text := 27 :: 91 :: code ++ [109]

/-- A text in a style, which shows only in colour. -/
def paint (color : Bool) (s : Style) (t : Text) : Text :=
  if color && s != .plain then sequence s.codes.1 ++ t ++ sequence s.codes.2 else t

/-! ### The report -/

/-- A line of the diff with the sign in front that tells its change. -/
def signed (color : Bool) (l : DiffLine) : Text :=
  match l.change with
  | .remove => paint color .removed (45 :: l.text)
  | .add => paint color .added (43 :: l.text)
  | .keep => paint color .plain (32 :: l.text)

/-- The lines of the report: a line that is shown, or one marker for each run of others. `inRun`
tells whether the line before was not shown. -/
def bodyLines (color : Bool) (inRun : Bool) : List (DiffLine × Bool) → List Text
  | [] => []
  | (l, true) :: rest => signed color l :: bodyLines color false rest
  | (_, false) :: rest =>
    if inRun then bodyLines color true rest
    else paint color .marker "@@" :: bodyLines color true rest

/-- The body of the report on some diff lines. -/
def body (color : Bool) (ls : List DiffLine) : List Text :=
  bodyLines color false (ls.zipIdx.map fun p => (p.1, isShown ls p.2))

/-- The report on the changes between two texts of a file. -/
def report (color : Bool) (path before after : Text) : Text :=
  (paint color .header ("--- " ++ path) :: paint color .header ("+++ " ++ path)
      :: body color (lines before after)).flatMap fun t => t ++ [10]

end Diff

end ImportBlock
