import ImportBlock.Yaml.Cursor
import ImportBlock.Yaml.Token

/-!
# From characters to tokens

Tokens are found one after the other. That a token starts a key is known only when its colon comes;
until then it is a candidate, and the tokens for the key and for the mapping that it starts are put
in front of it later.

A reader of tokens takes a token only after two more have been found, and a candidate only after it
has turned out to be a key or not. So a mistake in the document hides the last tokens before it, and
mistakes behind the part that is read do no harm. One kind of candidate is not waited for: a bracket
whose pair is complete, with no candidate in it. If a colon comes after the reader has taken it, the
tokens for the key are too late to go in front of it, and follow the tokens found so far.
-/

namespace ImportBlock.Yaml

/-- A token that starts a key if a colon follows. -/
structure Candidate where
  /-- The number of tokens before it. -/
  position : Nat
  /-- The place of the token. -/
  index : Nat
  line : Nat
  column : Nat
  /-- Must it be a key? So it is at the indentation of a mapping. -/
  required : Bool
  /-- Does a reader wait until it is known whether it is a key? -/
  isAwaited : Bool
  deriving DecidableEq, Repr

/-- What is known of a pair of brackets around the cursor, or of what is around them all. -/
structure Level where
  candidate : Option Candidate
  /-- The position of the last candidate here; before the first one, that of the opening bracket. -/
  latest : Nat
  deriving DecidableEq, Repr

/-- The level with its candidate no longer awaited, if it stands at the position. -/
def Level.release (position : Nat) (l : Level) : Level :=
  { l with
    candidate := l.candidate.map fun k =>
      if k.position == position then { k with isAwaited := false } else k }

/-- What is known while tokens are found. -/
structure Scan where
  cursor : Cursor
  /-- The tokens found so far, the last one first. -/
  tokens : List Token
  /-- The number of tokens found so far. -/
  count : Nat
  /-- The number of tokens that the reader has taken. -/
  taken : Nat
  /-- The pairs of brackets around the cursor and what is around them all, the innermost first. -/
  levels : List Level
  /-- The number of levels. -/
  depth : Nat
  /-- The indentations of the block collections around the cursor, the innermost first. -/
  indents : List Nat
  /-- May the next token start a key? -/
  keyAllowed : Bool
  /-- How far a byte order mark at the start reaches. Each line that starts so far loses its first
  character. -/
  markReach : Nat
  /-- Does something that cannot be read follow the characters? -/
  isBroken : Bool
  deriving DecidableEq, Repr

namespace Scan

def start (s : Stream) : Scan :=
  ⟨.start s.characters, [], 0, 0, [⟨none, 0⟩], 1, [], true, s.markReach, s.isBroken⟩

def inFlow (s : Scan) : Bool := !(s.levels.drop 1).isEmpty

def maxDepth : Nat := 10000

/-- The scan with a token added, and the cursor behind it. -/
def add (s : Scan) (t : Token) (c : Cursor) : Scan :=
  { s with tokens := t :: s.tokens, count := s.count + 1, cursor := c }

/-- The scan with a token put behind the first `position` tokens, or behind all if the reader has
taken more than these. -/
def insertAt (s : Scan) (position : Nat) (t : Token) : Scan :=
  let later := if position < s.taken then 0 else s.count - position
  { s with tokens := s.tokens.take later ++ t :: s.tokens.drop later, count := s.count + 1 }

/-! ## Candidates -/

/-- The greatest distance of a colon from the start of its key. -/
def keyLimit : Nat := 1024

/-- May the candidate still be a key? Its colon stands on the same line, and not too far away. -/
def isOpen (s : Scan) (k : Candidate) : Bool :=
  k.line == s.cursor.line && s.cursor.index ≤ k.index + keyLimit

/-- Give up the candidate within the present brackets. One that must be a key cannot be given up. -/
def dropCandidate? (s : Scan) : Option Scan :=
  match s.levels with
  | ⟨some k, latest⟩ :: outer =>
    if k.required then none else some { s with levels := ⟨none, latest⟩ :: outer }
  | _ => some s

/-- Make the next token a candidate, if it may start a key. -/
def offerCandidate? (s : Scan) : Option Scan :=
  if !s.keyAllowed then some s
  else
    let required := !s.inFlow && s.indents.head? == some s.cursor.column
    let k : Candidate :=
      ⟨s.count, s.cursor.index, s.cursor.line, s.cursor.column, required, true⟩
    s.dropCandidate?.map fun s => { s with levels := ⟨some k, s.count⟩ :: s.levels.drop 1 }

/-! ## Indentation -/

/-- Is a column further right than all block collections around? -/
def isDeeper (s : Scan) (column : Nat) : Bool :=
  match s.indents with
  | [] => true
  | indent :: _ => indent < column

/-- Start a block collection at a column that is further right than those around it, with a token
behind the first `position` tokens. -/
def indent? (s : Scan) (column position : Nat) (t : Token) : Option Scan :=
  if s.inFlow || !s.isDeeper column then some s
  else if maxDepth ≤ s.indents.length then none
  else some ({ s with indents := column :: s.indents }.insertAt position t)

/-- End the block collections that do not reach a column; without a column end all. -/
def dedent (s : Scan) (column : Option Nat) : Scan :=
  if s.inFlow then s
  else
    let ended := s.indents.takeWhile fun indent => column.all fun c => c < indent
    { s with
      indents := s.indents.drop ended.length
      tokens := ended.map (fun _ => .blockEnd) ++ s.tokens
      count := s.count + ended.length }

/-! ## Comments and gaps -/

def lineEnd (c : Cursor) : Cursor := c.skipWhile fun n => !isBreakOrEnd n

/-- How far a comment is looked for behind another one. -/
def commentReach : Nat := 512

/-- The number of characters up to the next comment, if only blanks and line breaks stand before it.
The first character is the line break of the comment before. -/
def nextComment? (c : Cursor) : Option Nat :=
  let gap := ((c.rest.drop 1).takeWhile fun n => isBlank n || n == 10 || n == 13).length
  if (c.peek == 10 || c.peek == 13) && gap + 1 < commentReach && c.peekAt (gap + 1) == 35 then
    some (gap + 1)
  else none

/-- The place with at least `index` characters before it, at most `fuel` characters further on. -/
def advance (index : Nat) : Nat → Cursor → Cursor
  | 0, c => c
  | fuel + 1, c =>
    if index ≤ c.index then c
    else advance index fuel (if isBreak c.peek then c.nextLine else c.skip 1)

/-- The end of a comment and of the comments on lines of their own after it. -/
def skipComments : Nat → Cursor → Cursor
  | 0, c => c
  | fuel + 1, c =>
    let c := lineEnd c
    match nextComment? c with
    | some n => skipComments fuel (advance (c.index + n) n c)
    | none => c

/-- The place behind blanks, comments and line breaks. Tabs are blanks only where no key may start.
The flag tells whether a key may start there. -/
def skipGap (inFlow : Bool) (markReach : Nat) : Nat → Bool → Cursor → Bool × Cursor
  | 0, allowed, c => (allowed, c)
  | fuel + 1, allowed, c =>
    let c := if c.column == 0 && c.index < markReach && !c.rest.isEmpty then c.skip 1 else c
    let c := c.skipWhile fun n => n == 32 || ((inFlow || !allowed) && n == 9)
    let c := if c.peek == 35 then skipComments c.rest.length c else c
    if isBreak c.peek then skipGap inFlow markReach fuel (allowed || !inFlow) c.nextLine
    else (allowed, c)

/-- The place behind a comment on the same line. -/
def skipLineComment (c : Cursor) : Cursor :=
  let blanks := (c.rest.takeWhile isBlank).length
  if blanks < commentReach && c.peekAt blanks == 35 then lineEnd c else c

/-! ## Tokens -/

/-- A token that may start a key, and behind which no key may start. -/
def addNode? (s : Scan) (read : Cursor → Option (Token × Cursor)) : Option Scan :=
  match s.offerCandidate? with
  | none => none
  | some s => (read s.cursor).map fun r => { s with keyAllowed := false }.add r.1 r.2

/-- A bracket or brace that opens. -/
def openFlow? (s : Scan) (t : Token) : Option Scan :=
  if maxDepth < s.depth then none
  else
    s.offerCandidate?.map fun s =>
      let inner : Level := ⟨none, s.count⟩
      { s with levels := inner :: s.levels, depth := s.depth + 1, keyAllowed := true }.add t
        (s.cursor.skip 1)

/-- The levels without the innermost one. The bracket that opened it is no longer awaited, if there
was no candidate behind it. -/
def closeLevel : List Level → List Level
  | inner :: outer :: rest => outer.release inner.latest :: rest
  | levels => levels

/-- A bracket or brace that closes. -/
def closeFlow? (s : Scan) (t : Token) : Option Scan :=
  s.dropCandidate?.map fun s =>
    let depth := if s.inFlow then s.depth - 1 else s.depth
    { s with levels := closeLevel s.levels, depth, keyAllowed := false }.add t (s.cursor.skip 1)

def comma? (s : Scan) : Option Scan :=
  s.dropCandidate?.map fun s => { s with keyAllowed := true }.add .comma (s.cursor.skip 1)

/-- A dash or a question mark. Outside of brackets it stands where a key may start, and may start a
collection. -/
def indicator? (s : Scan) (first t : Token) (allowedAfter : Bool) : Option Scan :=
  if !s.inFlow && !s.keyAllowed then none
  else
    match s.indent? s.cursor.column s.count first with
    | none => none
    | some s =>
      s.dropCandidate?.map fun s =>
        { s with keyAllowed := allowedAfter }.add t (s.cursor.skip 1)

/-- A colon. The candidate within the present brackets becomes a key; without one, the colon stands
where a key may start, or within brackets. -/
def colon? (s : Scan) : Option Scan :=
  match s.levels with
  | ⟨some k, latest⟩ :: outer =>
    let after := { s with levels := ⟨none, latest⟩ :: outer }
    if s.isOpen k then
      let s := { after with keyAllowed := false }.insertAt k.position .key
      (s.indent? k.column k.position .blockMapStart).map fun s => s.add .value (s.cursor.skip 1)
    else if k.required then none
    else bare after
  | _ => bare s
where
  /-- A colon without a candidate. -/
  bare (s : Scan) : Option Scan :=
    if !s.inFlow && !s.keyAllowed then none
    else
      (s.indent? s.cursor.column s.count .blockMapStart).map fun s =>
        { s with keyAllowed := !s.inFlow }.add .value (s.cursor.skip 1)

/-- A directive or a mark between documents. It ends all block collections. -/
def documentToken? (s : Scan) (read : Cursor → Option (Token × Cursor)) : Option Scan :=
  match (s.dedent none).dropCandidate? with
  | none => none
  | some s => (read s.cursor).map fun r => { s with keyAllowed := false }.add r.1 r.2

def streamEnd? (s : Scan) : Option Scan :=
  if s.isBroken then none
  else
    let c := s.cursor
    let line := if c.column == 0 then c.line else c.line + 1
    let s := { s with cursor := { c with line, column := 0 } }.dedent none
    s.dropCandidate?.map fun s => { s with keyAllowed := false }.add .streamEnd s.cursor

/-- A block scalar. A key may start behind it. -/
def blockScalar? (s : Scan) (folded : Bool) : Option Scan :=
  match s.dropCandidate? with
  | none => none
  | some s =>
    let least :=
      match s.indents with
      | [] => 0
      | n :: _ => n + 1
    (Block.read folded (s.indents.headD 0) least s.cursor).map fun r =>
      { s with keyAllowed := true }.add (.scalar .block (textOf r.1)) r.2

/-- A scalar without quotes. If it ends with its line, a key may start behind it. -/
def plainScalar? (s : Scan) : Option Scan :=
  match s.offerCandidate? with
  | none => none
  | some s =>
    let least :=
      match s.indents with
      | [] => 0
      | n :: _ => n + 1
    (Plain.read s.inFlow least s.cursor).map fun r =>
      { s with keyAllowed := r.endsLine }.add (.scalar .plain (textOf r.text)) r.cursor

/-- The scalar between quotes here. -/
def quoted? (q : Quoted.Quote) (c : Cursor) : Option (Token × Cursor) :=
  (Quoted.read q c).map fun r => (.scalar .quoted (textOf r.1), r.2)

/-- May a scalar without quotes start here? -/
def startsPlain (s : Scan) : Bool :=
  let n := s.cursor.peek
  let next := s.cursor.peekAt 1
  !(isGap n || isAmong "-?:,[]\x7b\x7d#&*!|>'\"%@\x60" n)
    || (n == 45 && !isBlank next)
    || (!s.inFlow && (n == 63 || n == 58) && !isGap next)

/-- The scan with the token here, which is not one between documents. -/
def token? (s : Scan) : Option Scan :=
  let n := s.cursor.peek
  let next := s.cursor.peekAt 1
  if n == 91 then s.openFlow? .listStart
  else if n == 123 then s.openFlow? .mapStart
  else if n == 93 then s.closeFlow? .listEnd
  else if n == 125 then s.closeFlow? .mapEnd
  else if n == 44 then s.comma?
  else if n == 45 && isGap next then s.indicator? .blockListStart .item true
  else if n == 63 && (s.inFlow || isGap next) then
    s.indicator? .blockMapStart .key (!s.inFlow)
  else if n == 58 && (s.inFlow || isGap next) then s.colon?
  else if n == 42 then s.addNode? fun c => (Mark.anchorName? c).map fun r => (.reference r.1, r.2)
  else if n == 38 then s.addNode? fun c => (Mark.anchorName? c).map fun r => (.anchor r.1, r.2)
  else if n == 33 then s.addNode? Mark.tag?
  else if (n == 124 || n == 62) && !s.inFlow then s.blockScalar? (n == 62)
  else if n == 39 then s.addNode? (quoted? .single)
  else if n == 34 then s.addNode? (quoted? .double)
  else if s.startsPlain then s.plainScalar?
  else none

/-- May the last token have a comment of its own behind it? A dash has none, and neither has a
scalar that ends with its line. -/
def hasLineComment (s : Scan) : Bool :=
  match s.tokens with
  | .item :: _ => false
  | .scalar .block _ :: _ => false
  | .scalar .plain _ :: _ => !s.keyAllowed
  | _ => true

/-- The scan with one more token, behind at most `fuel` lines. -/
def next? (fuel : Nat) (s : Scan) : Option Scan :=
  let (allowed, c) := skipGap s.inFlow s.markReach fuel s.keyAllowed s.cursor
  let s := { s with cursor := c, keyAllowed := allowed }.dedent (some c.column)
  if s.isBroken && c.rest.length < 4 then none
  else if c.rest.isEmpty then s.streamEnd?
  else if c.column == 0 && c.peek == 37 then s.documentToken? Mark.directive?
  else if c.isMark 45 then s.documentToken? fun c => some (.documentStart, c.skip 3)
  else if c.isMark 46 then s.documentToken? fun c => some (.documentEnd, c.skip 3)
  else
    match s.token? with
    | none => none
    | some after =>
      let after :=
        if after.hasLineComment then { after with cursor := skipLineComment after.cursor }
        else after
      if after.isBroken && after.cursor.rest.isEmpty then none else some after

/-- The least of a number and the positions of the candidates that a reader has to wait for. Around
a candidate that cannot be a key any more, there are only such. -/
def firstAwaited (s : Scan) (n : Nat) : List Level → Nat
  | [] => n
  | l :: outer =>
    match l.candidate with
    | none => firstAwaited s n outer
    | some k =>
      if s.isOpen k then firstAwaited s (if k.isAwaited then min n k.position else n) outer else n

/-- The scan after the reader has taken all tokens that it may take. -/
def take (s : Scan) : Scan :=
  { s with taken := max s.taken (s.firstAwaited (s.count - 2) s.levels) }

/-- The tokens that a reader gets to see, if at most `fuel` more can be found, and as many lines are
left. All are seen if the end of the stream is one of them. -/
def tokensFrom : Nat → Scan → List Token
  | 0, s => s.tokens.reverse.take s.taken
  | fuel + 1, s =>
    match s.next? (fuel + 1) with
    | none => s.tokens.reverse.take s.taken
    | some s =>
      if s.tokens.head? == some .streamEnd then s.tokens.reverse else tokensFrom fuel s.take

end Scan

/-- The tokens of a document, as far as a reader gets to see them. -/
def tokens (s : Stream) : List Token :=
  (Scan.start s).tokensFrom (s.characters.length + 1)

end ImportBlock.Yaml
