/-!
# Byte strings

File contents, names, settings and messages are byte strings: nothing promises that they are
valid UTF-8, and every comparison is a comparison of bytes.
-/

namespace ImportBlock

/-- A byte string. -/
abbrev Text := List UInt8

namespace Text

/-- The UTF-8 bytes of a string. -/
def ofString (s : String) : Text := s.toUTF8.data.toList

instance : Coe String Text := ⟨ofString⟩

def startsWith (t p : Text) : Bool := p.isPrefixOf t

def endsWith (t p : Text) : Bool := p.isSuffixOf t

/-- The text without `p` in front, and the text itself when it does not start with `p`. -/
def dropStart (t p : Text) : Text := if t.startsWith p then t.drop p.length else t

/-- The text without `p` at its end, and the text itself when it does not end with `p`. -/
def dropEnd (t p : Text) : Text :=
  if t.endsWith p then t.take (t.length - p.length) else t

/-- Does `p` occur somewhere in `t`? -/
def hasPart (t p : Text) : Bool :=
  match t with
  | [] => p.isEmpty
  | b :: rest => p.isPrefixOf (b :: rest) || hasPart rest p

/-- The pieces of a text between the occurrences of one byte. There is always at least one. -/
def splitAt (sep : UInt8) : Text → List Text
  | [] => [[]]
  | b :: rest =>
    if b = sep then [] :: splitAt sep rest
    else
      match splitAt sep rest with
      | piece :: pieces => (b :: piece) :: pieces
      | [] => [[b]]

/-- The texts one after the other with `sep` in between. -/
def join (sep : Text) (ts : List Text) : Text := List.intercalate sep ts

/-- Cut at the first occurrence of a byte: what stands before and, if it occurs, after it. -/
def cutAt (sep : UInt8) : Text → Text × Option Text
  | [] => ([], none)
  | b :: rest =>
    if b = sep then ([], some rest)
    else
      match cutAt sep rest with
      | (before, after) => (b :: before, after)

def isDigit (b : UInt8) : Bool := 48 ≤ b && b ≤ 57

/-- The byte, as a capital if it is a small ASCII letter. -/
def capital (b : UInt8) : UInt8 := if 97 ≤ b && b ≤ 122 then b - 32 else b

/-- The value of the digits, read in base ten. -/
def digitsValue (t : Text) : Nat := t.foldl (fun n b => n * 10 + (b.toNat - 48)) 0

def ofNat (n : Nat) : Text := (Nat.toDigits 10 n).map fun c => UInt8.ofNat c.toNat

/-- A signed number in decimal, with `-` in front when it is negative. -/
def ofInt : Int → Text
  | .ofNat n => ofNat n
  | .negSucc n => 45 :: ofNat (n + 1)

/-- Which letters hexadecimal digits are written with. -/
inductive HexCase
  | lower
  | upper
  deriving DecidableEq, Repr

def hexDigit (c : HexCase) (n : Nat) : UInt8 :=
  if n < 10 then UInt8.ofNat (48 + n)
  else
    match c with
    | .lower => UInt8.ofNat (87 + n)
    | .upper => UInt8.ofNat (55 + n)

/-- The lowest `width` hexadecimal digits of `n`, the most significant first. -/
def hex (c : HexCase) : Nat → Nat → Text
  | 0, _ => []
  | width + 1, n => hex c width (n / 16) ++ [hexDigit c (n % 16)]

def hexValue? (b : UInt8) : Option Nat :=
  if 48 ≤ b && b ≤ 57 then some (b.toNat - 48)
  else if 97 ≤ b && b ≤ 102 then some (b.toNat - 87)
  else if 65 ≤ b && b ≤ 70 then some (b.toNat - 55)
  else none

end Text

end ImportBlock

/-!
## The bytewise order and sorting

Texts are compared byte by byte, a text before its own continuations. `sort` puts a list of texts
in ascending order and keeps every occurrence.
-/

namespace ImportBlock.Text

/-- The bytewise order: the first text comes no later than the second. -/
def le : Text → Text → Bool
  | [], _ => true
  | _ :: _, [] => false
  | a :: s, b :: t => a < b || (a == b && le s t)

/-- Put a text in front of the first one that is not smaller. -/
def insertSorted (t : Text) : List Text → List Text
  | [] => [t]
  | u :: us => if le t u then t :: u :: us else u :: insertSorted t us

/-- The texts in ascending order, each as often as it occurs. -/
def sort : List Text → List Text
  | [] => []
  | t :: ts => insertSorted t (sort ts)

/-- Insertion adds the one text. -/
theorem insertSorted_perm (t : Text) (us : List Text) : (insertSorted t us).Perm (t :: us) := by
  induction us with
  | nil => exact .refl _
  | cons u us ih =>
    rw [insertSorted]
    split
    · exact .refl _
    · exact (ih.cons u).trans (.swap t u us)

/-- Sorting drops, adds and merges nothing. -/
theorem sort_perm (ts : List Text) : (sort ts).Perm ts := by
  induction ts with
  | nil => exact .refl _
  | cons t ts ih => exact (insertSorted_perm t (sort ts)).trans (ih.cons t)

end ImportBlock.Text
