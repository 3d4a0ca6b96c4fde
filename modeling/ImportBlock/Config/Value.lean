import ImportBlock.Text.Basic
import ImportBlock.Text.Characters

/-!
# Values of a configuration file

A value is null, a truth value, a number, a point in time, a text, a list or named values. Numbers
that are no integers are decimal literals, rounded to double precision.
-/

/-!
## Decimal literals

A decimal literal is a sign, digits with at most one point among them, and an exponent.
-/

namespace ImportBlock

/-- The number `± digits · 10 ^ exponent`. -/
structure Decimal where
  negative : Bool
  digits : Nat
  exponent : Int
  deriving DecidableEq, Repr

namespace Decimal

def takeSign : Text → Bool × Text
  | 43 :: rest => (false, rest)
  | 45 :: rest => (true, rest)
  | t => (false, t)

/-- The leading digits of a text and what follows them. -/
def takeDigits (t : Text) : Text × Text := (t.takeWhile Text.isDigit, t.dropWhile Text.isDigit)

/-- The exponent at the end of a literal: `e`, a sign and digits, or nothing. -/
def parseExponent? : Text → Option Int
  | [] => some 0
  | e :: rest =>
    if e = 101 ∨ e = 69 then
      match takeSign rest with
      | (negative, digits) =>
        if digits.isEmpty || !digits.all Text.isDigit then none
        else
          let n : Int := Text.digitsValue digits
          some (if negative then -n else n)
    else none

/-- Read a literal. There are digits before the point, or a point with digits after it. -/
def parse? (t : Text) : Option Decimal :=
  match takeSign t with
  | (negative, body) =>
    match takeDigits body with
    | (whole, 46 :: rest) =>
      match takeDigits rest with
      | (fraction, tail) =>
        if whole.isEmpty && fraction.isEmpty then none
        else
          (parseExponent? tail).map fun e =>
            ⟨negative, Text.digitsValue (whole ++ fraction), e - fraction.length⟩
    | (whole, tail) =>
      if whole.isEmpty then none
      else (parseExponent? tail).map fun e => ⟨negative, Text.digitsValue whole, e⟩

/-- The number in positional notation, with as many zeros as it takes. -/
def toText (d : Decimal) : Text :=
  let digits := Text.ofNat d.digits
  let body :=
    if 0 ≤ d.exponent then digits ++ List.replicate d.exponent.toNat 48
    else
      let places := (-d.exponent).toNat
      if places < digits.length then
        digits.take (digits.length - places) ++ 46 :: digits.drop (digits.length - places)
      else 48 :: 46 :: List.replicate (places - digits.length) 48 ++ digits
  if d.negative then 45 :: body else body

end Decimal

/-!
## Double precision numbers

Decimal literals are read as the nearest double precision number, ties to the even one, and such a
number is written with the fewest digits that read back to it.
-/

/-- A double precision number; the finite ones are `± mantissa · 2 ^ exponent`. -/
inductive Real64
  | nan
  | infinity (negative : Bool)
  | finite (negative : Bool) (mantissa : Nat) (exponent : Int)
  deriving DecidableEq, Repr

namespace Real64

def leastExponent : Int := -1074

def greatestExponent : Int := 971

/-- The least mantissa of a number that has all 53 bits. -/
def leastNormal : Nat := 0x10000000000000

/-- The quotient rounded to the nearest number, a half to the even one. -/
def roundQuotient (n d : Nat) : Nat :=
  let q := n / d
  let r := n % d
  if d < 2 * r || (d == 2 * r && q % 2 == 1) then q + 1 else q

/-- The fraction `n / d · 2 ^ e`, with the power in the numerator or the denominator. -/
def scale (n d : Nat) (e : Int) : Nat × Nat :=
  if 0 ≤ e then (n * Nat.pow 2 e.toNat, d) else (n, d * Nat.pow 2 (-e).toNat)

/-- The greatest `e` with `2 ^ e ≤ n / d`, for positive `n` and `d`. -/
def floorLog2 (n d : Nat) : Int :=
  let e : Int := n.log2 - d.log2
  let (m, c) := scale n d (-e)
  if m < c then e - 1 else e

/-- The number nearest to `n / d`, `none` if it is too great. -/
def ofRatio? (negative : Bool) (n d : Nat) : Option Real64 :=
  if n = 0 then some (.finite negative 0 leastExponent)
  else
    let e := max (floorLog2 n d - 52) leastExponent
    let (m, c) := scale n d (-e)
    let mantissa := roundQuotient m c
    let (mantissa, e) := if mantissa = 2 * leastNormal then (leastNormal, e + 1) else (mantissa, e)
    if e > greatestExponent then none else some (.finite negative mantissa e)

/-- The number nearest to a decimal, `none` if it is too great. Beyond 400 places from the point
the magnitude alone decides. -/
def ofDecimal? (d : Decimal) : Option Real64 :=
  let places : Int := (Text.ofNat d.digits).length + d.exponent
  if d.digits = 0 ∨ places < -400 then some (.finite d.negative 0 leastExponent)
  else if places > 400 then none
  else if 0 ≤ d.exponent then ofRatio? d.negative (d.digits * Nat.pow 10 d.exponent.toNat) 1
  else ofRatio? d.negative d.digits (Nat.pow 10 (-d.exponent).toNat)

def isNonzero : Real64 → Bool
  | finite _ m _ => m != 0
  | _ => true

/-- The decimals with `10 ^ k` as their unit that read back as `mantissa · 2 ^ exponent`: of its two
neighbours on that grid the one that does, and the nearer one if both do. -/
def onGrid? (mantissa : Nat) (exponent k : Int) : Option Nat :=
  let even := mantissa % 2 == 0
  let below := if mantissa == leastNormal && exponent > leastExponent then 1 else 2
  let unit (n : Nat) : Nat × Nat :=
    let (m, c) := scale n 1 (exponent - 2)
    if 0 ≤ k then (m, c * Nat.pow 10 k.toNat) else (m * Nat.pow 10 (-k).toNat, c)
  let (v, c) := unit (4 * mantissa)
  let (low, _) := unit (4 * mantissa - below)
  let (high, _) := unit (4 * mantissa + 2)
  let inside (n : Nat) : Bool :=
    if even then low ≤ n * c && n * c ≤ high else low < n * c && n * c < high
  let q := v / c
  match inside q, inside (q + 1) with
  | true, true => some (if 2 * (v % c) ≤ c then q else q + 1)
  | true, false => some q
  | false, true => some (q + 1)
  | false, false => none

/-- The coarsest grid from `10 ^ k` on downward that has a decimal which reads back. -/
def shortest (mantissa : Nat) (exponent : Int) : Nat → Int → Nat × Int
  | 0, k => (0, k)
  | steps + 1, k =>
    match onGrid? mantissa exponent k with
    | some n => (n, k)
    | none => shortest mantissa exponent steps (k - 1)

/-- The number with the fewest digits that read back to it, without an exponent. -/
def toText : Real64 → Text
  | nan => "NaN"
  | infinity false => "+Inf"
  | infinity true => "-Inf"
  | finite negative mantissa exponent =>
    if mantissa = 0 then (Decimal.mk negative 0 0).toText
    else
      let (digits, k) := shortest mantissa exponent 800 310
      (Decimal.mk negative digits k).toText

end Real64

/-!
## Values
-/

/-- A value of a configuration file. Points in time are told apart from texts, but nothing asks
which point it is. -/
inductive Value
  | null
  | bool (b : Bool)
  | int (n : Int)
  | float (x : Real64)
  | time
  | text (t : Text)
  | list (items : List Value)
  | map (entries : List (Text × Value))
  deriving Repr, Inhabited

namespace Value

def isNull : Value → Bool
  | null => true
  | _ => false

/-- The value under a lower-case name. Names in a file may be in any case, and of two entries that
differ in case only the one with capitals counts. -/
def entry? (v : Value) (name : Text) : Option Value :=
  match v with
  | map entries =>
    let called := entries.filter fun e => e.1.lower == name
    ((called.find? fun e => e.1 != name).or called.head?).map Prod.snd
  | _ => none

/-- The value under a name, unless it is null. -/
def child? (v : Value) (name : Text) : Option Value := (v.entry? name).filter fun c => !c.isNull

/-- Put a value under a name. A value that was there is replaced. -/
def put (name : Text) (v : Value) (entries : List (Text × Value)) : List (Text × Value) :=
  (entries.filter fun e => e.1 != name) ++ [(name, v)]

/-! ### Conversion

Settings are texts, truth values or lists of texts. A scalar of another kind is converted; `none`
means that there is no conversion.
-/

/-- The value as a text. Null is the empty text. -/
def toText? : Value → Option Text
  | null => some []
  | bool b => some (if b then "1" else "0")
  | int n => some (Text.ofInt n)
  | float x => some x.toText
  | text t => some t
  | time | list _ | map _ => none

/-- The words for truth values. -/
def parseBool? (t : Text) : Option Bool :=
  if ["1", "t", "T", "TRUE", "true", "True"].any fun w => t == Text.ofString w then some true
  else if ["0", "f", "F", "FALSE", "false", "False"].any fun w => t == Text.ofString w then
    some false
  else none

/-- The value as a truth value: a number other than zero, or a word. The empty text is false. -/
def toBool? : Value → Option Bool
  | null => some false
  | bool b => some b
  | int n => some (n != 0)
  | float x => some x.isNonzero
  | text t => if t.isEmpty then some false else parseBool? t
  | time | list _ | map _ => none

/-- The value as a list of texts. A text is cut at its commas, another scalar is a list of one
element, and an empty mapping is an empty list. -/
def toTexts? : Value → Option (List Text)
  | text t => some (if t.isEmpty then [] else t.splitAt 44)
  | list items => items.mapM toText?
  | map [] => some []
  | v => v.toText?.map fun t => [t]

end Value

end ImportBlock
