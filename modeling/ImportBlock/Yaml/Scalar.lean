import ImportBlock.Config.Value
import ImportBlock.Text.Basic

/-!
# What scalars stand for

A scalar without quotes stands for a truth value, a number, a time, nothing, or its text. Bytes that
are no text are written in base 64.
-/

/-!
## Base 64

Three bytes are four digits of six bits; the last group is padded with `=`.
-/

namespace ImportBlock.Base64

def digit (n : Nat) : UInt8 :=
  if n < 26 then UInt8.ofNat (65 + n)
  else if n < 52 then UInt8.ofNat (71 + n)
  else if n < 62 then UInt8.ofNat (n - 4)
  else if n = 62 then 43
  else 47

/-- The six bits of a digit. -/
def value? (b : UInt8) : Option Nat :=
  if 65 ≤ b && b ≤ 90 then some (b.toNat - 65)
  else if 97 ≤ b && b ≤ 122 then some (b.toNat - 71)
  else if 48 ≤ b && b ≤ 57 then some (b.toNat + 4)
  else if b = 43 then some 62
  else if b = 47 then some 63
  else none

/-- The digits of a text. -/
def encode : Text → Text
  | [] => []
  | [a] => [digit (a.toNat / 4), digit (a.toNat % 4 * 16), 61, 61]
  | [a, b] =>
    [digit (a.toNat / 4), digit (a.toNat % 4 * 16 + b.toNat / 16), digit (b.toNat % 16 * 4), 61]
  | a :: b :: c :: rest =>
    digit (a.toNat / 4) :: digit (a.toNat % 4 * 16 + b.toNat / 16) ::
      digit (b.toNat % 16 * 4 + c.toNat / 64) :: digit (c.toNat % 64) :: encode rest

/-- The bytes of digits in groups of four. -/
def groups? : Text → Option Text
  | [] => some []
  | [a, b, 61, 61] => do
    let a ← value? a
    let b ← value? b
    return [UInt8.ofNat (a * 4 + b / 16)]
  | [a, b, c, 61] => do
    let a ← value? a
    let b ← value? b
    let c ← value? c
    return [UInt8.ofNat (a * 4 + b / 16), UInt8.ofNat (b % 16 * 16 + c / 4)]
  | a :: b :: c :: d :: rest => do
    let a ← value? a
    let b ← value? b
    let c ← value? c
    let d ← value? d
    let more ← groups? rest
    return UInt8.ofNat (a * 4 + b / 16) :: UInt8.ofNat (b % 16 * 16 + c / 4) ::
      UInt8.ofNat (c % 4 * 64 + d) :: more
  | _ => none

/-- The text of digits. Line breaks among them mean nothing. -/
def decode? (t : Text) : Option Text := groups? (t.filter fun b => b != 10 && b != 13)

end ImportBlock.Base64

/-!
## Plain scalars

A scalar without quotes is a truth value, null, a number, a point in time or else a text; its
spelling decides. `resolve` is that decision.
-/

namespace ImportBlock.Yaml

def isOneOf (words : List String) (t : Text) : Bool := words.any fun w => t == Text.ofString w

/-! ### Points in time -/

/-- A number of one or two digits, and what follows it. -/
def takeShort? : Text → Option (Nat × Text)
  | a :: b :: rest =>
    if !Text.isDigit a then none
    else if Text.isDigit b then some (Text.digitsValue [a, b], rest)
    else some (Text.digitsValue [a], b :: rest)
  | [a] => if Text.isDigit a then some (Text.digitsValue [a], []) else none
  | [] => none

/-- A number of two digits, and what follows it. -/
def takeTwo? : Text → Option (Nat × Text)
  | a :: b :: rest =>
    if Text.isDigit a && Text.isDigit b then some (Text.digitsValue [a, b], rest) else none
  | _ => none

/-- What follows one given byte. -/
def after? (b : UInt8) : Text → Option Text
  | c :: rest => if c = b then some rest else none
  | [] => none

def isLeapYear (year : Nat) : Bool := year % 4 == 0 && (year % 100 != 0 || year % 400 == 0)

def daysIn (year month : Nat) : Nat :=
  if month = 2 then if isLeapYear year then 29 else 28
  else if month = 4 ∨ month = 6 ∨ month = 9 ∨ month = 11 then 30
  else 31

/-- A date `year-month-day` that exists, and what follows it. The year has four digits. -/
def takeDate? (t : Text) : Option Text := do
  let (year, rest) := Decimal.takeDigits t
  if year.length != 4 then none
  let (month, rest) ← takeShort? (← after? 45 rest)
  let (day, rest) ← takeShort? (← after? 45 rest)
  if 1 ≤ month && month ≤ 12 && 1 ≤ day && day ≤ daysIn (Text.digitsValue year) month then
    some rest
  else none

/-- The fraction of a second, which may be missing, and what follows it. -/
def dropFraction : Text → Text
  | p :: d :: rest =>
    if (p == 46 || p == 44) && Text.isDigit d then rest.dropWhile Text.isDigit
    else p :: d :: rest
  | t => t

/-- A time of day `hour:minute:second`, and what follows it. -/
def takeClock? (t : Text) : Option Text := do
  let (hour, rest) ← takeShort? t
  let (minute, rest) ← takeShort? (← after? 58 rest)
  let (second, rest) ← takeShort? (← after? 58 rest)
  if hour < 24 && minute < 60 && second < 60 then some (dropFraction rest) else none

/-- Is the text a time zone: `Z`, or a sign with hours and minutes? -/
def isZone (t : Text) : Bool :=
  t == [90] ||
    match t with
    | sign :: rest =>
      (sign == 43 || sign == 45) &&
        match takeTwo? rest with
        | some (hours, 58 :: rest) =>
          match takeTwo? rest with
          | some (minutes, []) => hours ≤ 24 && minutes ≤ 60
          | _ => false
        | _ => false
    | [] => false

/-- Is the text a point in time: a date, a date and a time of day after blanks, or a date, `T`, a
time of day and a zone? -/
def isTime (t : Text) : Bool :=
  match takeDate? t with
  | none => false
  | some [] => true
  | some (mark :: rest) =>
    if mark = 84 ∨ mark = 116 then (takeClock? rest).any isZone
    else mark == 32 && (takeClock? (rest.dropWhile (· == 32))).any List.isEmpty

/-! ### Numbers -/

/-- The value of digits in a base, `none` if one is no digit of it or there is none. -/
def digitsIn? (base : Nat) (t : Text) : Option Nat :=
  if t.isEmpty then none
  else t.foldlM (fun n b =>
    match Text.hexValue? b with
    | some d => if d < base then some (n * base + d) else none
    | none => none) 0

/-- The base that a number's first digits announce, and the digits. A zero in front means base
eight. -/
def baseOf : Text → Nat × Text
  | [48] => (10, [48])
  | 48 :: mark :: rest =>
    if rest.isEmpty then (8, [mark])
    else if mark = 98 ∨ mark = 66 then (2, rest)
    else if mark = 111 ∨ mark = 79 then (8, rest)
    else if mark = 120 ∨ mark = 88 then (16, rest)
    else (8, mark :: rest)
  | t => (10, t)

/-- The number of values that a word of 64 bits has for each sign. -/
def halfWord : Nat := 0x8000000000000000

/-- The number that a sign and digits make, if its size is that of a word of 64 bits. Only a number
without a sign may use all bits for its size. -/
def signed? (sign : Option Bool) (n : Nat) : Option Int :=
  match sign with
  | none => if n < 2 * halfWord then some n else none
  | some false => if n < halfWord then some n else none
  | some true => if n ≤ halfWord then some (-n) else none

/-- The sign in front, if there is one, and what follows it. -/
def signOf : Text → Option Bool × Text
  | 43 :: rest => (some false, rest)
  | 45 :: rest => (some true, rest)
  | t => (none, t)

/-- A whole number. After `0b` and `0o` there may be a sign as well. -/
def whole? (t : Text) : Option Int :=
  let (sign, rest) := signOf t
  let (base, digits) := baseOf rest
  match digitsIn? base digits with
  | some n => signed? sign n
  | none =>
    match sign, digits, rest with
    | none, mark :: more, 48 :: kind :: _ =>
      if kind = 98 ∨ kind = 111 then
        match signOf (mark :: more) with
        | (none, _) => none
        | (inner, digits) => (digitsIn? base digits).bind (signed? inner)
      else none
    | _, _, _ => none

/-- A number in decimal notation that is not too great. -/
def decimal? (t : Text) : Option Real64 := (Decimal.parse? t).bind Real64.ofDecimal?

/-- Do underscores stand between digits only? -/
def hasTidyUnderscores : Text → Bool
  | a :: 95 :: b :: rest => Text.isDigit a && Text.isDigit b && hasTidyUnderscores (b :: rest)
  | [_, 95] => false
  | _ :: rest => hasTidyUnderscores rest
  | [] => true

def special? (t : Text) : Option Real64 :=
  if isOneOf [".nan", ".NaN", ".NAN"] t then some .nan
  else if isOneOf [".inf", ".Inf", ".INF", "+.inf", "+.Inf", "+.INF"] t then some (.infinity false)
  else if isOneOf ["-.inf", "-.Inf", "-.INF"] t then some (.infinity true)
  else none

def dropUnderscores (t : Text) : Text := t.filter fun b => b != 95

/-- A number, in any of its spellings. One that starts with a point may have underscores between
digits, any other anywhere. -/
def number? (t : Text) : Option Value :=
  match special? t with
  | some x => some (.float x)
  | none =>
    match t with
    | 46 :: _ =>
      if hasTidyUnderscores t then (decimal? (dropUnderscores t)).map .float else none
    | b :: _ =>
      if Text.isDigit b || b == 43 || b == 45 then
        let bare := dropUnderscores t
        match whole? bare with
        | some n => some (.int n)
        | none => (decimal? bare).map .float
      else none
    | [] => none

/-! ### Resolution -/

/-- What a scalar without quotes stands for. -/
def resolve (t : Text) : Value :=
  if isOneOf ["", "~", "null", "Null", "NULL"] t then .null
  else if isOneOf ["true", "True", "TRUE"] t then .bool true
  else if isOneOf ["false", "False", "FALSE"] t then .bool false
  else if isTime t then .time
  else
    match number? t with
    | some v => v
    | none => .text t

/-- Does the scalar stand for a text? -/
def isPlainText (t : Text) : Bool :=
  match resolve t with
  | .text _ => true
  | _ => false

end ImportBlock.Yaml
