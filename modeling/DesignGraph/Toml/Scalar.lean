/-
  Scalars of TOML that are written without marks: truth values, numbers, and
  dates and times.

  A scalar is the longest run of the characters scalars are written with, so
  that a run is either a scalar as a whole or none (`Scalar.ofToken?`).

  * `dateTime?`, `integer?` and `float?` decide the three larger forms;
  * integers have to fit 64 bits with a sign, dates have to be in the calendar,
    and floats must not be too large for a double (`exceedsDouble`).
-/
import DesignGraph.Toml.Quoted

namespace DesignGraph.Toml

/-! ## Digits -/

/-- The digits of a number in which single underscores may stand between
    digits: the text without its underscores.  `digit` says what a digit is. -/
def groupedDigits? (digit : Char → Bool) : List Char → Option (List Char)
  | [] => none
  | [c] => if digit c then some [c] else none
  | c :: '_' :: r => if digit c then (groupedDigits? digit r).map (c :: ·) else none
  | c :: r => if digit c then (groupedDigits? digit r).map (c :: ·) else none

/-- The number with the given digits in the given base. -/
def ofDigits (base : Nat) (ds : List Char) : Nat :=
  ds.foldl (fun n c => base * n + (hexDigit? c).getD 0) 0

/-- Whether a character is an octal digit. -/
def isOctalDigit (c : Char) : Bool := '0' ≤ c && c ≤ '7'

/-- Whether a character is a binary digit. -/
def isBinaryDigit (c : Char) : Bool := c == '0' || c == '1'

/-- The digits of a decimal number without sign; a leading zero stands alone. -/
def decimalDigits? (cs : List Char) : Option (List Char) :=
  match groupedDigits? Char.isDigit cs with
  | some ('0' :: _ :: _) => none
  | ds => ds

/-- A number with its sign split off: whether it is negative, and the rest. -/
def splitSign : List Char → Bool × List Char
  | '-' :: r => (true, r)
  | '+' :: r => (false, r)
  | r => (false, r)

/-! ## Integers -/

/-- Whether a number fits 64 bits with a sign. -/
def fitsInt64 (n : Int) : Bool := -0x8000000000000000 ≤ n && n < 0x8000000000000000

/-- An integer in one of its four notations. -/
def integer? (cs : List Char) : Option Int :=
  let n : Option Int := match cs with
    | '0' :: 'x' :: r => (groupedDigits? (hexDigit? · |>.isSome) r).map (ofDigits 16 ·)
    | '0' :: 'o' :: r => (groupedDigits? isOctalDigit r).map (ofDigits 8 ·)
    | '0' :: 'b' :: r => (groupedDigits? isBinaryDigit r).map (ofDigits 2 ·)
    | _ =>
      let (negative, r) := splitSign cs
      (decimalDigits? r).map fun ds =>
        if negative then -(ofDigits 10 ds : Int) else (ofDigits 10 ds : Int)
  n.bind fun n => if fitsInt64 n then some n else none

/-! ## Floats -/

/-- The least number that is nearer to no finite double: half a step above the
    largest of them. -/
def doubleLimit : Nat := Nat.pow 2 1024 - Nat.pow 2 970

/-- Whether the number with digits `ds` times `10 ^ exponent` is too large for a
    double.  Only at 309 places before the point is that a matter of the digits. -/
def exceedsDouble (ds : List Char) (exponent : Int) : Bool :=
  let ds := ds.dropWhile (· == '0')
  let places : Int := ds.length + exponent
  if ds.isEmpty || places < 309 then false
  else if 309 < places then true
  else if 0 ≤ exponent then doubleLimit ≤ ofDigits 10 ds * Nat.pow 10 exponent.toNat
  else doubleLimit * Nat.pow 10 (-exponent).toNat ≤ ofDigits 10 ds

/-- The part of a text before and the part from the first character with a
    property. -/
def splitAtFirst (p : Char → Bool) (cs : List Char) : List Char × List Char :=
  (cs.takeWhile (!p ·), cs.dropWhile (!p ·))

/-- The value of an exponent. -/
def exponent? (cs : List Char) : Option Int :=
  let (negative, r) := splitSign cs
  (groupedDigits? Char.isDigit r).map fun ds =>
    if negative then -(ofDigits 10 ds : Int) else (ofDigits 10 ds : Int)

/-- Whether a text is a float: a decimal number with a fraction, an exponent or
    both, or a special value.  A positive one must not be too large. -/
def isFloat (cs : List Char) : Bool :=
  let (negative, r) := splitSign cs
  if r = "inf".toList || r = "nan".toList then true
  else
    let (mantissa, exponentPart) := splitAtFirst (fun c => c == 'e' || c == 'E') r
    let (whole, fractionPart) := splitAtFirst (· == '.') mantissa
    let fraction := match fractionPart with
      | [] => some []
      | _ :: f => groupedDigits? Char.isDigit f
    let exponent := match exponentPart with
      | [] => some 0
      | _ :: e => exponent? e
    match decimalDigits? whole, fraction, exponent with
    | some w, some f, some e =>
      !(fractionPart.isEmpty && exponentPart.isEmpty) &&
        (negative || !exceedsDouble (w ++ f) (e - f.length))
    | _, _, _ => false

/-! ## Dates and times -/

/-- A number of exactly `n` digits at the front of a text. -/
def fixedNumber? (n : Nat) (cs : List Char) : Option (Nat × List Char) :=
  let ds := cs.take n
  if ds.length = n ∧ ds.all Char.isDigit then some (ofDigits 10 ds, cs.drop n) else none

/-- The text after a character, which it has to start with. -/
def expect? (c : Char) : List Char → Option (List Char)
  | d :: r => if d = c then some r else none
  | [] => none

/-- The number of days of a month. -/
def daysIn (year month : Nat) : Nat :=
  if month = 2 then
    if year % 4 = 0 ∧ (year % 100 ≠ 0 ∨ year % 400 = 0) then 29 else 28
  else if month = 4 ∨ month = 6 ∨ month = 9 ∨ month = 11 then 30
  else 31

/-- The text after a date of the calendar. -/
def date? (cs : List Char) : Option (List Char) := do
  let (year, r) ← fixedNumber? 4 cs
  let (month, r) ← fixedNumber? 2 (← expect? '-' r)
  let (day, r) ← fixedNumber? 2 (← expect? '-' r)
  if 1 ≤ month ∧ month ≤ 12 ∧ 1 ≤ day ∧ day ≤ daysIn year month then some r else none

/-- The text after the hours and minutes of a day. -/
def hourMinute? (cs : List Char) : Option (List Char) := do
  let (hour, r) ← fixedNumber? 2 cs
  let (minute, r) ← fixedNumber? 2 (← expect? ':' r)
  if hour ≤ 23 ∧ minute ≤ 59 then some r else none

/-- The text after a time of day; a minute may have a leap second. -/
def time? (cs : List Char) : Option (List Char) := do
  let (second, r) ← fixedNumber? 2 (← expect? ':' (← hourMinute? cs))
  if 60 < second then none
  else match r with
    | '.' :: f =>
      if (f.takeWhile Char.isDigit).isEmpty then none else some (f.dropWhile Char.isDigit)
    | r => some r

/-- Whether a text is nothing or a distance from universal time. -/
def isOffset : List Char → Bool
  | [] | ['Z'] | ['z'] => true
  | '+' :: r | '-' :: r => hourMinute? r == some []
  | _ => false

/-- Whether a text is a time of day, with or without a distance from universal
    time. -/
def isOffsetTime (cs : List Char) : Bool := (time? cs).any isOffset

/-- Whether a text is a date. -/
def isDate (cs : List Char) : Bool := date? cs == some []

/-- Whether a text is a date, a time, or both. -/
def isDateTime (cs : List Char) : Bool :=
  match date? cs with
  | some [] => true
  | some (c :: r) => (c == 'T' || c == 't') && isOffsetTime r
  | none => time? cs == some []

/-! ## Scalars -/

/-- A value written without marks. -/
inductive Scalar where
  | boolean (b : Bool)
  | integer (n : Int)
  /-- a float -/
  | float
  | dateTime
deriving DecidableEq

/-- Whether scalars are written with a character. -/
def isScalarChar (c : Char) : Bool :=
  c.isAlphanum || c == '_' || c == '+' || c == '-' || c == '.' || c == ':'

/-- The scalar that a run of characters is. -/
def Scalar.ofToken? (cs : List Char) : Option Scalar :=
  if cs = "true".toList then some (.boolean true)
  else if cs = "false".toList then some (.boolean false)
  else if isDateTime cs then some .dateTime
  else if isFloat cs then some .float
  else (integer? cs).map .integer

/-- A date may be followed by a space and a time, and is one with it then: what
    is left after that time, if there is one. -/
def skipSpacedTime : List Char → List Char
  | ' ' :: r =>
    if isOffsetTime (r.takeWhile isScalarChar) then r.dropWhile isScalarChar else ' ' :: r
  | r => r

theorem length_skipSpacedTime (cs : List Char) : (skipSpacedTime cs).length ≤ cs.length := by
  unfold skipSpacedTime
  split
  · next r =>
    have := (List.dropWhile_suffix isScalarChar (l := r)).length_le
    split <;> grind
  · exact Nat.le_refl _

/-- A scalar. -/
def scalar : Reader Scalar
  | [] => none
  | c :: r =>
    if isScalarChar c then
      let token := c :: r.takeWhile isScalarChar
      let rest := r.dropWhile isScalarChar
      (Scalar.ofToken? token).map fun s =>
        ⟨s, if isDate token then skipSpacedTime rest else rest, by
          have := length_skipSpacedTime rest
          have := (List.dropWhile_suffix isScalarChar (l := r)).length_le
          grind⟩
    else none

end DesignGraph.Toml
