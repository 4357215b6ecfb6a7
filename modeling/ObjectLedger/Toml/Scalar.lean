import ObjectLedger.Text.Fields
import ObjectLedger.Text.Numeral

/-! # Scalars of TOML

The plain values of the TOML 1.0 format, recognised from the longest run of characters
that numbers, words and times are written with. Settings are integers, truth values and
texts; a value of any other kind is recognised and then kept as `Value.other`.
-/

namespace ObjectLedger.Toml

open Text

/-- A value, as far as settings need it. -/
inductive Value where
  | integer (value : Int)
  | truth (value : Bool)
  | text (value : String)
  | other
deriving DecidableEq, Repr

/-- Digits of a base with single underscores between them; the digits alone. -/
def digits? (isDigit : Char → Bool) (cs : List Char) : Option (List Char) :=
  let groups := fields '_' cs
  if groups.all fun group => !group.isEmpty && group.all isDigit then some groups.flatten
  else none

/-- The number that digits stand for in a base. -/
def ofDigits (base : Nat) (cs : List Char) : Nat :=
  cs.foldl (fun n c => n * base + digitValue c) 0

/-- A text after its sign, and whether the sign is a minus. -/
def afterSign : List Char → Bool × List Char
  | '-' :: rest => (true, rest)
  | '+' :: rest => (false, rest)
  | cs => (false, cs)

/-- The digits of a decimal integer part, which has no leading zeros. -/
def wholePart? (cs : List Char) : Option (List Char) :=
  match digits? Char.isDigit cs with
  | some ['0'] => some ['0']
  | some ('0' :: _) => none
  | read => read

/-- An integer as a signed word. -/
def word? (value : Int) : Option Value :=
  if Int64.minValue.toInt ≤ value ∧ value ≤ Int64.maxValue.toInt then some (.integer value)
  else none

/-- The integer of a text in decimal, or in another base after its mark. -/
def integer? : List Char → Option Value
  | '0' :: 'x' :: rest => do word? (ofDigits 16 (← digits? isHexDigit rest))
  | '0' :: 'o' :: rest => do word? (ofDigits 8 (← digits? (fun c => '0' ≤ c && c ≤ '7') rest))
  | '0' :: 'b' :: rest => do word? (ofDigits 2 (← digits? (fun c => c = '0' || c = '1') rest))
  | cs =>
    let (negative, rest) := afterSign cs
    (wholePart? rest).bind fun whole =>
      let value : Int := ofDigits 10 whole
      word? (if negative then -value else value)

/-- The least number that rounds to no binary floating-point number with 53 places and exponents
up to 1023. -/
def floatLimit : Nat := Nat.pow 2 1024 - Nat.pow 2 970

/-- Whether a decimal number rounds to a binary floating-point number. -/
def isFinite (digits : List Char) (exponent : Int) : Bool :=
  let mantissa := ofDigits 10 digits
  let places := exponent + (digits.dropWhile (· = '0')).length
  if mantissa = 0 || places < 0 then true
  else if 400 < places then false
  else if exponent < 0 then mantissa < floatLimit * Nat.pow 10 exponent.natAbs
  else mantissa * Nat.pow 10 exponent.toNat < floatLimit

/-- Whether a text is a floating-point number. A number too large for its format is refused
without a minus and taken for minus infinity with one. -/
def isFloat (cs : List Char) : Bool :=
  let (negative, rest) := afterSign cs
  if rest = ['i', 'n', 'f'] || rest = ['n', 'a', 'n'] then true
  else
    let isMark (c : Char) := c = 'e' || c = 'E'
    let mantissa := rest.takeWhile (!isMark ·)
    let exponent? : Option (Option Int) := match rest.dropWhile (!isMark ·) with
      | [] => some none
      | _ :: power =>
        let (small, power) := afterSign power
        (digits? Char.isDigit power).map fun power =>
          some (if small then -(ofDigits 10 power : Int) else ofDigits 10 power)
    match exponent?, cut? '.' mantissa with
    | some (some exponent), none =>
      match wholePart? mantissa with
      | some whole => negative || isFinite whole exponent
      | none => false
    | some exponent, some (whole, fraction) =>
      match wholePart? whole, digits? Char.isDigit fraction with
      | some whole, some fraction =>
        negative || isFinite (whole ++ fraction) (exponent.getD 0 - fraction.length)
      | _, _ => false
    | _, _ => false

/-- The number of two decimal digits between two limits, and the rest. -/
def twoDigits? (low high : Nat) : List Char → Option (Nat × List Char)
  | a :: b :: rest =>
    let value := ofDigits 10 [a, b]
    if a.isDigit && b.isDigit && low ≤ value && value ≤ high then some (value, rest) else none
  | _ => none

/-- What follows a given character. -/
def after? (c : Char) : List Char → Option (List Char)
  | head :: rest => if head = c then some rest else none
  | [] => none

/-- The number of days in a month. -/
def daysIn (year month : Nat) : Nat :=
  if month = 2 then
    if year % 4 = 0 && (year % 100 != 0 || year % 400 = 0) then 29 else 28
  else if month = 4 || month = 6 || month = 9 || month = 11 then 30
  else 31

/-- What follows a date. -/
def afterDate? (cs : List Char) : Option (List Char) := do
  let (century, rest) ← twoDigits? 0 99 cs
  let (year, rest) ← twoDigits? 0 99 rest
  let (month, rest) ← twoDigits? 1 12 (← after? '-' rest)
  let (_, rest) ← twoDigits? 1 (daysIn (100 * century + year) month) (← after? '-' rest)
  pure rest

/-- What follows a time of day. -/
def afterTime? (cs : List Char) : Option (List Char) := do
  let (_, rest) ← twoDigits? 0 23 cs
  let (_, rest) ← twoDigits? 0 59 (← after? ':' rest)
  let (_, rest) ← twoDigits? 0 60 (← after? ':' rest)
  match rest with
  | '.' :: fraction =>
    if (fraction.takeWhile Char.isDigit).isEmpty then pure rest
    else pure (fraction.dropWhile Char.isDigit)
  | _ => pure rest

/-- Whether a text is an offset from universal time. -/
def isOffset : List Char → Bool
  | ['Z'] | ['z'] => true
  | sign :: rest =>
    (sign = '+' || sign = '-') &&
      (do
        let (_, rest) ← twoDigits? 0 23 rest
        let (_, rest) ← twoDigits? 0 59 (← after? ':' rest)
        pure rest.isEmpty).getD false
  | [] => false

/-- Whether a text is a time of day, with an offset or without. -/
def isClock (cs : List Char) : Bool :=
  match afterTime? cs with
  | some rest => rest.isEmpty || isOffset rest
  | none => false

/-- Whether a text is a time of day without offset. -/
def isTime (cs : List Char) : Bool := afterTime? cs == some []

/-- Whether a text is a date, or a date and a time of day joined by a letter. -/
def isDate (cs : List Char) : Bool :=
  match afterDate? cs with
  | some [] => true
  | some (mark :: rest) => (mark = 'T' || mark = 't') && isClock rest
  | none => false

/-- The value of a run of characters. -/
def scalar? (cs : List Char) : Option Value :=
  if cs = "true".toList then some (.truth true)
  else if cs = "false".toList then some (.truth false)
  else if isDate cs || isTime cs || isFloat cs then some .other
  else integer? cs

/-- Whether numbers, words and times are written with a character. -/
def isRunChar (c : Char) : Bool :=
  c.isAlphanum || c = '_' || c = '+' || c = '-' || c = '.' || c = ':'

/-- The scalar at the start of a text. A date and a time of day may be joined by a space. -/
def takeScalar? (cs : List Char) : Option (Value × List Char) :=
  let run := cs.takeWhile isRunChar
  let rest := cs.dropWhile isRunChar
  match rest with
  | ' ' :: following =>
    let second := following.takeWhile isRunChar
    if afterDate? run == some [] && isClock second then
      some (.other, following.dropWhile isRunChar)
    else (scalar? run).map (·, rest)
  | _ => (scalar? run).map (·, rest)

end ObjectLedger.Toml
