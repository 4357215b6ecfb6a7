/-! # Decimal and hexadecimal numerals

A natural number is written in decimal without leading zeros. Reading accepts
leading zeros and one plus sign, and refuses a value that is not below a bound.
-/

namespace ObjectLedger.Text

/-- The decimal digits of a number. -/
def decimal (n : Nat) : List Char :=
  Nat.toDigits 10 n

/-- The number written by one or more decimal digits. -/
def readDigits? (cs : List Char) : Option Nat :=
  if cs ≠ [] ∧ cs.all Char.isDigit then some (Nat.ofDigitChars 10 cs 0) else none

/-- The number below `bound` written by decimal digits, after a plus sign or not. -/
def readDecimal? (bound : Nat) (cs : List Char) : Option Nat :=
  let digits := match cs with
    | '+' :: rest => rest
    | _ => cs
  (readDigits? digits).filter (· < bound)

/-- The number in base sixteen with lower-case digits, with zeros in front up to
the given width. -/
def hexadecimal (width n : Nat) : List Char :=
  let digits := Nat.toDigits 16 n
  List.replicate (width - digits.length) '0' ++ digits

/-- Two hexadecimal digits for each byte. -/
def hexBytes (bytes : List UInt8) : String :=
  String.ofList (bytes.flatMap fun byte => hexadecimal 2 byte.toNat)

/-- Whether a character is a hexadecimal digit. -/
def isHexDigit (c : Char) : Bool :=
  c.isDigit || ('a' ≤ c && c ≤ 'f') || ('A' ≤ c && c ≤ 'F')

/-- The value of a digit in bases up to sixteen. -/
def digitValue (c : Char) : Nat :=
  if c.isDigit then c.toNat - 48 else c.toLower.toNat - 87

/-- The bytes of pairs of hexadecimal digits. -/
def readHex? : List Char → Option (List UInt8)
  | [] => some []
  | high :: low :: rest =>
    if isHexDigit high && isHexDigit low then
      (readHex? rest).map (UInt8.ofNat (16 * digitValue high + digitValue low) :: ·)
    else none
  | [_] => none

/-- A number is read back from its decimal digits. -/
theorem readDigits?_decimal (n : Nat) : readDigits? (decimal n) = some n := by
  have nonempty : decimal n ≠ [] := by
    simp [decimal, Nat.toDigits_ne_nil]
  have digits : (decimal n).all Char.isDigit := by
    rw [List.all_eq_true]
    intro c member
    exact Nat.isDigit_of_mem_toDigits (by decide) (by decide) member
  rw [readDigits?, if_pos ⟨nonempty, digits⟩]
  exact congrArg some (Nat.ofDigitChars_toDigits (by decide) (by decide))

theorem isDigit_of_mem_decimal {n : Nat} {c : Char} (member : c ∈ decimal n) : c.isDigit :=
  Nat.isDigit_of_mem_toDigits (by decide) (by decide) member

theorem decimal_ne_nil (n : Nat) : decimal n ≠ [] := Nat.toDigits_ne_nil

/-- Different numbers have different digits. -/
theorem decimal_inj {n m : Nat} (same : decimal n = decimal m) : n = m := by
  have read := readDigits?_decimal n
  rw [same, readDigits?_decimal m] at read
  exact (Option.some.inj read).symm

/-- A numeral reads as its number, if that is below the bound. -/
theorem readDecimal?_decimal {bound n : Nat} (small : n < bound) :
    readDecimal? bound (decimal n) = some n := by
  unfold readDecimal?
  split
  · rename_i rest signed
    have digit : '+'.isDigit := isDigit_of_mem_decimal (signed ▸ List.mem_cons_self)
    cases digit
  · dsimp only
    rw [readDigits?_decimal, Option.filter_some, if_pos (decide_eq_true small)]

/-- No numeral of two digits or more begins with a zero. -/
theorem decimal_zero_cons {n : Nat} {rest : List Char} (zero : decimal n = '0' :: rest) :
    rest = [] := by
  induction n using Nat.strongRecOn generalizing rest with
  | ind n ih =>
    have digits : decimal n = if n < 10 then [n.digitChar]
        else decimal (n / 10) ++ [(n % 10).digitChar] := Nat.toDigits_eq_if (by decide)
    rw [zero] at digits
    by_cases small : n < 10
    · rw [if_pos small] at digits
      exact (List.cons.inj digits).2
    · rw [if_neg small] at digits
      cases front : decimal (n / 10) with
      | nil => exact (decimal_ne_nil _ front).elim
      | cons first others =>
        rw [front, List.cons_append] at digits
        rw [← (List.cons.inj digits).1] at front
        -- A front of one zero would be the numeral of zero.
        rw [ih (n / 10) (by omega) front] at front
        have none : n / 10 = 0 := decimal_inj front
        omega

end ObjectLedger.Text
