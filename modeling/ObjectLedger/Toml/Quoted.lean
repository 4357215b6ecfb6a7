import ObjectLedger.Toml.Scalar

/-! # Quoted texts of TOML

A text stands between quotes, where escapes are read, or between apostrophes, where every
character stands for itself. Between tripled marks a text may have several lines; a line end
right after the opening mark does not belong to it.
-/

namespace ObjectLedger.Toml

/-- Whether a character stands for itself inside a line. -/
def isLineChar (c : Char) : Bool := c = '\t' || (' ' ≤ c && c ≠ '\x7f')

/-- Whether a character is a space or a tab. -/
def isSpace (c : Char) : Bool := c = ' ' || c = '\t'

/-- What follows a line end, if the text starts with one. -/
def afterLine? : List Char → Option (List Char)
  | '\n' :: rest => some rest
  | '\r' :: '\n' :: rest => some rest
  | _ => none

/-- The character of a code point in hexadecimal digits. -/
def codePoint? (digits : List Char) : Option Char :=
  let code := ofDigits 16 digits
  if digits.all Text.isHexDigit && code.isValidChar then some (Char.ofNat code) else none

/-- The character of an escape, given what follows the backslash, and the rest. -/
def escape? : List Char → Option (Char × List Char)
  | 'b' :: rest => some ('\x08', rest)
  | 't' :: rest => some ('\t', rest)
  | 'n' :: rest => some ('\n', rest)
  | 'f' :: rest => some ('\x0c', rest)
  | 'r' :: rest => some ('\r', rest)
  | '\x22' :: rest => some ('\x22', rest)
  | '\\' :: rest => some ('\\', rest)
  | 'u' :: a :: b :: c :: d :: rest => (codePoint? [a, b, c, d]).map (·, rest)
  | 'U' :: a :: b :: c :: d :: e :: f :: g :: h :: rest =>
    (codePoint? [a, b, c, d, e, f, g, h]).map (·, rest)
  | _ => none

/-- The blanks and line ends at the start of a text left out. -/
def skipBlankLines : List Char → List Char
  | '\r' :: '\n' :: rest => skipBlankLines rest
  | '\n' :: rest => skipBlankLines rest
  | ' ' :: rest => skipBlankLines rest
  | '\t' :: rest => skipBlankLines rest
  | rest => rest

/-- What follows a line end that a backslash hides, with the blanks around it. -/
def afterHiddenLine? (cs : List Char) : Option (List Char) :=
  (afterLine? (cs.dropWhile isSpace)).map skipBlankLines

/-- How a quoted text is delimited. -/
structure Delimiter where
  mark : Char
  /-- The mark is tripled, and the text may have several lines. -/
  long : Bool
  /-- A backslash starts an escape. -/
  escapes : Bool

/-- The characters up to the closing mark, and what follows it. A few marks right before a
tripled closing mark belong to the text. The fuel bounds the number of characters. -/
def body? (delimiter : Delimiter) : (fuel : Nat) → List Char → Option (List Char × List Char)
  | 0, _ => none
  | _, [] => none
  | fuel + 1, c :: rest =>
    if c = delimiter.mark then
      if delimiter.long then
        let run := 1 + (rest.takeWhile (· = delimiter.mark)).length
        if run < 3 then
          (body? delimiter fuel rest).map fun (text, after) => (c :: text, after)
        else
          let held := min run 5 - 3
          some (List.replicate held c, rest.drop (held + 2))
      else some ([], rest)
    else if delimiter.escapes && c = '\\' then
      match escape? rest with
      | some (escaped, rest) =>
        (body? delimiter fuel rest).map fun (text, after) => (escaped :: text, after)
      | none =>
        if delimiter.long then (afterHiddenLine? rest).bind (body? delimiter fuel) else none
    else if isLineChar c then
      (body? delimiter fuel rest).map fun (text, after) => (c :: text, after)
    else if delimiter.long then
      match afterLine? (c :: rest) with
      | some rest => (body? delimiter fuel rest).map fun (text, after) => ('\n' :: text, after)
      | none => none
    else none

/-- The text of a line between marks, given what follows the opening mark. -/
def line? (mark : Char) (cs : List Char) : Option (String × List Char) :=
  (body? ⟨mark, false, mark = '\x22'⟩ (cs.length + 1) cs).map fun (text, rest) =>
    (String.ofList text, rest)

/-- The text at the start, which begins with the given mark or with three of it. -/
def takeText? (mark : Char) (cs : List Char) : Option (String × List Char) :=
  match cs with
  | a :: b :: c :: rest =>
    if a = mark && b = mark && c = mark then
      let rest := (afterLine? rest).getD rest
      (body? ⟨mark, true, mark = '\x22'⟩ (rest.length + 1) rest).map fun (text, rest) =>
        (String.ofList text, rest)
    else line? mark (b :: c :: rest)
  | _ => line? mark (cs.drop 1)

end ObjectLedger.Toml
