import ObjectLedger.Text.Numeral
import ObjectLedger.Text.Shown

/-! # Quoted text

A text in diagnostics stands between double quotes. Inside, quotes and backslashes
follow a backslash, and characters that are not shown as they are become escapes:
short ones for NUL, tab and the line ends, and code points for the others.
-/

namespace ObjectLedger.Text

/-- How a character is written between quotes. -/
def quotedChar (c : Char) : List Char :=
  if c = '\x00' then ['\\', '0']
  else if c = '\t' then ['\\', 't']
  else if c = '\n' then ['\\', 'n']
  else if c = '\r' then ['\\', 'r']
  else if c = '\x22' then ['\\', '\x22']
  else if c = '\\' then ['\\', '\\']
  else if isShown c then [c]
  else ['\\', 'u', '\x7b'] ++ hexadecimal 1 c.toNat ++ ['\x7d']

/-- The text between quotes. -/
def quoted (text : String) : String :=
  String.ofList ('\x22' :: text.toList.flatMap quotedChar ++ ['\x22'])

end ObjectLedger.Text
