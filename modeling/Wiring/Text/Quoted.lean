import Wiring.Text.Unshown

/-!
# Quoted text

A quoted text stands between double quotes and shows on one line what it holds: quotes and
backslashes are marked by a backslash, the common control characters have short names, and every
other character that cannot be shown is named by its code point.
-/

namespace Wiring.Text

/-- The digits of a number in base sixteen, in lower case. -/
def hexDigits (n : Nat) : List Char := Nat.toDigits 16 n

/-- How one character is written inside a quoted text. -/
def quotedChar (c : Char) : List Char :=
  match c.toNat with
  | 0x00 => ['\x5c', '0']
  | 0x09 => ['\x5c', 't']
  | 0x0A => ['\x5c', 'n']
  | 0x0D => ['\x5c', 'r']
  | 0x22 => ['\x5c', '\x22']
  | 0x5C => ['\x5c', '\x5c']
  | n =>
    if (0x20 ≤ n && n < 0x7F) || (0x80 ≤ n && !isUnshown c) then [c]
    else ['\x5c', 'u', '\x7b'] ++ hexDigits n ++ ['\x7d']

/-- A text between double quotes. -/
def quoted (text : String) : String :=
  String.ofList ('\x22' :: text.toList.flatMap quotedChar ++ ['\x22'])

/-- A list of texts between square brackets, each of them quoted. -/
def quotedList (texts : List String) : String :=
  "[" ++ ", ".intercalate (texts.map quoted) ++ "]"

end Wiring.Text
