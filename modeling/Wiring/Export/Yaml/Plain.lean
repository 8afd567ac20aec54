import Wiring.Text.Numeral

/-!
# What a plain text reads back as

Without quotes a text need not read back as a text. It reads back as nothing, as a truth value, as
an integer of at most 128 bits in one of four bases, or as a decimal number that a floating-point
number of 64 bits can hold. Digits behind a superfluous zero read back as a text, but are an integer
to many readers. `isMistaken` says which texts are taken for something else.
-/

namespace Wiring.Export.Yaml

/-! ## Words -/

/-- The words for nothing and for truth values. -/
def wordsOfValues : List String :=
  ["", "~", "null", "Null", "NULL", "true", "True", "TRUE", "false", "False", "FALSE"]

/-- The words for numbers that no digits write: infinity with an optional sign, and no number. -/
def wordsOfNumbers : List String :=
  [".inf", ".Inf", ".INF", "+.inf", "+.Inf", "+.INF", "-.inf", "-.Inf", "-.INF",
    ".nan", ".NaN", ".NAN"]

/-! ## Numbers -/

/-- The digits behind the mark of a base other than ten, read in that base. -/
def markedNatural? : List Char → Option Nat
  | '0' :: 'x' :: digits => Text.natural? 16 digits
  | '0' :: 'o' :: digits => Text.natural? 8 digits
  | '0' :: 'b' :: digits => Text.natural? 2 digits
  | _ => none

/-- Whether a text is an integer in a marked base, with an optional sign, that fits into 128 bits:
below `2 ^ 128` without a minus sign, and not below `-2 ^ 127` with one. -/
def isMarkedInteger : List Char → Bool
  | '-' :: rest => (markedNatural? rest).any (· ≤ Nat.pow 2 127)
  | '+' :: rest => (markedNatural? rest).any (· < Nat.pow 2 128)
  | cs => (markedNatural? cs).any (· < Nat.pow 2 128)

/-- Whether a text is a zero before further digits, with an optional sign. -/
def hasSuperfluousZero : List Char → Bool
  | '-' :: '0' :: rest | '+' :: '0' :: rest | '0' :: rest => !rest.isEmpty && rest.all Char.isDigit
  | _ => false

/-- A decimal number without a sign: its digits stand for a whole number, which is scaled by a power
of ten. -/
structure Decimal where
  digits : List Char
  exponent : Int
  deriving DecidableEq, Repr

namespace Decimal

/-- The exponent behind a marking letter; zero if nothing is written. -/
def exponent? : List Char → Option Int
  | [] => some 0
  | 'e' :: rest | 'E' :: rest => Text.integer? 10 rest
  | _ => none

/-- Reads digits with an optional point before, among or behind them, and an optional exponent. -/
def read? (cs : List Char) : Option Decimal :=
  let whole := cs.takeWhile Char.isDigit
  let rest := cs.dropWhile Char.isDigit
  let (fraction, rest) := match rest with
    | '.' :: rest => (rest.takeWhile Char.isDigit, rest.dropWhile Char.isDigit)
    | rest => ([], rest)
  if whole.isEmpty && fraction.isEmpty then none
  else (exponent? rest).map fun e => ⟨whole ++ fraction, e - fraction.length⟩

/-- The least number too great for a floating-point number of 64 bits: what is smaller is rounded to
a finite one. -/
def overflow : Nat := Nat.pow 2 1024 - Nat.pow 2 970

/-- Whether a number is below `overflow`, which lies between `10 ^ 308` and `10 ^ 309`. Powers of ten
that decide this by their size alone are not computed. -/
def isFinite (d : Decimal) : Bool :=
  let n := (Text.natural? 10 d.digits).getD 0
  match d.exponent with
  | .ofNat e => n = 0 || (e ≤ 308 && n * Nat.pow 10 e < overflow)
  | .negSucc e => d.digits.length ≤ e + 1 + 308 || n < overflow * Nat.pow 10 (e + 1)

end Decimal

/-- Whether a text is a finite decimal number with an optional sign. -/
def isFiniteDecimal : List Char → Bool
  | '-' :: rest | '+' :: rest => (Decimal.read? rest).any Decimal.isFinite
  | cs => (Decimal.read? cs).any Decimal.isFinite

/-! ## All of them -/

/-- Whether a text, written plain, is taken for something else than a text. -/
def isMistaken (cs : List Char) : Bool :=
  let text := String.ofList cs
  wordsOfValues.contains text || wordsOfNumbers.contains text || isMarkedInteger cs ||
    hasSuperfluousZero cs || isFiniteDecimal cs

end Wiring.Export.Yaml
