/-!
# Numerals

Numbers written by digits in a base up to sixteen, in which letters of either case stand for the
digits from ten on. `natural?` reads digits alone, `integer?` digits behind an optional sign.
-/

namespace Wiring.Text

/-- The value of a character as a digit of a base. -/
def digit? (base : Nat) (c : Char) : Option Nat :=
  let value? :=
    if '0' ≤ c ∧ c ≤ '9' then some (c.toNat - '0'.toNat)
    else if 'a' ≤ c ∧ c ≤ 'f' then some (c.toNat - 'a'.toNat + 10)
    else if 'A' ≤ c ∧ c ≤ 'F' then some (c.toNat - 'A'.toNat + 10)
    else none
  value?.filter (· < base)

/-- The number written by digits; `none` without any digit or with any other character. -/
def natural? (base : Nat) : List Char → Option Nat
  | [] => none
  | digits => digits.foldlM (fun n c => (digit? base c).map (base * n + ·)) 0

/-- The number written by digits behind an optional sign. -/
def integer? (base : Nat) : List Char → Option Int
  | '+' :: digits => (natural? base digits).map Int.ofNat
  | '-' :: digits => (natural? base digits).map fun n => -Int.ofNat n
  | digits => (natural? base digits).map Int.ofNat

end Wiring.Text
