import Wiring.Text.Numeral

/-!
# Configuration values

A configuration value is read from a text: `true` and `false` are flags, a decimal number in the
range of 64 bits with an optional sign is an integer, and anything else stays a text. `toText`
writes a value back.
-/

namespace Wiring.Config

/-- A value read from a text. -/
inductive Value where
  | text (text : String)
  | integer (value : Int)
  | flag (value : Bool)
  deriving DecidableEq, Repr, Inhabited

namespace Value

/-- The least and the greatest integer that a value can hold. -/
def least : Int := -Nat.pow 2 63

@[inherit_doc least]
def greatest : Int := Nat.pow 2 63 - 1

/-- Reads a value. -/
def parse (raw : String) : Value :=
  if raw = "true" then flag true
  else if raw = "false" then flag false
  else
    match Text.integer? 10 raw.toList with
    | some n => if least ≤ n ∧ n ≤ greatest then integer n else text raw
    | none => text raw

/-- The text of a value that stayed a text. -/
def text? : Value → Option String
  | text s => some s
  | _ => none

/-- The flag that a value is. -/
def flag? : Value → Option Bool
  | flag b => some b
  | _ => none

/-- Writes a value back. -/
def toText : Value → String
  | text s => s
  | integer n => toString n
  | flag b => toString b

/-- The word for the kind of a value. -/
def kindName : Value → String
  | text _ => "String"
  | integer _ => "Integer"
  | flag _ => "Boolean"

end Value

end Wiring.Config
