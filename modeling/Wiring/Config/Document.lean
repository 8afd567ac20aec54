import Wiring.Config.Settings
import Wiring.Error

/-!
# Settings from a document

Settings are also read from a JSON document. `Document.read` accepts the JSON grammar and keeps what
settings care for: texts, flags, lists and tables. `AppConfig.ofJson` then takes the known fields out
of a table, or by position out of a list; fields that are missing keep their defaults, and unknown
fields of a table are skipped.
-/

namespace Wiring.Config

/-- What a JSON document holds, as far as settings care for it. -/
inductive Document where
  /-- A text; `none` if its escapes contain half of a surrogate pair and denote no text. -/
  | text (text? : Option String)
  /-- A truth value. -/
  | flag (value : Bool)
  /-- A list of values. -/
  | list (items : List Document)
  /-- Values by key, the keys as texts. -/
  | table (members : List (Option String × Document))
  /-- A number or nothing at all. -/
  | other
  deriving Repr, Inhabited

namespace Document

/-! ## Texts -/

/-- A piece of a text between quotes: a character, or a unit of sixteen bits named by an escape. -/
inductive Piece where
  | char (c : Char)
  | unit (value : Nat)
  deriving DecidableEq, Repr

/-- The character that an escape of one letter stands for. -/
def escaped? (c : Char) : Option Char :=
  match c.toNat with
  | 0x22 => some '\x22'
  | 0x5C => some '\x5c'
  | 0x2F => some '/'
  | 0x62 => some '\x08'
  | 0x66 => some '\x0c'
  | 0x6E => some '\x0a'
  | 0x72 => some '\x0d'
  | 0x74 => some '\x09'
  | _ => none

/-- Reads the pieces of a text up to its closing quote, and what is left behind it. -/
def readPieces : List Char → Option (List Piece × List Char)
  | [] => none
  | '\x22' :: rest => some ([], rest)
  | '\x5c' :: 'u' :: a :: b :: c :: d :: rest =>
    match Text.natural? 16 [a, b, c, d], readPieces rest with
    | some value, some (pieces, rest) => some (.unit value :: pieces, rest)
    | _, _ => none
  | '\x5c' :: c :: rest =>
    match escaped? c, readPieces rest with
    | some c, some (pieces, rest) => some (.char c :: pieces, rest)
    | _, _ => none
  | c :: rest =>
    if c.toNat < 0x20 then none
    else
      match readPieces rest with
      | some (pieces, rest) => some (.char c :: pieces, rest)
      | none => none

/-- Whether a unit is the first half of a surrogate pair. -/
def isLead (unit : Nat) : Bool := 0xD800 ≤ unit && unit < 0xDC00

/-- Whether a unit is the second half of a surrogate pair. -/
def isTrail (unit : Nat) : Bool := 0xDC00 ≤ unit && unit < 0xE000

/-- The characters that pieces denote, given the first half of a pair read before them if there is
one. Halves that do not meet denote nothing. -/
def decode : Option Nat → List Piece → Option (List Char)
  | none, [] => some []
  | none, .char c :: rest => (decode none rest).map (c :: ·)
  | none, .unit u :: rest =>
    if isLead u then decode (some u) rest
    else if isTrail u then none
    else (decode none rest).map (Char.ofNat u :: ·)
  | some lead, .unit u :: rest =>
    if isTrail u then
      (decode none rest).map (Char.ofNat (0x10000 + (lead - 0xD800) * 0x400 + (u - 0xDC00)) :: ·)
    else none
  | some _, _ => none

/-- Reads a text behind its opening quote. -/
def readText (cs : List Char) : Option (Option String × List Char) :=
  (readPieces cs).map fun (pieces, rest) => ((decode none pieces).map String.ofList, rest)

/-! ## Numbers -/

/-- Skips at least one decimal digit. -/
def skipDigits : List Char → Option (List Char)
  | [] => none
  | c :: rest => if c.isDigit then some (rest.dropWhile Char.isDigit) else none

/-- Skips the whole part of a number, which has no superfluous zero in front. -/
def skipWhole : List Char → Option (List Char)
  | '0' :: rest =>
    match rest with
    | c :: _ => if c.isDigit then none else some rest
    | [] => some []
  | cs => skipDigits cs

/-- Skips the fraction of a number, if it has one. -/
def skipFraction : List Char → Option (List Char)
  | '.' :: rest => skipDigits rest
  | cs => some cs

/-- Skips the exponent of a number, if it has one. -/
def skipExponent : List Char → Option (List Char)
  | 'e' :: '+' :: rest | 'e' :: '-' :: rest | 'E' :: '+' :: rest | 'E' :: '-' :: rest =>
    skipDigits rest
  | 'e' :: rest | 'E' :: rest => skipDigits rest
  | cs => some cs

/-- Skips a number. -/
def skipNumber (cs : List Char) : Option (List Char) := do
  let cs := match cs with
    | '-' :: rest => rest
    | cs => cs
  skipExponent (← skipFraction (← skipWhole cs))

/-! ## Values -/

/-- Whether a character may stand between the parts of a document. -/
def isSpace (c : Char) : Bool :=
  c = ' ' || c = '\x09' || c = '\x0a' || c = '\x0d'

/-- Skips the characters between the parts of a document. -/
def skipSpace (cs : List Char) : List Char := cs.dropWhile isSpace

mutual

/-- Reads one value, and what is left behind it. The fuel bounds the calls; two for each character
are enough. -/
def readValue : Nat → List Char → Option (Document × List Char)
  | 0, _ => none
  | fuel + 1, cs =>
    match skipSpace cs with
    | '\x22' :: rest => (readText rest).map fun (text?, rest) => (.text text?, rest)
    | '[' :: rest =>
      match skipSpace rest with
      | ']' :: rest => some (.list [], rest)
      | rest => (readItems fuel rest).map fun (items, rest) => (.list items, rest)
    | '\x7b' :: rest =>
      match skipSpace rest with
      | '\x7d' :: rest => some (.table [], rest)
      | rest => (readMembers fuel rest).map fun (members, rest) => (.table members, rest)
    | 't' :: 'r' :: 'u' :: 'e' :: rest => some (.flag true, rest)
    | 'f' :: 'a' :: 'l' :: 's' :: 'e' :: rest => some (.flag false, rest)
    | 'n' :: 'u' :: 'l' :: 'l' :: rest => some (.other, rest)
    | cs => (skipNumber cs).map fun rest => (.other, rest)

/-- Reads the values of a list up to its closing bracket. -/
def readItems : Nat → List Char → Option (List Document × List Char)
  | 0, _ => none
  | fuel + 1, cs => do
    let (item, rest) ← readValue fuel cs
    match skipSpace rest with
    | ',' :: rest =>
      let (items, rest) ← readItems fuel rest
      some (item :: items, rest)
    | ']' :: rest => some ([item], rest)
    | _ => none

/-- Reads the keys and values of a table up to its closing brace. -/
def readMembers : Nat → List Char → Option (List (Option String × Document) × List Char)
  | 0, _ => none
  | fuel + 1, cs => do
    match skipSpace cs with
    | '\x22' :: rest =>
      let (key, rest) ← readText rest
      match skipSpace rest with
      | ':' :: rest =>
        let (value, rest) ← readValue fuel rest
        match skipSpace rest with
        | ',' :: rest =>
          let (members, rest) ← readMembers fuel rest
          some ((key, value) :: members, rest)
        | '\x7d' :: rest => some ([(key, value)], rest)
        | _ => none
      | _ => none
    | _ => none

end

/-- Reads a whole document. -/
def read (text : String) : Option Document :=
  let cs := text.toList
  match readValue (2 * cs.length + 2) cs with
  | some (document, rest) => if (skipSpace rest).isEmpty then some document else none
  | none => none

/-! ## Fields -/

/-- The value of a key that may stand at most once among the members of a table. -/
def single? (members : List (Option String × Document)) (key : String) :
    Option (Option Document) :=
  match members.filter fun member => member.1 = some key with
  | [] => some none
  | [member] => some (some member.2)
  | _ => none

/-- The values of two fields, each of which may be missing. A list gives them by position and has no
further items; every key of a table is a text. -/
def twoFields? (first second : String) : Document → Option (Option Document × Option Document)
  | list [] => some (none, none)
  | list [a] => some (some a, none)
  | list [a, b] => some (some a, some b)
  | table members =>
    if members.all fun member => member.1.isSome then do
      some (← single? members first, ← single? members second)
    else none
  | _ => none

/-- The text that a field must be, or the default if it is missing. -/
def textOr (default : String) : Option Document → Option String
  | none => some default
  | some (text text?) => text?
  | some _ => none

/-- The flag that a field must be, or the default if it is missing. -/
def flagOr (default : Bool) : Option Document → Option Bool
  | none => some default
  | some (flag value) => some value
  | some _ => none

end Document

end Wiring.Config

namespace Wiring

open Config (Document)

/-- The settings of a container that a document gives. -/
def ContainerConfig.ofDocument? (document : Document) : Option ContainerConfig := do
  let default : ContainerConfig := {}
  let (name, logOrder) ← document.twoFields? "name" "log_order"
  some { name := ← Document.textOr default.name name
         logOrder := ← Document.flagOr default.logOrder logOrder }

/-- The settings of an application that a document gives. -/
def AppConfig.ofDocument? (document : Document) : Option AppConfig := do
  let default : AppConfig := {}
  let (name, container) ← document.twoFields? "name" "container"
  some { name := ← Document.textOr default.name name
         container := ← match container with
           | none => some default.container
           | some document => ContainerConfig.ofDocument? document }

/-- The settings of an application that a JSON document gives. -/
def AppConfig.ofJson (text : String) : Except Error AppConfig :=
  match (Document.read text).bind AppConfig.ofDocument? with
  | some config => .ok config
  | none => .error (.configInvalid "malformed document")

end Wiring
