import Wiring.Export.Tree
import Wiring.Export.Yaml.Plain

/-!
# Trees in YAML

A tree is written in block style: one field or item a line, the fields of a record two blanks deeper
than what holds them, the items of a list level with the field that holds them. Empty lists and
records are written in brackets. A text is written plain if that reads back as the same text;
otherwise between single quotes, between double quotes, or, when it has several lines, as a literal
block.
-/

namespace Wiring.Export.Yaml

/-! ## What a text consists of -/

/-- Whether a character ends a line. -/
def isBreak (c : Char) : Bool :=
  let n := c.toNat
  n == 0x0A || n == 0x0D || n == 0x85 || n == 0x2028 || n == 0x2029

/-- Whether a character may stand unescaped. -/
def isPrintable (c : Char) : Bool :=
  let n := c.toNat
  n == 0x0A || (0x20 ≤ n && n ≤ 0x7E) || (0xA0 ≤ n && n != 0xFEFF && n != 0xFFFE && n != 0xFFFF)

/-- Whether a character separates words. -/
def isSeparator (c : Char) : Bool :=
  c = ' ' || c.toNat == 0x09 || c.toNat == 0 || isBreak c

/-- Whether a text begins with a separator or is over. -/
def isBlankAhead : List Char → Bool
  | [] => true
  | c :: _ => isSeparator c

/-- Whether a character at the start of a text, before `rest`, makes the text something else than a
plain text. -/
def leadsOtherwise (c : Char) (rest : List Char) : Bool :=
  "#,[]\x7b\x7d&*!|>%@".toList.contains c || c.toNat == 0x27 || c.toNat == 0x22 ||
    c.toNat == 0x60 || ((c = '?' || c = ':' || c = '-') && isBlankAhead rest)

/-- Whether a plain text would be cut short at a colon or a number sign, given whether a separator
stands before it. -/
def isCut : Bool → List Char → Bool
  | _, [] => false
  | separated, c :: rest =>
    (c = ':' && isBlankAhead rest) || (c = '#' && separated) || isCut (isSeparator c) rest

/-- Whether a text marks the start or the end of a document. -/
def isDocumentMark (cs : List Char) : Bool :=
  cs.take 3 = ['-', '-', '-'] || cs.take 3 = ['.', '.', '.']

/-- Whether some character of the second kind directly follows one of the first. -/
def follows (first second : Char → Bool) : List Char → Bool
  | a :: b :: rest => (first a && second b) || follows first second (b :: rest)
  | _ => false

/-- Whether a character is a blank. -/
def isSpace (c : Char) : Bool := c = ' '

/-- Whether a text has a character that may not stand unescaped. -/
def hasSpecial (cs : List Char) : Bool := cs.any fun c => !isPrintable c

/-- Whether a text may be written plain. -/
def allowsPlain (cs : List Char) : Bool :=
  match cs with
  | [] => true
  | c :: rest =>
    !(leadsOtherwise c rest || isCut (isSeparator c) rest || isDocumentMark cs ||
      cs.any isBreak || hasSpecial cs || isSpace c || (cs.getLast?.map isSpace).getD false)

/-- Whether a text may be written between single quotes. -/
def allowsQuotes (cs : List Char) : Bool :=
  !(hasSpecial cs || follows isSpace isBreak cs || follows isBreak isSpace cs)

/-- Whether a text may be written as a literal block. -/
def allowsBlock (cs : List Char) : Bool :=
  !(hasSpecial cs || follows isSpace isBreak cs || (cs.getLast?.map isSpace).getD true)

/-! ## The ways to write a text -/

/-- Blanks. -/
def blanks (n : Nat) : List Char := List.replicate n ' '

/-- The characters of a text between single quotes, given whether a line has just ended. A line that
continues the text is indented. -/
def singleQuotedFrom (indent : Nat) : Bool → List Char → List Char
  | ended, [] => if ended then blanks indent else []
  | ended, c :: rest =>
    if isSpace c then c :: singleQuotedFrom indent ended rest
    else if isBreak c then
      (if !ended && c.toNat == 0x0A then [c, c] else [c]) ++ singleQuotedFrom indent true rest
    else
      (if ended then blanks indent else []) ++
        (if c.toNat == 0x27 then [c, c] else [c]) ++ singleQuotedFrom indent false rest

/-- A text between single quotes. -/
def singleQuoted (indent : Nat) (cs : List Char) : List Char :=
  '\x27' :: singleQuotedFrom indent false cs ++ ['\x27']

/-- The escape of a character that may not stand in double quotes. -/
def escape (c : Char) : List Char :=
  let hex := fun width => (Tree.paddedHex width c.toNat).map Char.toUpper
  match c.toNat with
  | 0x00 => ['0']
  | 0x07 => ['a']
  | 0x08 => ['b']
  | 0x09 => ['t']
  | 0x0A => ['n']
  | 0x0B => ['v']
  | 0x0C => ['f']
  | 0x0D => ['r']
  | 0x1B => ['e']
  | 0x22 => ['\x22']
  | 0x5C => ['\x5c']
  | 0x85 => ['N']
  | 0xA0 => ['_']
  | 0x2028 => ['L']
  | 0x2029 => ['P']
  | n => if n ≤ 0xFF then 'x' :: hex 2 else if n ≤ 0xFFFF then 'u' :: hex 4 else 'U' :: hex 8

/-- How a character is written in double quotes. -/
def doubleQuotedChar (c : Char) : List Char :=
  if isPrintable c && !isBreak c && c.toNat != 0x22 && c.toNat != 0x5C then [c]
  else '\x5c' :: escape c

/-- A text between double quotes. -/
def doubleQuoted (cs : List Char) : List Char :=
  '\x22' :: cs.flatMap doubleQuotedChar ++ ['\x22']

/-- The lines of a literal block, given whether a line has just ended. -/
def blockLines (indent : Nat) : Bool → List Char → List Char
  | _, [] => []
  | ended, c :: rest =>
    if isBreak c then c :: blockLines indent true rest
    else (if ended then blanks indent else []) ++ c :: blockLines indent false rest

/-- The marks behind the bar of a literal block: the indentation if the text begins with a blank or
an empty line, then whether line ends at its end are dropped or all kept. -/
def blockMarks (cs : List Char) : List Char :=
  let first := match cs with
    | c :: _ => if isSpace c || isBreak c then ['2'] else []
    | [] => []
  let last := match cs.reverse with
    | c :: rest =>
      if !isBreak c then ['-']
      else
        match rest with
        | [] => ['+']
        | d :: _ => if isBreak d then ['+'] else []
    | [] => ['-']
  first ++ last

/-- A text as a literal block. Its last line is not ended here. -/
def block (indent : Nat) (cs : List Char) : List Char :=
  let lines := blockLines indent true cs
  '|' :: blockMarks cs ++ '\x0a' :: lines

/-- A text, where its continued lines are indented by `indent`. -/
def scalar (indent : Nat) (text : String) : String :=
  let cs := text.toList
  let quoted := if allowsQuotes cs then singleQuoted indent cs else doubleQuoted cs
  String.ofList <|
    if cs.contains '\x0a' then
      if allowsBlock cs then block indent cs else doubleQuoted cs
    else if isMistaken cs then quoted
    else if allowsPlain cs then cs
    else quoted

/-! ## Trees -/

/-- Whether a written text ends with the end of a line, as a literal block may. -/
def endsLine (cs : List Char) : Bool := (cs.getLast?.map isBreak).getD false

mutual

/-- What stands behind the name of a field or the dash of an item, up to the end of the line and the
lines below it, when the holder stands at `indent`. -/
def body (indent : Nat) : Tree → String
  | .null => " null\n"
  | .flag b => " " ++ toString b ++ "\n"
  | .number n => " " ++ toString n ++ "\n"
  | .text s =>
    let written := scalar (indent + 2) s
    if endsLine written.toList then " " ++ written else " " ++ written ++ "\n"
  | .list [] => " []\n"
  | .list items => "\n" ++ itemLines indent items
  | .record [] => " \x7b\x7d\n"
  | .record fields => "\n" ++ fieldLines (indent + 2) fields

/-- The items of a list, each on lines that begin at `indent`. -/
def itemLines (indent : Nat) : List Tree → String
  | [] => ""
  | .record (field :: fields) :: rest =>
    String.ofList (blanks indent) ++ "- " ++ field.1 ++ ":" ++ body (indent + 2) field.2 ++
      fieldLines (indent + 2) fields ++ itemLines indent rest
  | item :: rest =>
    String.ofList (blanks indent) ++ "-" ++ body indent item ++ itemLines indent rest

/-- The fields of a record, each on lines that begin at `indent`. -/
def fieldLines (indent : Nat) : List (String × Tree) → String
  | [] => ""
  | (name, value) :: rest =>
    String.ofList (blanks indent) ++ name ++ ":" ++ body indent value ++ fieldLines indent rest

end

/-- A record as a YAML document. -/
def render (tree : Tree) : String :=
  match tree with
  | .record fields => fieldLines 0 fields
  | tree => body 0 tree

end Wiring.Export.Yaml
