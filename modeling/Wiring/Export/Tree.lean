import Wiring.Config.Settings
import Wiring.Text.Quoted

/-!
# Trees and their JSON form

A `Tree` is the neutral form of what is written out: numbers, truth values, texts, lists and records
whose fields keep their order. `Tree.compact` writes it as JSON on one line, `Tree.pretty` with one
item or field a line, indented by two blanks for each level.
-/

namespace Wiring.Export

/-- Data to be written out. -/
inductive Tree where
  | null
  | flag (value : Bool)
  | number (value : Nat)
  | text (value : String)
  | list (items : List Tree)
  | record (fields : List (String × Tree))
  deriving Repr, Inhabited

namespace Tree

/-- A text that may be missing. -/
def ofText? : Option String → Tree
  | some s => text s
  | none => null

/-! ## Texts in JSON -/

/-- The digits of a number in base sixteen, filled up with zeros to the given width. -/
def paddedHex (width n : Nat) : List Char :=
  let digits := Text.hexDigits n
  List.replicate (width - digits.length) '0' ++ digits

/-- How a character is written inside a JSON text. -/
def escapedChar (c : Char) : List Char :=
  match c.toNat with
  | 0x08 => ['\x5c', 'b']
  | 0x09 => ['\x5c', 't']
  | 0x0A => ['\x5c', 'n']
  | 0x0C => ['\x5c', 'f']
  | 0x0D => ['\x5c', 'r']
  | 0x22 => ['\x5c', '\x22']
  | 0x5C => ['\x5c', '\x5c']
  | n => if n < 0x20 then ['\x5c', 'u'] ++ paddedHex 4 n else [c]

/-- A text in JSON. -/
def jsonText (s : String) : String :=
  String.ofList ('\x22' :: s.toList.flatMap escapedChar ++ ['\x22'])

/-! ## Trees in JSON -/

mutual

/-- A tree as JSON on one line. -/
def compact : Tree → String
  | null => "null"
  | flag b => toString b
  | number n => toString n
  | text s => jsonText s
  | list items => "[" ++ ",".intercalate (compactItems items) ++ "]"
  | record fields => "\x7b" ++ ",".intercalate (compactFields fields) ++ "\x7d"

/-- The items of a list as JSON. -/
def compactItems : List Tree → List String
  | [] => []
  | item :: rest => compact item :: compactItems rest

/-- The fields of a record as JSON. -/
def compactFields : List (String × Tree) → List String
  | [] => []
  | (name, value) :: rest => (jsonText name ++ ":" ++ compact value) :: compactFields rest

end

/-- A new line that is indented for a level. -/
def newLine (level : Nat) : String := "\n" ++ String.ofList (List.replicate (2 * level) ' ')

/-- Parts between brackets, one a line, at the given level. Without parts the brackets meet. -/
def bracketed (level : Nat) (opening closing : String) (parts : List String) : String :=
  match parts with
  | [] => opening ++ closing
  | parts =>
    opening ++ newLine (level + 1) ++ ("," ++ newLine (level + 1)).intercalate parts ++
      newLine level ++ closing

mutual

/-- A tree as JSON over several lines, its first line standing at the given level. -/
def prettyAt (level : Nat) : Tree → String
  | null => "null"
  | flag b => toString b
  | number n => toString n
  | text s => jsonText s
  | list items => bracketed level "[" "]" (prettyItems (level + 1) items)
  | record fields => bracketed level "\x7b" "\x7d" (prettyFields (level + 1) fields)

/-- The items of a list as JSON. -/
def prettyItems (level : Nat) : List Tree → List String
  | [] => []
  | item :: rest => prettyAt level item :: prettyItems level rest

/-- The fields of a record as JSON. -/
def prettyFields (level : Nat) : List (String × Tree) → List String
  | [] => []
  | (name, value) :: rest =>
    (jsonText name ++ ": " ++ prettyAt level value) :: prettyFields level rest

end

/-- A tree as JSON over several lines. -/
def pretty (tree : Tree) : String := prettyAt 0 tree

end Tree

end Wiring.Export

namespace Wiring

open Export (Tree)

/-- The settings of a container as a tree. -/
def ContainerConfig.tree (config : ContainerConfig) : Tree :=
  .record [("name", .text config.name), ("log_order", .flag config.logOrder)]

/-- The settings of an application as a tree. -/
def AppConfig.tree (config : AppConfig) : Tree :=
  .record [("name", .text config.name), ("container", config.container.tree)]

end Wiring
