import Wiring.Text.Blank

/-!
# Scope and name of a type

The full name of a type is a path such as `app::db::Pool<app::Pg>`: scopes and a last name joined
by `::`, where the last name may carry arguments in brackets. `dotted` writes the path with a dot
in front of its last name, `app::db.Pool<app::Pg>`, and leaves what stands in brackets alone. A
name that lists the bounds of an object, `dyn app::Clock + Send`, stands for its first bound.
-/

namespace Wiring.TypeName

/-- The bracket depth behind a character, given the depth before it. A closing bracket that
closes nothing leaves the depth at zero. -/
def depthAfter (depth : Nat) (c : Char) : Nat :=
  if c = '<' ∨ c = '(' ∨ c = '[' then depth + 1
  else if c = '>' ∨ c = ')' ∨ c = ']' then depth - 1
  else depth

/-- Splits a path at its last `::` outside brackets, read from the given depth on; `none` if
there is none. The two colons of a separator belong to no other separator. -/
def splitScope? : Nat → List Char → Option (List Char × List Char)
  | 0, ':' :: ':' :: rest =>
    match splitScope? 0 rest with
    | some (scope, name) => some (':' :: ':' :: scope, name)
    | none => some ([], rest)
  | depth, c :: rest =>
    match splitScope? (depthAfter depth c) rest with
    | some (scope, name) => some (c :: scope, name)
    | none => none
  | _, [] => none

/-- The part of a list of bounds in front of the first `+` outside brackets, read from the given
depth on; `none` if there is no such `+`. -/
def beforePlus? : Nat → List Char → Option (List Char)
  | _, [] => none
  | depth, c :: rest =>
    if c = '+' ∧ depth = 0 then some []
    else
      match beforePlus? (depthAfter depth c) rest with
      | some bound => some (c :: bound)
      | none => none

/-- The first of the bounds joined by `+`, without the blanks behind it. A single bound is kept
as it is. -/
def firstBound (bounds : List Char) : List Char :=
  match beforePlus? 0 bounds with
  | some bound => Text.trimEnd bound
  | none => bounds

/-- The path that a type name stands for: the first bound after `dyn `, otherwise the name. -/
def path : List Char → List Char
  | 'd' :: 'y' :: 'n' :: ' ' :: bounds => firstBound bounds
  | name => name

/-- A path with a dot between its scope and its last name. A path without a scope is unchanged. -/
def dotPath (path : List Char) : List Char :=
  match splitScope? 0 path with
  | some (scope, name) => scope ++ '.' :: name
  | none => path

/-- The dotted form of a type name. -/
def dotted (name : String) : String :=
  String.ofList (dotPath (path name.toList))

end Wiring.TypeName
