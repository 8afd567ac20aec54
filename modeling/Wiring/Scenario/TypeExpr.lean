import Wiring.Descriptor

/-!
# Types of a scenario

A scenario speaks of a fixed catalogue of types: types of its own, whose components may be services,
numbers, texts, maps, contexts and tokens, error types, functions, and pointers and collections of
other types. A `TypeExpr` is such a type; `TypeExpr.name` is its name in the catalogue and
`TypeExpr.type` the component type that containers see.
-/

namespace Wiring.Scenario

/-- A type of a scenario. -/
inductive TypeExpr where
  /-- A type of the scenario itself, with its name in the catalogue, the title under which its
  components are shown, and the component type. -/
  | own (name title : String) (type : ComponentType)
  /-- The natural numbers up to a bound. -/
  | natural (name : String) (greatest : Nat)
  /-- Texts. -/
  | text (name fullName : String)
  /-- Maps with one entry. -/
  | map (title fullName : String)
  | context
  | token
  /-- An error type. -/
  | failure (name fullName : String)
  /-- A type of functions. -/
  | function (name signature : String)
  /-- Shared handles. -/
  | shared (inner : TypeExpr)
  /-- References. -/
  | reference (inner : TypeExpr)
  /-- Arrays of a length. -/
  | array (inner : TypeExpr) (length : Nat)
  /-- Sequences with one item. -/
  | sequence (inner : TypeExpr)
  /-- Optional values that are present. -/
  | optional (inner : TypeExpr)
  deriving DecidableEq, Repr, Inhabited

namespace TypeExpr

/-- The name of a type in the catalogue. -/
def name : TypeExpr → String
  | own name _ _ | natural name _ | text name _ | failure name _ | function name _ => name
  | map title _ => title ++ "<String,u8>"
  | context => "Context"
  | token => "CancellationToken"
  | shared t => "Arc<" ++ t.name ++ ">"
  | reference t => "&" ++ t.name
  | array t n => "[" ++ t.name ++ ";" ++ toString n ++ "]"
  | sequence t => "Vec<" ++ t.name ++ ">"
  | optional t => "Option<" ++ t.name ++ ">"

/-- The component type of a type. -/
def type : TypeExpr → ComponentType
  | own _ _ type => type
  | natural name _ => .ofName name
  | text _ fullName | map _ fullName => .ofName fullName
  | context => .context
  | token => .token
  | failure _ fullName => ⟨fullName, .error fullName⟩
  | function _ signature => ⟨signature, .callable signature signature⟩
  | shared t => t.type.shared
  | reference t =>
    let name := "&" ++ t.type.name
    ⟨name, .element name t.type.descriptor⟩
  | array t n =>
    let name := "[" ++ t.type.name ++ "; " ++ toString n ++ "]"
    ⟨name, .element name t.type.descriptor⟩
  | sequence t => .ofName ("alloc::vec::Vec<" ++ t.type.name ++ ">")
  | optional t => .ofName ("core::option::Option<" ++ t.type.name ++ ">")

/-! ## The catalogue -/

/-- A type of the scenario that is declared under a name. -/
def declared (name fullName : String) : TypeExpr := own name name (.ofName fullName)

/-- One of the types `A` to `H`. -/
def letter (name : String) : TypeExpr := declared name ("app::" ++ name)

/-- The type `A`. -/
def a : TypeExpr := letter "A"

/-- The type `Pool`. -/
def pool : TypeExpr := declared "Pool" "app::db::Pool"

/-- A type that cannot be addressed. -/
def anonymous : TypeExpr := own "Anon" "Anon" ⟨"app::Anon", .anonymous "app::Anon"⟩

/-- A type that is taken for an error. -/
def errorLike : TypeExpr := own "ErrLike" "ErrLike" ⟨"app::ErrLike", .error "app::ErrLike"⟩

/-- A type that is taken for a callable. -/
def callable : TypeExpr :=
  own "Callable" "Callable" ⟨"app::Callable", .callable "app::Callable" "fn(custom) -> sig"⟩

/-- A type that is described as the type `A`. -/
def describedAsA : TypeExpr := own "Alias" "Alias" ⟨"app::Alias", .named "app::A"⟩

/-- The type `Typed` with an argument, given by its name in the catalogue and its full name. -/
def typed (argument fullName : String) : TypeExpr :=
  own ("Typed<" ++ argument ++ ">") "Typed" (.ofName ("app::db::Typed<" ++ fullName ++ ">"))

/-- Bytes. -/
def byte : TypeExpr := natural "u8" (Nat.pow 2 8 - 1)

/-- Every type of the catalogue. -/
def catalogue : List TypeExpr :=
  ["A", "B", "C", "D", "E", "F", "G", "H"].map letter ++ [
    pool,
    declared "Server" "app::net::Server",
    describedAsA,
    anonymous,
    errorLike,
    callable,
    typed "u8" "u8",
    typed "A" "app::A",
    typed "Typed<A>" "app::db::Typed<app::A>",
    shared a,
    shared (shared a),
    shared (shared (shared a)),
    shared pool,
    shared anonymous,
    shared errorLike,
    shared callable,
    shared (sequence a),
    reference a,
    reference pool,
    shared (reference a),
    array a 2,
    array a 0,
    array (shared a) 1,
    array anonymous 1,
    array byte 3,
    sequence a,
    sequence byte,
    optional a,
    map "BTreeMap" "alloc::collections::btree::map::BTreeMap<alloc::string::String, u8>",
    map "HashMap" "std::collections::hash::map::HashMap<alloc::string::String, u8>",
    byte,
    natural "u64" (Nat.pow 2 64 - 1),
    text "String" "alloc::string::String",
    context,
    token,
    failure "DiError" "bootkit::error::DiError",
    failure "io::Error" "core::io::error::Error",
    failure "anyhow::Error" "anyhow::Error",
    failure "BoxError"
      "alloc::boxed::Box<dyn core::error::Error + core::marker::Send + core::marker::Sync>",
    function "fn(u8)->u8" "fn(u8) -> u8",
    function "fn()" "fn()",
    text "str" "str",
    own "dyn Clock" "Clock" (.ofName "dyn app::Clock")]

/-- The type with a name in the catalogue. -/
def find? (name : String) : Option TypeExpr := catalogue.find? fun t => t.name = name

end TypeExpr

end Wiring.Scenario
