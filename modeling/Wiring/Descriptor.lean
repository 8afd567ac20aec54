/-!
# Descriptors of types

A `Descriptor` says of a type what addressing needs to know: its full name and whether it is a
named type, an error, a layer (pointer, reference, array) over an element, a callable with a
signature, or none of these. A `ComponentType` is a type as providers use it. It has a name of its
own beside its descriptor, because a type may be described as another one and then shares the
place of that one.
-/

namespace Wiring

/-- What addressing knows of a type. Every case carries the full name of the type. -/
inductive Descriptor where
  /-- A type declared under a name. -/
  | named (name : String)
  /-- An error: a control signal, never a dependency. -/
  | error (name : String)
  /-- A layer over an element: a pointer, a reference or an array. -/
  | element (name : String) (inner : Descriptor)
  /-- A callable with its structural signature. -/
  | callable (name signature : String)
  /-- A type that cannot be addressed. -/
  | anonymous (name : String)
  deriving DecidableEq, Repr, Inhabited

namespace Descriptor

/-- The full name of the described type. -/
def name : Descriptor → String
  | named n | error n | element n _ | callable n _ | anonymous n => n

/-- Whether the described type is an error. -/
def isError : Descriptor → Bool
  | error _ => true
  | _ => false

end Descriptor

/-- The structural signature of a callable, given the type names of its parameters and outputs:
`fn(a, b)`, followed by ` -> c` for one output and ` -> (c, d)` for several. -/
def signatureText (params outputs : List String) : String :=
  let inputs := "fn(" ++ ", ".intercalate params ++ ")"
  match outputs with
  | [] => inputs
  | [output] => inputs ++ " -> " ++ output
  | outputs => inputs ++ " -> (" ++ ", ".intercalate outputs ++ ")"

/-- A type of components: its own name and the descriptor under which it is addressed. -/
structure ComponentType where
  name : String
  descriptor : Descriptor
  deriving DecidableEq, Repr, Inhabited

namespace ComponentType

/-- The type of shared handles on components of a type: one more layer over its descriptor. -/
def shared (t : ComponentType) : ComponentType :=
  let name := "alloc::sync::Arc<" ++ t.name ++ ">"
  ⟨name, .element name t.descriptor⟩

/-- The type declared under a name. -/
def ofName (name : String) : ComponentType := ⟨name, .named name⟩

/-- The type of cancellation contexts. -/
def context : ComponentType := ofName "bootkit::cancellation::Context"

/-- The type of cancellation tokens. -/
def token : ComponentType := ofName "tokio_util::sync::cancellation_token::CancellationToken"

end ComponentType

end Wiring
