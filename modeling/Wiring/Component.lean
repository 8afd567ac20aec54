import Wiring.Context
import Wiring.Descriptor

/-!
# Components

The container never looks inside the objects it keeps: an `Object` names something the surrounding
program made, a cancellation context, a token, or a shared handle on another object. A `Component`
is an object together with its type and with the way it wants to be started, if it is a service.
`Component.share?` answers a request for a shared component of a type.
-/

namespace Wiring

/-- Something a slot can hold. -/
inductive Object where
  /-- An object of the surrounding program. -/
  | made (ref : Nat)
  /-- A cancellation context. -/
  | context (context : Context)
  /-- A cancellation token. -/
  | token (token : Token)
  /-- A shared handle on an object. -/
  | handle (inner : Object)
  deriving DecidableEq, Repr, Inhabited

/-- What the start hook of a service receives. -/
inductive ServiceShape where
  /-- Nothing. -/
  | plain
  /-- The context of the container. -/
  | context
  /-- The token of the container. -/
  | token
  deriving DecidableEq, Repr, Inhabited

/-- The shape of a component that offers several: plain comes first, then context, then token. -/
def ServiceShape.preferred? (offered : List ServiceShape) : Option ServiceShape :=
  [plain, context, token].find? fun shape => offered.contains shape

/-- The object whose start and stop hooks make a component a service. -/
structure Service where
  shape : ServiceShape
  object : Object
  deriving DecidableEq, Repr, Inhabited

/-- A new object, and the service it is, if any. -/
structure Product where
  object : Object
  service? : Option Service
  deriving DecidableEq, Repr, Inhabited

/-- An object of a known type, and the service it is, if any. -/
structure Component where
  type : ComponentType
  object : Object
  service? : Option Service
  deriving DecidableEq, Repr, Inhabited

namespace Component

/-- A product as a component of a type. -/
def ofProduct (type : ComponentType) (product : Product) : Component :=
  ⟨type, product.object, product.service?⟩

/-- The context of a container as a component. -/
def ofContext (context : Context) : Component := ⟨.context, .context context, none⟩

/-- The token of a container as a component. -/
def ofToken (token : Token) : Component := ⟨.token, .token token, none⟩

/-- A shared handle on a component, for a request of type `type`: a component of that very type is
handed out behind a handle, a component that already is a handle on that type as it is. -/
def share? (c : Component) (type : ComponentType) : Option Object :=
  if c.type = type then some (.handle c.object)
  else if c.type = type.shared then some c.object
  else none

end Component

end Wiring
