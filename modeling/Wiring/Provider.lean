import Wiring.Address
import Wiring.Component
import Wiring.Error
import Wiring.Text.Quoted

/-!
# Providers

What can be registered: a component, a constructor, whose parameters are dependencies and whose
outputs are new ones, or a template, a component assembled from the dependencies in its fields.
A `Callable` is a constructor before it is wrapped; wrapping gives it an identity, so that two
constructors of the same signature have slots of their own. `FieldValues` are the dependencies
handed to the assembly of a template, each of which can be taken once.
-/

namespace Wiring

/-- The type under which a dependency of type `t` is requested: a shared handle on it. -/
abbrev ComponentType.request (t : ComponentType) : Descriptor := t.shared.descriptor

/-! ## Constructors -/

/-- A callable of the surrounding program, which knows it as `ref`. -/
structure Callable where
  params : List ComponentType
  outputs : List ComponentType
  ref : Nat
  deriving DecidableEq, Repr, Inhabited

/-- The structural signature of a callable. -/
def Callable.signature (c : Callable) : String :=
  signatureText (c.params.map fun t => t.request.name) (c.outputs.map fun t => t.descriptor.name)

/-- A callable wrapped for registration. -/
structure Constructor where
  identity : Identity
  callable : Callable
  deriving DecidableEq, Repr, Inhabited

namespace Constructor

/-- The structural signature of a constructor. -/
def signature (c : Constructor) : String := c.callable.signature

/-- The slot of a constructor, which it shares with no other. -/
def address (c : Constructor) : Address :=
  ((Descriptor.callable c.signature c.signature).placement (some c.identity)).address

end Constructor

/-! ## Templates -/

/-- A named field that holds a shared component of a type. -/
structure Field where
  name : String
  type : ComponentType
  deriving DecidableEq, Repr, Inhabited

/-- A component assembled field by field by the surrounding program, which knows it as `ref`. -/
structure Template where
  type : ComponentType
  fields : List Field
  ref : Nat
  deriving DecidableEq, Repr, Inhabited

/-- The address of a template: that of its type. -/
def Template.address (t : Template) : Address := t.type.descriptor.address

/-- The dependency in a field and the slot it came from. -/
structure FieldValue where
  name : String
  address : Address
  component : Component
  deriving DecidableEq, Repr, Inhabited

/-- The dependencies of a template at `template`, by the names of its fields. -/
structure FieldValues where
  template : Address
  values : List FieldValue
  deriving DecidableEq, Repr, Inhabited

namespace FieldValues

/-- No field has a value yet. -/
def empty (template : Address) : FieldValues := ⟨template, []⟩

/-- The values without those of one field. -/
def erase (v : FieldValues) (name : String) : FieldValues :=
  { v with values := v.values.filter fun value => value.name ≠ name }

/-- Gives a field its value, in the place of an earlier one. -/
def insert (v : FieldValues) (value : FieldValue) : FieldValues :=
  { v with values := (v.erase value.name).values ++ [value] }

/-- Takes the value out of a field. A value of another type is lost to the taker. -/
def take (v : FieldValues) (type : ComponentType) (name : String) :
    Except Error Object × FieldValues :=
  match v.values.find? fun value => value.name = name with
  | none => (.error (.missingField v.template name), v)
  | some value =>
    match value.component.share? type with
    | some object => (.ok object, v.erase name)
    | none => (.error (.typeMismatch value.address type.name), v.erase name)

/-- The number of fields that hold a value. -/
def size (v : FieldValues) : Nat := v.values.length

/-- Whether no field holds a value. -/
def isEmpty (v : FieldValues) : Bool := v.values.isEmpty

end FieldValues

/-! ## Items -/

/-- Something to register. -/
inductive Item where
  | value (component : Component)
  | constructor (constructor : Constructor)
  | template (template : Template)
  deriving DecidableEq, Repr, Inhabited

namespace Item

/-- The type name of a value or template, the signature of a constructor. -/
def describe : Item → String
  | value c => c.type.descriptor.name
  | constructor c => c.signature
  | template t => t.type.descriptor.name

/-- The word for the kind of an item. -/
def kindName : Item → String
  | value _ => "value"
  | constructor _ => "constructor"
  | template _ => "template"

/-- The text that shows an item. -/
def display (item : Item) : String :=
  "Item \x7b kind: " ++ Text.quoted item.kindName ++ ", describe: " ++
    Text.quoted item.describe ++ " \x7d"

end Item

end Wiring
