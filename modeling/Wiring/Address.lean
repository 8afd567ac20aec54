import Wiring.Descriptor
import Wiring.TypeName

/-!
# Addresses

An `Address` is the text that identifies a slot for a dependency. `Descriptor.placement` derives
it from a descriptor: named types live at their dotted name, layers over a named type live where
the type itself does, and a callable has a place of its own only together with an `Identity`.
Errors, unidentified callables and anonymous types have a text but no slot.
-/

namespace Wiring

/-- The text that identifies a slot. -/
structure Address where
  text : String
  deriving DecidableEq, Repr, Inhabited

namespace Address

/-- Addresses are ordered as their texts are, by code point. -/
instance : LT Address := ⟨fun a b => a.text < b.text⟩

instance : DecidableLT Address := fun a b => inferInstanceAs (Decidable (a.text < b.text))

instance : Std.Irrefl (α := Address) (· < ·) := ⟨fun a => String.lt_irrefl a.text⟩

instance : Trans (α := Address) (· < ·) (· < ·) (· < ·) := ⟨String.lt_trans⟩

instance : Std.Trichotomous (α := Address) (· < ·) where
  trichotomous a b hab hba := by
    obtain ⟨s⟩ := a
    obtain ⟨t⟩ := b
    exact congrArg mk (Std.Trichotomous.trichotomous (r := (· < ·)) s t hab hba)

/-- The text derived for every error type. Nothing is ever stored there. -/
def ofErrors : Address := ⟨"error"⟩

end Address

/-- The serial number given to a callable when it is wrapped for registration. -/
abbrev Identity := Nat

/-- Where a descriptor leads: an address, and whether a component may be provided there. -/
structure Placement where
  address : Address
  addressable : Bool
  deriving DecidableEq, Repr

/-- The placement of a descriptor, bound to the identity of a value if there is one. Of a layer
the element decides, and an identity is never passed on to it. -/
def Descriptor.placement : Descriptor → Option Identity → Placement
  | .named name, _ => ⟨⟨TypeName.dotted name⟩, true⟩
  | .error _, _ => ⟨Address.ofErrors, false⟩
  | .element name inner, _ =>
    match inner with
    | .named _ | .element _ _ => inner.placement none
    | _ => ⟨⟨name⟩, false⟩
  | .callable _ signature, some identity => ⟨⟨signature ++ "#" ++ toString identity⟩, true⟩
  | .callable _ signature, none => ⟨⟨signature⟩, false⟩
  | .anonymous name, _ => ⟨⟨name⟩, false⟩

/-- The address derived for a descriptor without a value identity. -/
def Descriptor.address (d : Descriptor) : Address := (d.placement none).address

/-- The slot of a type, if its components may be provided at all. -/
def ComponentType.slot? (t : ComponentType) : Option Address :=
  let place := t.descriptor.placement none
  if place.addressable then some place.address else none

end Wiring
