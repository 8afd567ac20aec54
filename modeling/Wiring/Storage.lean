import Wiring.Provider
import Wiring.Table

/-!
# Storage

The storage holds at most one entry per address. An entry is a provider that has not run yet or a
resolved value, and it knows how far its service has come. A resolved value is never replaced: a
provider or product for its slot is refused, and a plain value registered for it is only counted.
-/

namespace Wiring

/-- Whether an entry is still to be resolved. -/
inductive Relation where
  | newlyRegistered
  | resolvedValue
  deriving DecidableEq, Repr, Inhabited

/-- The word for a relation. -/
def Relation.name : Relation → String
  | newlyRegistered => "NewlyRegistered"
  | resolvedValue => "ResolvedValue"

/-- What was registered under an address. -/
inductive Kind where
  | callable
  | composite
  | other
  deriving DecidableEq, Repr, Inhabited

/-- The word for a kind. -/
def Kind.name : Kind → String
  | callable => "Callable"
  | composite => "Composite"
  | other => "Other"

/-- How far the service of an entry has come. -/
inductive ServiceState where
  | notAService
  | pendingUp
  | runningUp
  deriving DecidableEq, Repr, Inhabited

/-- The word for a service state. -/
def ServiceState.name : ServiceState → String
  | notAService => "NotAService"
  | pendingUp => "PendingUp"
  | runningUp => "RunningUp"

/-- What an entry holds. -/
inductive Payload where
  | value (component : Component)
  | constructor (constructor : Constructor)
  | template (template : Template)
  deriving DecidableEq, Repr, Inhabited

/-- One slot for a dependency. What kind of thing was registered, the service to be started and the
type name are not kept beside the payload. They are derived from it (`Entry.kind`, `Entry.service?`,
`Entry.descriptor`), since an entry never changes its payload: another entry takes its place. -/
structure Entry where
  address : Address
  payload : Payload
  relation : Relation
  service : ServiceState
  /-- How many plain values were registered for the slot after it was resolved. -/
  shadowed : Nat
  deriving DecidableEq, Repr, Inhabited

namespace Entry

/-- The entry of a component: resolved, and waiting to be started if it is a service. -/
def resolved (address : Address) (c : Component) : Entry :=
  { address
    payload := .value c
    relation := .resolvedValue
    service := if c.service?.isSome then .pendingUp else .notAService
    shadowed := 0 }

/-- The entry of a provider that has not run yet. -/
def provider (address : Address) (payload : Payload) : Entry :=
  { address, payload, relation := .newlyRegistered, service := .notAService, shadowed := 0 }

/-- What was registered. -/
def kind (e : Entry) : Kind :=
  match e.payload with
  | .value _ => .other
  | .constructor _ => .callable
  | .template _ => .composite

/-- The service to be started for the entry. -/
def service? (e : Entry) : Option Service :=
  match e.payload with
  | .value c => c.service?
  | _ => none

/-- The component that the entry delivers, once it is resolved. -/
def component? (e : Entry) : Option Component :=
  match e.payload, e.relation with
  | .value c, .resolvedValue => some c
  | _, _ => none

/-- Whether the entry is resolved. -/
def isResolved (e : Entry) : Bool := e.relation = .resolvedValue

end Entry

/-- What is known of an entry from outside. -/
structure EntryDescriptor where
  address : Address
  relation : Relation
  kind : Kind
  service : ServiceState
  /-- The type name of a value or template, the signature of a constructor. -/
  typeName : String
  deriving DecidableEq, Repr, Inhabited

namespace EntryDescriptor

/-- Whether the entry is resolved. -/
def isResolved (d : EntryDescriptor) : Bool := d.relation = .resolvedValue

/-- Whether the entry is a service. -/
def isService (d : EntryDescriptor) : Bool := d.service ≠ .notAService

/-- Whether the entry is a constructor. -/
def isConstructor (d : EntryDescriptor) : Bool := d.kind = .callable

end EntryDescriptor

/-- The descriptor of an entry. -/
def Entry.descriptor (e : Entry) : EntryDescriptor :=
  { address := e.address
    relation := e.relation
    kind := e.kind
    service := e.service
    typeName :=
      match e.payload with
      | .value c => c.type.descriptor.name
      | .constructor c => c.signature
      | .template t => t.type.descriptor.name }

/-- The entries by their addresses. -/
structure Storage where
  table : Table Address Entry
  deriving Repr, Inhabited

namespace Storage

/-- The storage without entries. -/
def empty : Storage := ⟨.empty⟩

/-- The entry at an address. -/
def get? (s : Storage) (address : Address) : Option Entry := s.table.get? address

/-- The entries, ordered by address. -/
def entries (s : Storage) : List Entry := s.table.values

/-- The number of entries. -/
def size (s : Storage) : Nat := s.table.size

/-- The descriptors of the entries, ordered by address. -/
def descriptors (s : Storage) : List EntryDescriptor := s.entries.map Entry.descriptor

/-- Stores an entry under its address, unless a resolved value is there. -/
def insert (s : Storage) (e : Entry) : Except Error Storage :=
  match s.get? e.address with
  | some existing =>
    if existing.isResolved then .error (.alreadyInitiated e.address)
    else .ok ⟨s.table.put e.address e⟩
  | none => .ok ⟨s.table.put e.address e⟩

/-- Stores a produced component as resolved. One that is no dependency is dropped. -/
def insertProduct (s : Storage) (c : Component) : Except Error Storage :=
  match c.type.slot? with
  | none => .ok s
  | some address => s.insert (.resolved address c)

/-- Stores a registered component as resolved. If its slot is resolved already it is not stored but
counted there; one that is no dependency is dropped. -/
def insertValue (s : Storage) (c : Component) : Storage :=
  match c.type.slot? with
  | none => s
  | some address =>
    match s.get? address with
    | some existing =>
      if existing.isResolved then
        ⟨s.table.update address fun e => { e with shadowed := e.shadowed + 1 }⟩
      else ⟨s.table.put address (.resolved address c)⟩
    | none => ⟨s.table.put address (.resolved address c)⟩

/-- Adds a registered item. An item whose type is no dependency is dropped. -/
def add (s : Storage) : Item → Except Error Storage
  | .value c => .ok (s.insertValue c)
  | .constructor c => s.insert (.provider c.address (.constructor c))
  | .template t =>
    match t.type.slot? with
    | none => .ok s
    | some address => s.insert (.provider address (.template t))

/-- The component that a request for type `type` is answered from, and its slot. -/
def lookup (s : Storage) (type : ComponentType) : Except Error (Address × Component) :=
  let place := type.request.placement none
  if place.addressable then
    match (s.get? place.address).bind Entry.component? with
    | some c => .ok (place.address, c)
    | none => .error (.notInitiated place.address)
  else .error (.unsupported type.request.name)

/-- Marks the entry at an address as resolved. -/
def markResolved (s : Storage) (address : Address) : Storage :=
  ⟨s.table.update address fun e => { e with relation := .resolvedValue }⟩

/-- Sets how far the service at an address has come. -/
def setService (s : Storage) (address : Address) (state : ServiceState) : Storage :=
  ⟨s.table.update address fun e => { e with service := state }⟩

/-- Lets every running service wait for its next start. -/
def resetRunning (s : Storage) : Storage :=
  ⟨s.table.mapValues fun e =>
    if e.service = .runningUp then { e with service := .pendingUp } else e⟩

end Storage

end Wiring
