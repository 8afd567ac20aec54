import Wiring.Graph.Order
import Wiring.Tracking

/-!
# Resolution of providers

Resolution walks the addresses in their order and settles each entry: a constructor is called with
its arguments, a template is assembled from its fields, and a service that waits is started. What a
provider produces is stored at once and started if it is a service. The first failure ends the walk;
what was done before stays done.
-/

namespace Wiring

namespace Storage

/-- The components that requests for several types are answered from, up to the first that is not
answered. -/
def lookupAll (s : Storage) : List ComponentType → Except Error (List Component)
  | [] => .ok []
  | t :: rest => do
    let (_, component) ← s.lookup t
    let components ← s.lookupAll rest
    return component :: components

/-- The shared handles on components, each for the type requested; the first component of another
type is a mismatch at the address of its request. -/
def shareAll : List ComponentType → List Component → Except Error (List Object)
  | t :: types, component :: components => do
    match component.share? t with
    | some object => return object :: (← shareAll types components)
    | none => throw (.typeMismatch t.request.address t.shared.name)
  | _, _ => .ok []

/-- The arguments for parameters of the given types. All of them are looked up before the first is
handed out. -/
def arguments (s : Storage) (params : List ComponentType) : Except Error (List Object) := do
  shareAll params (← s.lookupAll params)

/-- The values of fields, put into the fields one after the other. -/
def fillFields (s : Storage) : List Field → FieldValues → Except Error FieldValues
  | [], values => .ok values
  | field :: rest, values => do
    let (address, component) ← s.lookup field.type
    s.fillFields rest (values.insert ⟨field.name, address, component⟩)

end Storage

namespace Container

open World

variable {σ : Type} (client : Client (World σ))

/-- Takes the outputs of a constructor from the given position on. -/
def supplyFrom (c : Constructor) : Nat → List ComponentType → StateM (World σ) (List Component)
  | _, [] => pure []
  | position, t :: rest => do
    let product ← client.supply c position
    let components ← supplyFrom c (position + 1) rest
    pure (.ofProduct t product :: components)

/-- Calls a constructor with arguments from the storage: its outputs. -/
def call (c : Constructor) : Action σ (List Component) := do
  let args ← liftExcept ((← get).container.storage.arguments c.callable.params)
  match ← client.construct c args with
  | .ok () => supplyFrom client c 0 c.callable.outputs
  | .error fault => throw (.constructorFailed c.address fault)

/-- Starts the service at an address. Only when its start hook succeeds does it count as running. -/
def startService (address : Address) (service : Service) : Action σ Unit := do
  recordAndStart client address.text service
  change fun c => { c with storage := c.storage.setService address .runningUp }

/-- Stores a produced component and starts it if it is a service. One that is no dependency is
dropped. -/
def absorb (component : Component) : Action σ Unit := do
  let storage ← liftExcept ((← get).container.storage.insertProduct component)
  setStorage storage
  match component.type.slot?, component.service? with
  | some address, some service => startService client address service
  | _, _ => pure ()

/-- Absorbs several components, one after the other. -/
def absorbAll : List Component → Action σ Unit
  | [] => pure ()
  | component :: rest => do
    absorb client component
    absorbAll rest

/-- Calls a constructor that has not run yet, marks it as resolved and absorbs its outputs. -/
def runConstructor (address : Address) (c : Constructor) : Action σ Unit := do
  let outputs ← call client c
  change fun c => { c with storage := c.storage.markResolved address }
  absorbAll client outputs

/-- The error of a start for an error in the assembly of a template. A missing field speaks for
itself. -/
def assemblyError (address : Address) : Error → Error
  | .missingField template field => .missingField template field
  | e => .assemblyFailed address e

/-- Assembles a template and absorbs the component in its place. -/
def runTemplate (address : Address) (t : Template) : Action σ Unit := do
  let values ← liftExcept
    ((← get).container.storage.fillFields t.fields (FieldValues.empty address))
  match ← ExceptT.lift (client.assemble t values) with
  | .ok product => absorb client (.ofProduct t.type product)
  | .error e => throw (assemblyError address e)

/-- Settles an entry: starts a resolved one that waits, runs a provider. An entry for which a second
value was registered is refused. -/
def settle (e : Entry) : Action σ Unit := do
  if e.shadowed ≠ 0 then throw (.alreadyInitiated e.address)
  else if e.isResolved then
    if e.service = .pendingUp then
      match e.service? with
      | some service => startService client e.address service
      | none => throw (.unknownServiceShape e.address.text)
    else pure ()
  else
    match e.payload with
    | .constructor c => runConstructor client e.address c
    | .template t => runTemplate client e.address t
    | .value _ => pure ()

/-- Settles the entries at addresses in turn. Where nothing is stored there is nothing to settle. -/
def settleAll : List Address → Action σ Unit
  | [] => pure ()
  | address :: rest => do
    match (← get).container.storage.get? address with
    | some e => settle client e
    | none => pure ()
    settleAll rest

/-- Computes the order of the storage and settles it. -/
def resolveAll : Action σ Unit := do
  let container := (← get).container
  setHistory (← liftExcept container.history.turnOn)
  let order ← liftExcept container.storage.graph.order
  if container.config.logOrder then
    announce (.orderResolved container.config.name order)
  settleAll client order
  change fun c => { c with history := c.history.rewindToLatest }

end Container

end Wiring
