import Wiring.Export.Snapshot
import Wiring.Resolution

/-!
# Containers

Items are registered into a container that does not run. `start` resolves them and starts the
services among them, in the order of their dependencies; `stop` stops the started services, latest
first. While the container runs, `invoke` calls a callable with arguments from the storage, and
`resolve` hands out a component. A start that fails leaves its services to be stopped, and no other
start is accepted before that.
-/

namespace Wiring

namespace Container

open World

variable {σ : Type}

/-- A container whose context and token are its only entries. -/
def new (config : ContainerConfig) (context : Context) (token : Token) : Container :=
  let seeds := [Component.ofContext context, Component.ofToken token]
  { config
    running := false
    storage := seeds.foldl Storage.insertValue Storage.empty
    history := .empty
    context
    token }

/-! ## Operations -/

/-- Adds items one after the other, up to the first that is refused. -/
def addItems : List Item → Action σ Unit
  | [] => pure ()
  | item :: rest => do
    let storage ← liftExcept ((← get).container.storage.add item)
    setStorage storage
    addItems rest

/-- Registers items into a container that does not run. -/
def register (items : List Item) : Action σ Unit := do
  if (← get).container.running then throw .running
  else addItems items

/-- Resolves what is registered and starts the services. -/
def start (client : Client (World σ)) : Action σ Unit := do
  let container := (← get).container
  if container.running then throw .alreadyStarted
  else
    setRunning true
    let name := container.config.name
    match ← (resolveAll client).attempt with
    | .ok () =>
      announce (.started name (← get).container.history.length)
    | .error e =>
      setRunning false
      announce (.startFailed name e)
      throw e

/-- Starts the services among the outputs of a callable, without storing anything. -/
def startOutputs (client : Client (World σ)) : List Component → Action σ Unit
  | [] => pure ()
  | component :: rest => do
    match component.service? with
    | some service => recordAndStart client component.type.descriptor.address.text service
    | none => pure ()
    startOutputs client rest

/-- Calls a callable with arguments from the storage of a running container. -/
def invoke (client : Client (World σ)) (callable : Callable) : Action σ Unit := do
  if (← get).container.running then
    let identity ← freshIdentity
    startOutputs client (← call client ⟨identity, callable⟩)
  else throw .notStarted

/-- Stops the started services, latest first. A container without a history that is on has nothing
to stop. -/
def stop (client : Client (World σ)) : Action σ Unit := do
  let container := (← get).container
  setRunning false
  match container.history.beginStop? with
  | none => pure ()
  | some history =>
    setHistory history
    announce (.stopping container.config.name history.length container.running)
    let result ← (unwindAll client).attempt
    change fun c => { c with storage := c.storage.resetRunning }
    liftExcept result

/-- A shared handle on the component of a type, from a running container. -/
def resolve (type : ComponentType) : Action σ Object := do
  let container := (← get).container
  if container.running then
    let (address, component) ← liftExcept (container.storage.lookup type)
    match component.share? type with
    | some object => pure object
    | none => throw (.typeMismatch address type.name)
  else throw .notStarted

/-! ## Views -/

/-- The number of entries, the context and the token of the container among them. -/
def size (c : Container) : Nat := c.storage.size

/-- Whether there are no entries. -/
def isEmpty (c : Container) : Bool := c.size = 0

/-- The descriptors of the entries, ordered by address. -/
def descriptors (c : Container) : List EntryDescriptor := c.storage.descriptors

/-- The labels of the started services, in the order of their starts. -/
def started (c : Container) : List String := c.history.labels.1

/-- The dependency graph of the entries. -/
def graph (c : Container) : Graph := c.storage.graph

/-- A snapshot of the dependency graph. -/
def snapshot (c : Container) : Except Error Export.Snapshot :=
  Export.Snapshot.ofStorage c.config.name c.storage

/-- The text that shows a container. -/
def display (c : Container) : String :=
  "Container \x7b name: " ++ Text.quoted c.config.name ++ ", running: " ++ toString c.running ++
    ", entries: " ++ toString c.size ++ ", tracker: " ++ c.history.switch.name ++ " \x7d"

/-- The notices given when a container is given up. -/
def dropNotices (c : Container) : List Notice :=
  match c.history.switch with
  | .on => [.droppedUnstopped c.config.name c.history.length]
  | _ => []

end Container

end Wiring
