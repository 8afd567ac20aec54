import Wiring.Config.Settings
import Wiring.Graph.OfStorage
import Wiring.History
import Wiring.Notice

/-!
# The world of a container

A container keeps components and their lifecycle, but what its constructors, templates and services
do belongs to the program around it. That program is a `Client`: the callbacks, each of which may
change a state. The `World` is the state of a container together with that of the program, the
serial numbers given out and the notices given so far. A callback may reach the whole world, and so
call the container it is called by; one that cannot is lifted from the state of the program alone.
-/

namespace Wiring

/-- A container: its settings, whether it runs, what it stores, the services it started, and the
context and token that services receive. -/
structure Container where
  config : ContainerConfig
  running : Bool
  storage : Storage
  history : History
  context : Context
  token : Token
  deriving Repr, Inhabited

/-- What a start hook receives. -/
inductive Signal where
  | nothing
  | context (context : Context)
  | token (token : Token)
  deriving DecidableEq, Repr, Inhabited

/-- What a container passes to the start hook of a service of the given shape. -/
def Container.signal (c : Container) : ServiceShape → Signal
  | .plain => .nothing
  | .context => .context c.context
  | .token => .token c.token

/-- The callbacks of the program around a container, on states of type `σ`. -/
structure Client (σ : Type) where
  /-- Calls a constructor with its arguments. -/
  construct : Constructor → List Object → StateM σ (Except Fault Unit)
  /-- Hands over the output at a position of a constructor that was called with success. -/
  supply : Constructor → Nat → StateM σ Product
  /-- Assembles a template from the values of its fields. -/
  assemble : Template → FieldValues → StateM σ (Except Error Product)
  /-- Calls the start hook of a service. -/
  up : Service → Signal → StateM σ (Except Fault Unit)
  /-- Calls the stop hook of a service. -/
  down : Service → StateM σ (Except Fault Unit)

/-- A container and the program around it. -/
structure World (σ : Type) where
  container : Container
  /-- The identity of the constructor that is wrapped next. -/
  nextIdentity : Identity
  /-- The notices given, oldest first. -/
  notices : List Notice
  /-- The state of the program. -/
  host : σ

/-- An operation on the world that may fail. What it did before it failed stays done. -/
abbrev Action (σ : Type) := ExceptT Error (StateM (World σ))

variable {σ : Type}

/-- Runs an action and reports how it ended. -/
def Action.attempt {α : Type} (action : Action σ α) : Action σ (Except Error α) :=
  ExceptT.lift action.run

namespace World

/-- Runs a callback on the state of the program. -/
def onHost {α : Type} (callback : StateM σ α) : StateM (World σ) α := fun w =>
  let (a, host) := callback w.host
  (a, { w with host })

section

variable {m : Type → Type} [MonadState (World σ) m]

/-- Changes the container. -/
def change (f : Container → Container) : m Unit :=
  modify fun w => { w with container := f w.container }

/-- Replaces the storage of the container. -/
def setStorage (storage : Storage) : m Unit := change ({ · with storage })

/-- Replaces the history of the container. -/
def setHistory (history : History) : m Unit := change ({ · with history })

/-- Sets whether the container runs. -/
def setRunning (running : Bool) : m Unit := change ({ · with running })

/-- Gives a notice. -/
def announce (notice : Notice) : m Unit :=
  modify fun w => { w with notices := w.notices ++ [notice] }

/-- Gives out the next identity. -/
def freshIdentity : m Identity :=
  modifyGet fun w => (w.nextIdentity, { w with nextIdentity := w.nextIdentity + 1 })

end

end World

/-- The callbacks of a program that cannot reach the container. -/
def Client.lift (client : Client σ) : Client (World σ) where
  construct c args := World.onHost (client.construct c args)
  supply c position := World.onHost (client.supply c position)
  assemble t values := World.onHost (client.assemble t values)
  up service signal := World.onHost (client.up service signal)
  down service := World.onHost (client.down service)

end Wiring
