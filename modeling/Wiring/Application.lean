import Wiring.Container

/-!
# Applications

An application queues items and runs a container through its steps: the items are registered, the
container is started, the main program is called, and the container is stopped again. Each step
begins only if those before it succeeded, except that the container is always stopped once it was
attempted to start it. The first failure is the failure of the run.
-/

namespace Wiring

/-- An application: its settings and the items that wait to be registered. -/
structure Application where
  config : AppConfig
  queued : List Item
  deriving Repr, Inhabited

namespace Application

open World

variable {σ : Type}

/-- An application without queued items. -/
def new (config : AppConfig) : Application := ⟨config, []⟩

/-- Queues items. -/
def provide (app : Application) (items : List Item) : Application :=
  { app with queued := app.queued ++ items }

/-- The result of an action as that of a step. -/
def ofAction (action : Action σ Unit) : StateM (World σ) (Except Fault Unit) := do
  match ← action.run with
  | .ok () => pure (.ok ())
  | .error e => pure (.error (.error e))

/-- Runs a step of an application between its notices. -/
def step (app name : String) (body : StateM (World σ) (Except Fault Unit)) :
    StateM (World σ) (Except Fault Unit) := do
  announce (.stepStarted app name)
  match ← body with
  | .ok () =>
    announce (.stepFinished app name)
    pure (.ok ())
  | .error fault =>
    announce (.stepFailed app name fault)
    pure (.error fault)

/-- Starts the container and, if that succeeds, calls the main program. -/
def startAndMain (client : Client (World σ)) (main : StateM (World σ) (Except Fault Unit))
    (app : String) : StateM (World σ) (Except Fault Unit) := do
  match ← step app "start" (ofAction (Container.start client)) with
  | .ok () => step app "run" main
  | .error fault => pure (.error fault)

/-- Runs a container through the steps of an application with these items. -/
def runItems (client : Client (World σ)) (main : StateM (World σ) (Except Fault Unit))
    (app : String) (items : List Item) : StateM (World σ) (Except Fault Unit) := do
  match ← step app "register" (ofAction (Container.register items)) with
  | .error fault => pure (.error fault)
  | .ok () =>
    let primary ← startAndMain client main app
    let stopped ← step app "stop" (ofAction (Container.stop client))
    match primary, stopped with
    | .error fault, .error later =>
      announce (.stopFailedToo app later)
      pure (.error fault)
    | .error fault, .ok () => pure (.error fault)
    | .ok (), result => pure result

/-- Runs an application. Its queue is empty afterwards. -/
def run (app : Application) (client : Client (World σ))
    (main : StateM (World σ) (Except Fault Unit)) :
    StateM (World σ) (Except Fault Unit × Application) := do
  let result ← runItems client main app.config.name app.queued
  pure (result, { app with queued := [] })

/-- The text that shows an application and its container. -/
def display (app : Application) (container : Container) : String :=
  "Application \x7b name: " ++ Text.quoted app.config.name ++ ", container: " ++
    container.display ++ ", queued: " ++ toString app.queued.length ++ " \x7d"

end Application

end Wiring
