import Wiring.Error
import Wiring.Text.Quoted

/-!
# Notices

A container and an application give notice of what they do. A `Notice` says what happened; its
level, its message and its named fields are how it is told.
-/

namespace Wiring

/-- How grave a notice is. -/
inductive Level where
  | info
  | warn
  | error
  deriving DecidableEq, Repr, Inhabited

/-- The word for a level. -/
def Level.name : Level → String
  | info => "INFO"
  | warn => "WARN"
  | error => "ERROR"

/-- Something that a container or an application tells. -/
inductive Notice where
  /-- A start computed its order. -/
  | orderResolved (container : String) (order : List Address)
  /-- A start succeeded, with so many services running. -/
  | started (container : String) (services : Nat)
  /-- A start failed. -/
  | startFailed (container : String) (error : Error)
  /-- So many services are about to be stopped. -/
  | stopping (container : String) (services : Nat) (wasRunning : Bool)
  /-- The stop hook of a service failed. -/
  | downFailed (service : String) (fault : Fault)
  /-- A container is given up with its history still on. -/
  | droppedUnstopped (container : String) (services : Nat)
  /-- A step of an application begins. -/
  | stepStarted (app step : String)
  /-- A step of an application succeeded. -/
  | stepFinished (app step : String)
  /-- A step of an application failed. -/
  | stepFailed (app step : String) (fault : Fault)
  /-- An application failed, and stopping it failed as well. -/
  | stopFailedToo (app : String) (fault : Fault)

namespace Notice

/-- How grave a notice is. -/
def level : Notice → Level
  | orderResolved .. | started .. | stopping .. | stepStarted .. | stepFinished .. => .info
  | downFailed .. | droppedUnstopped .. => .warn
  | startFailed .. | stepFailed .. | stopFailedToo .. => .error

/-- The message of a notice. -/
def message : Notice → String
  | orderResolved .. => "dependency order resolved"
  | started .. => "container started"
  | startFailed .. => "container failed to start"
  | stopping .. => "stopping container"
  | downFailed .. => "service failed to stop"
  | droppedUnstopped .. => "container dropped without stop"
  | stepStarted .. => "step started"
  | stepFinished .. => "step finished"
  | stepFailed .. => "step failed"
  | stopFailedToo .. => "stop failed after an earlier failure"

/-- The named fields of a notice. -/
def fields : Notice → List (String × String)
  | orderResolved container order =>
    [("container", container), ("order", Text.quotedList (order.map Address.text))]
  | started container services =>
    [("container", container), ("services", toString services)]
  | startFailed container error => [("container", container), ("error", error.message)]
  | stopping container services wasRunning =>
    [("container", container), ("services", toString services),
      ("was_running", toString wasRunning)]
  | downFailed service fault => [("service", service), ("error", fault.text)]
  | droppedUnstopped container services =>
    [("container", container), ("services", toString services)]
  | stepStarted app step | stepFinished app step => [("app", app), ("step", step)]
  | stepFailed app step fault => [("app", app), ("step", step), ("error", fault.text)]
  | stopFailedToo app fault => [("app", app), ("error", fault.text)]

end Notice

end Wiring
