import Wiring.Config.Source

/-!
# Settings of containers and applications

Settings have defaults and are loaded from a source key by key; whatever is missing or malformed
keeps its default.
-/

namespace Wiring

/-- The settings of a container. -/
structure ContainerConfig where
  /-- The name that notices give. -/
  name : String := "container"
  /-- Whether a start announces the order it computed. -/
  logOrder : Bool := true
  deriving DecidableEq, Repr, Inhabited

/-- The settings of an application. -/
structure AppConfig where
  name : String := "app"
  container : ContainerConfig := {}
  deriving DecidableEq, Repr, Inhabited

namespace ContainerConfig

/-- Loads the keys `container_name` and `log_order`. An order setting that is no flag is ignored. -/
def load (source : Config.Source) : ContainerConfig :=
  let default : ContainerConfig := {}
  { name := ((source.get? "container_name").map Config.Value.toText).getD default.name
    logOrder := ((source.get? "log_order").bind Config.Value.flag?).getD default.logOrder }

end ContainerConfig

namespace AppConfig

/-- Loads the key `name` and the settings of the container. -/
def load (source : Config.Source) : AppConfig :=
  let default : AppConfig := {}
  { name := ((source.get? "name").map Config.Value.toText).getD default.name
    container := ContainerConfig.load source }

/-- The leading word of the environment variables that `fromEnvironment` reads. -/
def environmentLead : String := "BOOTKIT"

/-- Loads the settings from the variables of an environment. -/
def fromEnvironment (environment : List (String × String)) : AppConfig :=
  load (.ofEnvironment environment (some environmentLead))

end AppConfig

end Wiring
