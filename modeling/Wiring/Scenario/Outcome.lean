import Wiring.Scenario.Command

/-!
# Outcomes and events of a scenario

Every command has an outcome. Between outcomes lie events: what the callbacks of the scenario wrote
down when they were called.
-/

namespace Wiring.Scenario

/-- How a command ended. -/
inductive Outcome where
  | done
  | failed (error : Error)
  /-- A main program failed with a fault that carries no error of a container. -/
  | faulted (text : String)
  | text (text : String)
  | flag (value : Bool)
  | descriptors (descriptors : List EntryDescriptor)
  | graph (graph : Graph)
  | snapshot (snapshot : Export.Snapshot)
  /-- How an item describes and shows itself. -/
  | item (description display : String)
  | settings (config : ContainerConfig)
  | appSettings (config : AppConfig)
  deriving Inhabited

/-- The outcome of an operation that gives nothing but success or an error. -/
def Outcome.ofUnit : Except Error Unit → Outcome
  | .ok () => done
  | .error e => failed e

/-- Something that was written down. -/
inductive Event where
  | line (text : String)
  /-- A constructor was called with arguments. -/
  | called (name : String) (args : List String)
  /-- A template of a type was assembled from so many values, of which these were taken; the flag
  says whether none was left over, and is missing if one could not be taken. -/
  | assembled (type : String) (given : Nat) (taken : List String) (nothingLeft? : Option Bool)
  /-- A callback carried out a command. -/
  | did (command : String) (outcome : Outcome)
  deriving Inhabited

end Wiring.Scenario
