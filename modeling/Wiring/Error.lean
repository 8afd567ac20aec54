import Wiring.Address

/-!
# Errors

An `Error` is what an operation of a container can fail with. Some errors carry a `Fault`, which is
what a constructor or a lifecycle hook returned; a fault may itself be an error of a container.
`Error.message` is the text of an error, `Error.address?` the slot it is about, `Error.hook?` the
fault it wraps, and `Error.sources` the texts of the causes below it.
-/

namespace Wiring

mutual

/-- Why an operation of a container failed. -/
inductive Error where
  /-- A resolved value already occupies the slot. -/
  | alreadyInitiated (address : Address)
  /-- Nothing resolved the slot. -/
  | notInitiated (address : Address)
  /-- The type cannot be addressed as a dependency. -/
  | unsupported (typeName : String)
  /-- The component in the slot is not of the requested type. -/
  | typeMismatch (address : Address) (typeName : String)
  /-- A constructor returned a fault. -/
  | constructorFailed (address : Address) (source : Fault)
  /-- A template asked for a field that holds nothing. -/
  | missingField (address : Address) (field : String)
  /-- A template could not be assembled. -/
  | assemblyFailed (address : Address) (source : Error)
  /-- The graph has a cycle, given as a closed path. -/
  | cycle (path : List String)
  /-- No order of the graph could be computed. -/
  | graphCalculation (reason : String)
  /-- The start hook of a service returned a fault. -/
  | serviceStart (label : String) (source : Fault)
  /-- Stop hooks returned faults. -/
  | stop (failures : List StopFailure)
  /-- A service is to be started that has no start hook. -/
  | unknownServiceShape (label : String)
  /-- The container runs already. -/
  | alreadyStarted
  /-- The operation needs a running container. -/
  | notStarted
  /-- The operation needs a container that does not run. -/
  | running
  /-- The history of services was driven out of order. -/
  | trackerState (reason : String)
  /-- A graph could not be rendered. -/
  | exportFailed (reason : String)
  /-- A configuration could not be read. -/
  | configInvalid (reason : String)

/-- What a constructor, a hook or a main program returns when it fails. -/
inductive Fault where
  /-- A plain message. -/
  | message (text : String)
  /-- A message put in front of an earlier fault. -/
  | context (inner : Fault) (text : String)
  /-- A failure of input or output. -/
  | device (text : String)
  /-- An error of a container. -/
  | error (inner : Error)

/-- A service whose stop hook returned a fault. -/
inductive StopFailure where
  | mk (service : String) (fault : Fault)

end

/-- The label of the service that failed to stop. -/
def StopFailure.service : StopFailure → String
  | mk service _ => service

/-- What the stop hook returned. -/
def StopFailure.fault : StopFailure → Fault
  | mk _ fault => fault

instance : Inhabited Error := ⟨.alreadyStarted⟩

instance : Inhabited Fault := ⟨.message ""⟩

/-! ## Texts -/

mutual

/-- The text of an error. -/
def Error.message : Error → String
  | .alreadyInitiated a => "dependency " ++ a.text ++ " already initiated"
  | .notInitiated a => "dependency " ++ a.text ++ " not initiated"
  | .unsupported typeName => "dependency is not supported: " ++ typeName
  | .typeMismatch a typeName => "type mismatch for " ++ a.text ++ ": expected " ++ typeName
  | .constructorFailed a source => "constructor " ++ a.text ++ " failed: " ++ source.text
  | .missingField a field => "template " ++ a.text ++ " has no resolved field " ++ field
  | .assemblyFailed a source => "template " ++ a.text ++ " failed to assemble: " ++ source.message
  | .cycle path => "dependency graph calculation failed: cycle " ++ " -> ".intercalate path
  | .graphCalculation reason => "dependency graph calculation failed: " ++ reason
  | .serviceStart label source => "service " ++ label ++ " failed to start: " ++ source.text
  | .stop failures =>
    let count := toString failures.length ++ " service(s) failed to stop"
    match failureTexts failures with
    | [] => count
    | texts => count ++ ": " ++ "; ".intercalate texts
  | .unknownServiceShape label => "unknown service shape for " ++ label
  | .alreadyStarted => "container already started"
  | .notStarted => "container not started"
  | .running => "cannot register while the container is running"
  | .trackerState reason => "service history: " ++ reason
  | .exportFailed reason => "graph export failed: " ++ reason
  | .configInvalid reason => "invalid configuration: " ++ reason

/-- The text of a fault: the message put in front last. -/
def Fault.text : Fault → String
  | .message text => text
  | .context _ text => text
  | .device text => text
  | .error inner => inner.message

/-- The text of a failed stop: the label of the service and what it returned. -/
def StopFailure.text : StopFailure → String
  | .mk service fault => service ++ ": " ++ fault.text

/-- The texts of several failed stops. -/
def failureTexts : List StopFailure → List String
  | [] => []
  | failure :: rest => failure.text :: failureTexts rest

end

/-! ## Parts of an error -/

namespace Error

/-- The text of the slot or service that an error is about, when it names one. -/
def address? : Error → Option String
  | alreadyInitiated a | notInitiated a | typeMismatch a _ | constructorFailed a _
  | missingField a _ | assemblyFailed a _ => some a.text
  | serviceStart label _ | unknownServiceShape label => some label
  | _ => none

/-- The fault that a constructor or a start hook returned, if the error wraps one. -/
def hook? : Error → Option Fault
  | constructorFailed _ source | serviceStart _ source => some source
  | _ => none

end Error

mutual

/-- The texts of the causes of an error, the nearest one first. -/
def Error.sources : Error → List String
  | .constructorFailed _ source | .serviceStart _ source => source.text :: source.sources
  | .assemblyFailed _ source => source.message :: source.sources
  | _ => []

/-- The texts of the causes below a fault, the nearest one first. -/
def Fault.sources : Fault → List String
  | .message _ | .device _ => []
  | .context inner _ => inner.text :: inner.sources
  | .error inner => inner.sources

end

/-- The error of a container that a fault carries, looked for below the messages in front. -/
def Fault.error? : Fault → Option Error
  | .message _ | .device _ => none
  | .context inner _ => inner.error?
  | .error inner => some inner

end Wiring
