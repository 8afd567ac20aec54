import Wiring.World

/-!
# Starting and stopping services

A service is recorded before its start hook is called, so that a service whose start failed is still
stopped. All recorded services are stopped together, latest first, and every one of them gets its
stop whatever the others return.
-/

namespace Wiring.Container

open World

variable {σ : Type} (client : Client (World σ))

/-- Records a service under a label and calls its start hook. -/
def recordAndStart (label : String) (service : Service) : Action σ Unit := do
  let container := (← get).container
  match container.history.record ⟨label, service⟩ with
  | .error e => throw e
  | .ok history =>
    setHistory history
    match ← client.up service (container.signal service.shape) with
    | .ok () => pure ()
    | .error fault => throw (.serviceStart label fault)

/-- Calls the stop hooks of the recorded services one after the other and collects the failures. -/
def stopRecords : List Record → StateM (World σ) (List StopFailure)
  | [] => pure []
  | record :: rest => do
    match ← client.down record.service with
    | .ok () => stopRecords rest
    | .error fault =>
      announce (.downFailed record.label fault)
      let failures ← stopRecords rest
      pure (.mk record.label fault :: failures)

/-- Turns off a history that is stopping and stops its live services, latest first. -/
def unwindAll : Action σ Unit := do
  match (← get).container.history.unwind with
  | .error e => throw e
  | .ok (records, history) =>
    setHistory history
    match ← stopRecords client records with
    | [] => pure ()
    | failures => throw (.stop failures)

end Wiring.Container
