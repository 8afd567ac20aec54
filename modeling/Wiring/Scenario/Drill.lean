import Wiring.Scenario.Outcome
import Wiring.Container

/-!
# Drills

A drill tries out parts of the library on their own: a history of services whose hooks always end
alike, and contexts that are derived from each other and cancelled.
-/

namespace Wiring.Scenario

open World

/-! ## Histories -/

/-- A service of a drill: its label, and the faults of its hooks if they fail. -/
structure DrillService where
  label : String
  upFault? : Option Fault
  downFault? : Option Fault
  deriving Inhabited

/-- The program around the history of a drill: its services and the lines they wrote down. -/
structure Drill where
  services : Array DrillService
  log : List String

/-- A command on a history. -/
inductive HistoryCommand where
  | turnOn
  | beginStop
  | unwindAll
  | rewind
  | labels
  | record (service : DrillService)
  deriving Inhabited

/-- How a command on a history ended. -/
inductive HistoryOutcome where
  | done
  | failed (error : Error)
  | flag (value : Bool)
  | labels (labels : List String)
  deriving Inhabited

/-- What is told of a command on a history. -/
structure HistoryEntry where
  outcome : HistoryOutcome
  log : List String
  switch : Switch
  length : Nat
  deriving Inhabited

/-- The service of a drill that is behind an object. -/
def Drill.service (d : Drill) : Object → DrillService
  | .made ref => (d.services[ref]?).getD default
  | _ => default

/-- Writes down the call of a hook and lets it end as it always does. -/
def drillHook (verb : String) (fault? : DrillService → Option Fault) (service : Service) :
    StateM Drill (Except Fault Unit) :=
  modifyGet fun d =>
    let called := d.service service.object
    (match fault? called with
      | some fault => .error fault
      | none => .ok (),
     { d with log := d.log ++ [verb ++ " " ++ called.label] })

/-- The hooks of the services of a drill. -/
def drillClient : Client Drill where
  construct _ _ := pure (.ok ())
  supply _ _ := pure default
  assemble _ _ := pure (.ok default)
  up service _ := drillHook "up" DrillService.upFault? service
  down service := drillHook "down" DrillService.downFault? service

/-- The outcome of an action on a history. -/
def historyOutcome : Except Error Unit → HistoryOutcome
  | .ok () => .done
  | .error e => .failed e

/-- Carries out a command on a history. -/
def HistoryCommand.perform : HistoryCommand → StateM (World Drill) HistoryOutcome
  | turnOn => do
    match (← get).container.history.turnOn with
    | .ok history =>
      setHistory history
      pure .done
    | .error e => pure (.failed e)
  | beginStop => do
    match (← get).container.history.beginStop? with
    | some history =>
      setHistory history
      pure (.flag true)
    | none => pure (.flag false)
  | unwindAll => do pure (historyOutcome (← (Container.unwindAll drillClient.lift).run))
  | rewind => do
    change fun c => { c with history := c.history.rewindToLatest }
    pure .done
  | labels => do
    let (found, history) := (← get).container.history.labels
    setHistory history
    pure (.labels found)
  | record service => do
    let ref ← onHost (modifyGet fun d =>
      (d.services.size, { d with services := d.services.push service }))
    pure (historyOutcome
      (← (Container.recordAndStart drillClient.lift service.label ⟨.plain, .made ref⟩).run))

/-- Tells of a command on a history that has just ended. -/
def tellHistory (outcome : HistoryOutcome) : StateM (World Drill) HistoryEntry :=
  modifyGet fun w =>
    ({ outcome
       log := w.host.log
       switch := w.container.history.switch
       length := w.container.history.length },
     { w with host := { w.host with log := [] } })

/-- Carries out commands on a new history and tells of each. -/
def drillHistory (commands : List HistoryCommand) : List HistoryEntry :=
  let world : World Drill :=
    { container := Container.new {} default default
      nextIdentity := 1
      notices := []
      host := ⟨#[], []⟩ }
  let play := commands.mapM fun command => do tellHistory (← command.perform)
  (play.run world).1

/-! ## Contexts -/

/-- A command on the contexts of a drill, which are numbered in the order they came up. -/
inductive ContextCommand where
  | new
  | child (parent : Nat)
  | copy (of : Nat)
  | cancel (context : Nat)
  | check (context : Nat)
  | display (context : Nat)
  deriving Inhabited

/-- How a command on contexts ended. -/
inductive ContextOutcome where
  | done
  | text (text : String)
  | cancelled (text : String)
  deriving Inhabited

/-- The contexts of a drill. -/
structure Contexts where
  flags : Flags
  contexts : Array Context

namespace Contexts

/-- One context without a parent. -/
def start : Contexts :=
  let (context, flags) := Context.new .empty
  ⟨flags, #[context]⟩

/-- The context with a number. -/
def context (s : Contexts) (number : Nat) : Context := (s.contexts[number]?).getD default

/-- Adds a context. -/
def push (s : Contexts) (made : Context × Flags) : Contexts := ⟨made.2, s.contexts.push made.1⟩

/-- Carries out a command. -/
def perform (s : Contexts) : ContextCommand → ContextOutcome × Contexts
  | .new => (.done, s.push (Context.new s.flags))
  | .child parent => (.done, s.push ((s.context parent).derive s.flags))
  | .copy of => (.done, s.push (s.context of, s.flags))
  | .cancel number => (.done, { s with flags := (s.context number).cancel s.flags })
  | .check number =>
    match (s.context number).check s.flags with
    | .ok () => (.done, s)
    | .error text => (.cancelled text, s)
  | .display number => (.text ((s.context number).display s.flags), s)

/-- Which contexts are cancelled, by their numbers. -/
def cancelled (s : Contexts) : List Bool := s.contexts.toList.map (Context.isCancelled s.flags)

/-- Carries out commands, and tells of each how it ended and which contexts are cancelled then. -/
def performAll (s : Contexts) : List ContextCommand → List (ContextOutcome × List Bool)
  | [] => []
  | command :: rest =>
    let (outcome, s) := s.perform command
    (outcome, s.cancelled) :: s.performAll rest

end Contexts

end Wiring.Scenario
