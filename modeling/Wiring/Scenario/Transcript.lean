import Wiring.Scenario.Play

/-!
# Transcripts

A transcript tells of every command of a scenario how it ended, which events and notices came with
it, and how the container stood afterwards; at its end are the notices given when the container is
given up. `onContainer` and `onApplication` play scenarios for a container alone and for an
application.
-/

namespace Wiring.Scenario

open World

/-- How the container of a scenario is made. -/
inductive Setup where
  /-- With settings, a new context and a new token. -/
  | settings (config : ContainerConfig)
  /-- With a context derived from one that the scenario keeps, cancelled beforehand or not. -/
  | context (cancelled : Bool)
  /-- With a token that the scenario keeps, cancelled beforehand or not. -/
  | token (cancelled : Bool)
  deriving Inhabited

/-- The world of a scenario before its first command. -/
def Setup.stage (setup : Setup) : Stage :=
  let (root, flags) := Context.new .empty
  let (derived, flags) := root.derive flags
  let (ticket, flags) := Token.new flags
  let host : Host :=
    { flags, parent? := none, token? := none, cells := #[], callables := #[], templates := #[]
      log := [] }
  let stage := fun config context host =>
    { container := Container.new config context ticket, nextIdentity := 1, notices := [], host }
  match setup with
  | .settings config => stage config root host
  | .context cancelled =>
    let flags := if cancelled then derived.cancel flags else flags
    stage {} derived { host with flags, parent? := some root }
  | .token cancelled =>
    let flags := if cancelled then ticket.cancel flags else flags
    stage {} root { host with flags, token? := some ticket }

/-- How a command ended, and how the container stood afterwards. -/
structure Entry where
  outcome : Outcome
  log : List Event
  running : Bool
  size : Nat
  started : List String
  notices : List Notice
  deriving Inhabited

/-- A told scenario. -/
structure Transcript where
  entries : List Entry
  /-- The notices given when the container is given up. -/
  dropNotices : List Notice

/-- The entry for a command that has just ended. Its events and notices are not told again. -/
def tell (outcome : Outcome) : StateM Stage Entry :=
  modifyGet fun w =>
    ({ outcome
       log := w.host.log
       running := w.container.running
       size := w.container.size
       started := w.container.started
       notices := w.notices },
     { w with notices := [], host := { w.host with log := [] } })

/-- Plays a scenario for a container alone. -/
def onContainer (setup : Setup) (commands : List Command) : Transcript :=
  let callbacks := client (commandsSteps commands)
  let play := commands.mapM fun command => do tell (← perform callbacks command)
  let (entries, world) := play.run setup.stage
  { entries, dropNotices := world.container.dropNotices }

/-! ## Applications -/

/-- A command on an application. -/
inductive AppCommand where
  | provide (items : List ItemSpec)
  /-- Runs the application with a main program that makes one step. -/
  | run (main : Step)
  | display
  | settings
  /-- A command on its container. -/
  | container (command : Command)
  deriving Inhabited

/-- The number of steps in a command on an application. -/
def AppCommand.steps : AppCommand → Nat
  | provide items => itemsSteps items
  | run main => main.steps
  | container command => command.steps
  | _ => 0

/-- The main program that makes a step. -/
def mainOf (client : Client Stage) : Step → StateM Stage (Except Fault Unit)
  | .mk actions _ fault? => do
    write (.line "main")
    performAll client actions
    pure (verdict fault?)

/-- The outcome of a run: the error of a container that its fault carries, or else the text of the
fault. -/
def runOutcome : Except Fault Unit → Outcome
  | .ok () => .done
  | .error fault =>
    match fault.error? with
    | some e => .failed e
    | none => .faulted fault.text

/-- Carries out a command on an application. -/
def performApp (client : Client Stage) (app : Application) :
    AppCommand → StateM Stage (Outcome × Application)
  | .provide specs => do
    let items ← makeItems specs
    pure (.done, app.provide items)
  | .run main => do
    let (result, app) ← app.run client (mainOf client main)
    pure (runOutcome result, app)
  | .display => do pure (.text (app.display (← get).container), app)
  | .settings => pure (.appSettings app.config, app)
  | .container command => do pure (← perform client command, app)

/-- Carries out commands on an application. -/
def performAppAll (client : Client Stage) (app : Application) :
    List AppCommand → StateM Stage (List Entry)
  | [] => pure []
  | command :: rest => do
    let (outcome, app) ← performApp client app command
    let entry ← tell outcome
    let entries ← performAppAll client app rest
    pure (entry :: entries)

/-- Plays a scenario for an application, with a container of its own or with one that is made as
the setup says. -/
def onApplication (config : AppConfig) (setup? : Option Setup) (commands : List AppCommand) :
    Transcript :=
  let callbacks := client ((commands.map AppCommand.steps).foldl (· + ·) 0)
  let setup := setup?.getD (.settings config.container)
  let (entries, world) := (performAppAll callbacks (.new config) commands).run setup.stage
  { entries, dropNotices := world.container.dropNotices }

end Wiring.Scenario
