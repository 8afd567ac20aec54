import Wiring.Application
import Wiring.Scenario.Host

/-!
# Playing a scenario

`perform` carries out a command on the world of a scenario. The callbacks of the scenario follow
their scripts, and a step of a script carries out commands itself, on the same container that is
calling. So the callbacks and `perform` need each other: `perform` is written for given callbacks,
and `client depth` are the callbacks in which calls may nest `depth` deep. Every nested call takes a
step of the scenario, so the number of its steps is deep enough.
-/

namespace Wiring.Scenario

open World

/-- The world of a scenario. -/
abbrev Stage := World Host

/-- Writes down an event. -/
def write (event : Event) : StateM Stage Unit := onHost (Host.write event)

/-- The text of an object at present. -/
def textOf (object : Object) : StateM Stage String := do
  pure ((← get).host.display object)

/-- The texts of several objects at present. -/
def textsOf (objects : List Object) : StateM Stage (List String) := do
  let host := (← get).host
  pure (objects.map host.display)

/-! ## Items -/

/-- Makes an item. A constructor takes the next identity. -/
def makeItem : ItemSpec → StateM Stage Item
  | .value v | .shared v => do pure (.value (← onHost (Host.makeComponent v)))
  | .constructor c => do
    let callable ← onHost (Host.makeCallable c)
    pure (.constructor ⟨← freshIdentity, callable⟩)
  | .template t => do pure (.template (← onHost (Host.makeTemplate t)))

/-- Makes items, one after the other. -/
def makeItems (specs : List ItemSpec) : StateM Stage (List Item) := specs.mapM makeItem

/-! ## Commands -/

/-- Runs an action that gives nothing but success or an error. -/
def carryOut (action : Action Host Unit) : StateM Stage Outcome := do
  pure (Outcome.ofUnit (← action.run))

/-- The outcome of something that may fail. -/
def Outcome.ofExcept {α : Type} (f : α → Outcome) : Except Error α → Outcome
  | .ok a => f a
  | .error e => failed e

/-- Changes which contexts and tokens are cancelled. -/
def changeFlags (f : Flags → Flags) : StateM Stage Unit :=
  onHost (modify fun h => { h with flags := f h.flags })

/-- Carries out a command, with the given callbacks. -/
def perform (client : Client Stage) : Command → StateM Stage Outcome
  | .register specs => do
    let items ← makeItems specs
    carryOut (Container.register items)
  | .start => carryOut (Container.start client)
  | .stop => carryOut (Container.stop client)
  | .invoke c => do
    let callable ← onHost (Host.makeCallable c)
    carryOut (Container.invoke client callable)
  | .resolve t => do
    match ← (Container.resolve t.type).run with
    | .ok object => pure (.text (← textOf object))
    | .error e => pure (.failed e)
  | .descriptors => do pure (.descriptors (← get).container.descriptors)
  | .graph => do pure (.graph (← get).container.graph)
  | .snapshot => do pure (.ofExcept .snapshot (← get).container.snapshot)
  | .render format => do
    pure (.ofExcept (fun s => .text (s.render format)) (← get).container.snapshot)
  | .describe spec => do
    let item ← makeItem spec
    pure (.item item.describe item.display)
  | .debug => do pure (.text (← get).container.display)
  | .config => do pure (.settings (← get).container.config)
  | .cancelled => do
    let world ← get
    pure (.flag (world.container.context.isCancelled world.host.flags))
  | .isEmpty => do pure (.flag (← get).container.isEmpty)
  | .cancel => do
    changeFlags (← get).container.context.cancel
    pure .done
  | .cancelParent => do
    match (← get).host.parent? with
    | some parent => changeFlags parent.cancel
    | none => pure ()
    pure .done
  | .cancelToken => do
    match (← get).host.token? with
    | some token => changeFlags token.cancel
    | none => pure ()
    pure .done
  | .note text => do
    write (.line text)
    pure .done

/-! ## Callbacks -/

/-- Carries out commands within a callback and writes down how each of them ended. -/
def performAll (client : Client Stage) : List Command → StateM Stage Unit
  | [] => pure ()
  | command :: rest => do
    let outcome ← perform client command
    write (.did command.name outcome)
    performAll client rest

/-- Carries out the commands of a step, if there are callbacks to carry them out with. -/
def act (client? : Option (Client Stage)) (commands : List Command) : StateM Stage Unit :=
  match client? with
  | some client => performAll client commands
  | none => pure ()

/-- The result of a step after its commands. -/
def verdict : Option Fault → Except Fault Unit
  | some fault => .error fault
  | none => .ok ()

/-- What a line about a start hook says of the signal that the hook received. -/
def signalText (flags : Flags) : Signal → String
  | .nothing => "plain"
  | .context c => "context cancelled=" ++ toString (c.isCancelled flags)
  | .token t => "token cancelled=" ++ toString (t.isCancelled flags)

/-- The fault of a start hook that checks the signal it received, if that is cancelled. -/
def signalFault? (flags : Flags) : Signal → Option Fault
  | .nothing => none
  | .context c =>
    match c.check flags with
    | .ok () => none
    | .error text => some (.message text)
  | .token t => if t.isCancelled flags then some (.message "token cancelled") else none

/-- Takes the values of fields one after the other: the objects, or those taken before the first
that could not be taken and the error; and the values that are left. -/
def takeAll : List FieldSpec → FieldValues → List Object × Option Error × FieldValues
  | [], values => ([], none, values)
  | field :: rest, values =>
    match values.take field.type.type field.name with
    | (.error e, values) => ([], some e, values)
    | (.ok object, values) =>
      let (objects, error?, values) := takeAll rest values
      (object :: objects, error?, values)

/-- Assembles a template as its specification says. -/
def assemble : TemplateSpec → FieldValues → StateM Stage (Except Error Product)
  | .mk _ takes error? value, values => do
    let (objects, takeError?, left) := takeAll takes values
    let texts ← textsOf objects
    let event := fun nothingLeft? =>
      Event.assembled value.type.name values.size texts nothingLeft?
    match takeError? with
    | some e =>
      write (event none)
      pure (.error e)
    | none =>
      write (event (some left.isEmpty))
      match error? with
      | some e => pure (.error e)
      | none => do pure (.ok (← onHost (Host.makeProduct value)))

/-- The callbacks of a scenario whose steps carry out commands with the given callbacks, or not at
all if there are none. -/
def callbacks (inner? : Option (Client Stage)) : Client Stage where
  construct c args := do
    let cell := (← get).host.callable c.callable.ref
    write (.called cell.name (← textsOf args))
    let .mk actions _ fault? ← onHost (Host.takeCall c.callable.ref)
    act inner? actions
    pure (verdict fault?)
  supply c position := do
    let cell := (← get).host.callable c.callable.ref
    match cell.outputs[position]? with
    | some spec => onHost (Host.makeProduct spec)
    | none => pure default
  assemble t values := do
    match (← get).host.templates[t.ref]? with
    | some spec => assemble spec values
    | none => pure (.ok default)
  up service signal := do
    write (.line ("up " ++ (← textOf service.object) ++ " " ++
      signalText (← get).host.flags signal))
    let .mk actions check fault? ← onHost (Host.takeUp service.object)
    act inner? actions
    match check, signalFault? (← get).host.flags signal with
    | true, some fault => pure (.error fault)
    | _, _ => pure (verdict fault?)
  down service := do
    write (.line ("down " ++ (← textOf service.object)))
    let .mk actions _ fault? ← onHost (Host.takeDown service.object)
    act inner? actions
    pure (verdict fault?)

/-- The callbacks of a scenario in which calls may nest to the given depth. -/
def client : Nat → Client Stage
  | 0 => callbacks none
  | depth + 1 => callbacks (some (client depth))

end Wiring.Scenario
