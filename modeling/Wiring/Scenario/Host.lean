import Wiring.Scenario.Outcome
import Wiring.World

/-!
# The host of a scenario

The host is the program around the container of a scenario. It makes the components, callables and
templates that the commands name, keeps the scripts that they have still to follow, knows which
contexts and tokens are cancelled, and writes down the events.
-/

namespace Wiring.Scenario

/-- How an object is shown. -/
inductive Shown where
  | atom (text : String)
  | context (context : Context)
  | token (token : Token)
  | handle (inner : Shown)
  /-- Items between brackets. -/
  | group (opening closing : String) (items : List Shown)
  deriving Repr, Inhabited

mutual

/-- The text of an object. -/
def Shown.text (flags : Flags) : Shown → String
  | .atom text => text
  | .context c => "Context:" ++ toString (c.isCancelled flags)
  | .token t => "CancellationToken:" ++ toString (t.isCancelled flags)
  | .handle inner => "Arc(" ++ inner.text flags ++ ")"
  | .group opening closing items =>
    opening ++ ",".intercalate (shownTexts flags items) ++ closing

/-- The texts of several objects. -/
def shownTexts (flags : Flags) : List Shown → List String
  | [] => []
  | item :: rest => item.text flags :: shownTexts flags rest

end

/-- A made object: how it is shown, and what its start and stop hooks have still to do. -/
structure Cell where
  shown : Shown
  up : List Step
  down : List Step
  deriving Inhabited

/-- A made callable: its name, its outputs, and what its calls have still to do. -/
structure CallableCell where
  name : String
  outputs : List ValueSpec
  script : List Step
  deriving Inhabited

/-- The program around the container of a scenario. -/
structure Host where
  flags : Flags
  /-- The parent of the context of the container, if the scenario knows it. -/
  parent? : Option Context
  /-- The token of the container, if the scenario knows it. -/
  token? : Option Token
  cells : Array Cell
  callables : Array CallableCell
  /-- What each type that has been given a template is assembled from, in the order of the types. -/
  templates : Array TemplateSpec
  /-- The events written down, oldest first. -/
  log : List Event

namespace Host

/-- Writes down an event. -/
def write (event : Event) : StateM Host Unit := modify fun h => { h with log := h.log ++ [event] }

/-- The text of an object. -/
def display (h : Host) : Object → String
  | .made ref => ((h.cells[ref]?).getD default).shown.text h.flags
  | .context c => (Shown.context c).text h.flags
  | .token t => (Shown.token t).text h.flags
  | .handle inner => "Arc(" ++ h.display inner ++ ")"

/-! ## Making objects -/

/-- A new context without a parent. -/
def newContext : StateM Host Context :=
  modifyGet fun h => let (c, flags) := Context.new h.flags; (c, { h with flags })

/-- A new token. -/
def newToken : StateM Host Token :=
  modifyGet fun h => let (t, flags) := Token.new h.flags; (t, { h with flags })

/-- The number that a label writes, or zero if it writes none up to the bound. -/
def labelNumber (greatest : Nat) (label : String) : Nat :=
  let digits := match label.toList with
    | '+' :: digits => digits
    | digits => digits
  match Text.natural? 10 digits with
  | some n => if n ≤ greatest then n else 0
  | none => 0

/-- How a new object of a type with a label is shown. -/
def shownOf (label : String) : TypeExpr → StateM Host Shown
  | .own _ title _ => pure (.atom (title ++ ":" ++ label))
  | .natural name greatest =>
    pure (.atom (name ++ ":" ++ toString (labelNumber greatest label)))
  | .text name _ => pure (.atom (name ++ ":" ++ label))
  | .map title _ => pure (.atom (title ++ ":" ++ label))
  | .context => do pure (.context (← newContext))
  | .token => do pure (.token (← newToken))
  | .failure name _ => pure (.atom name)
  | .function name _ => pure (.atom name)
  | .shared t => do pure (.handle (← shownOf label t))
  | .reference t => do pure (.group "&(" ")" [← shownOf label t])
  | .array t n => do pure (.group "[" "]" (← (List.range n).mapM fun _ => shownOf label t))
  | .sequence t => do pure (.group "Vec[" "]" [← shownOf label t])
  | .optional t => do pure (.group "Option(" ")" [← shownOf label t])

/-- Keeps a made object. -/
def keep (cell : Cell) : StateM Host Object :=
  modifyGet fun h => (.made h.cells.size, { h with cells := h.cells.push cell })

/-- A new object of a type. Only objects of the types of the scenario itself have scripts. -/
def makeObject (label : String) (up down : List Step) : TypeExpr → StateM Host Object
  | .shared t => do pure (.handle (← makeObject label up down t))
  | .context => do pure (.context (← newContext))
  | .token => do pure (.token (← newToken))
  | .own name title type => do keep ⟨← shownOf label (.own name title type), up, down⟩
  | t => do keep ⟨← shownOf label t, [], []⟩

/-- The service that an object of a type is, given the shapes it offers. Handles pass on what they
hold; only objects of the types of the scenario itself are services. -/
def serviceOf (offered : List ServiceShape) : TypeExpr → Object → Option Service
  | .shared t, .handle inner => serviceOf offered t inner
  | .own .., object => (ServiceShape.preferred? offered).map fun shape => ⟨shape, object⟩
  | _, _ => none

/-- Makes the product that a component is made of. -/
def makeProduct : ValueSpec → StateM Host Product
  | .mk type label offered up down => do
    let object ← makeObject label up down type
    pure ⟨object, serviceOf offered type object⟩

/-- Makes a component. -/
def makeComponent (spec : ValueSpec) : StateM Host Component := do
  pure (.ofProduct spec.type.type (← makeProduct spec))

/-- Makes a callable. -/
def makeCallable : ConstructorSpec → StateM Host Callable
  | .mk name params outputs script =>
    modifyGet fun h =>
      ({ params := params.map TypeExpr.type
         outputs := outputs.map fun output => output.type.type
         ref := h.callables.size },
       { h with callables := h.callables.push ⟨name, outputs, script⟩ })

/-- Makes a template. A type is assembled in one way at a time: a second template of a type changes
how the first one is assembled, too. -/
def makeTemplate (spec : TemplateSpec) : StateM Host Template :=
  modifyGet fun h =>
    let ref := h.templates.findIdx fun known => known.type = spec.type
    let templates :=
      if ref < h.templates.size then h.templates.setIfInBounds ref spec else h.templates.push spec
    ({ type := spec.type.type
       fields := spec.fields.map fun field => ⟨field.name, field.type.type⟩
       ref },
     { h with templates })

/-! ## Following scripts -/

/-- The next step of a script, and what is left of it. When it is used up there is nothing to do. -/
def nextStep : List Step → Step × List Step
  | [] => (default, [])
  | step :: rest => (step, rest)

/-- Changes the cell of an object that has one, and gives what was found there. -/
def withCell {α : Type} [Inhabited α] (object : Object) (f : Cell → α × Cell) : StateM Host α :=
  modifyGet fun h =>
    match object with
    | .made ref =>
      match h.cells[ref]? with
      | some cell =>
        let (a, cell) := f cell
        (a, { h with cells := h.cells.setIfInBounds ref cell })
      | none => (default, h)
    | _ => (default, h)

/-- Takes the next step of the start hook of an object. -/
def takeUp (object : Object) : StateM Host Step :=
  withCell object fun cell => let (step, up) := nextStep cell.up; (step, { cell with up })

/-- Takes the next step of the stop hook of an object. -/
def takeDown (object : Object) : StateM Host Step :=
  withCell object fun cell => let (step, down) := nextStep cell.down; (step, { cell with down })

/-- The callable that a reference names. -/
def callable (h : Host) (ref : Nat) : CallableCell := (h.callables[ref]?).getD default

/-- Takes the next step of a callable. -/
def takeCall (ref : Nat) : StateM Host Step :=
  modifyGet fun h =>
    let cell := h.callable ref
    let (step, script) := nextStep cell.script
    (step, { h with callables := h.callables.setIfInBounds ref { cell with script } })

end Host

end Wiring.Scenario
