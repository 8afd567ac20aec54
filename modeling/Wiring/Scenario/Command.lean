import Wiring.Export.Diagram
import Wiring.Provider
import Wiring.Scenario.TypeExpr

/-!
# Commands of a scenario

A scenario is a list of commands on a container. What the constructors, hooks and main programs in
it do is written down as well: a `Step` says which commands one call carries out and whether it
fails, and a script gives the steps of successive calls. Commands, steps and the items that commands
register contain each other.
-/

namespace Wiring.Scenario

/-- A field of a template, or a request for one. -/
structure FieldSpec where
  name : String
  type : TypeExpr
  deriving DecidableEq, Repr, Inhabited

mutual

/-- A command on a container. -/
inductive Command where
  | register (items : List ItemSpec)
  | start
  | stop
  | invoke (constructor : ConstructorSpec)
  | resolve (type : TypeExpr)
  | descriptors
  | graph
  | snapshot
  | render (format : Export.Format)
  | describe (item : ItemSpec)
  | debug
  | config
  | cancelled
  | isEmpty
  /-- Cancels the context of the container. -/
  | cancel
  /-- Cancels the parent of the context, if the scenario knows it. -/
  | cancelParent
  /-- Cancels the token of the container, if the scenario knows it. -/
  | cancelToken
  | note (text : String)

/-- What one call does: it carries out commands, fails if a start hook finds itself cancelled and
is told to check, and fails at last if there is a fault. -/
inductive Step where
  | mk (actions : List Command) (check : Bool) (fault? : Option Fault)

/-- A component to be made: its type, its label, the shapes of service it offers, and the scripts of
its start and stop hooks. -/
inductive ValueSpec where
  | mk (type : TypeExpr) (label : String) (offered : List ServiceShape) (up down : List Step)

/-- A callable to be made: its name, parameters and outputs, and the script of its calls. -/
inductive ConstructorSpec where
  | mk (name : String) (params : List TypeExpr) (outputs : List ValueSpec) (script : List Step)

/-- A template to be made: its fields, what its assembly takes out of them, the error with which
the assembly ends if there is one, and the component it ends with otherwise. -/
inductive TemplateSpec where
  | mk (fields takes : List FieldSpec) (error? : Option Error) (value : ValueSpec)

/-- An item to be made. A shared value is put behind a handle by its maker, a plain one by the
container. -/
inductive ItemSpec where
  | value (value : ValueSpec)
  | shared (value : ValueSpec)
  | constructor (constructor : ConstructorSpec)
  | template (template : TemplateSpec)

end

instance : Inhabited Command := ⟨.start⟩

/-- The step of a call whose script is used up. -/
instance : Inhabited Step := ⟨.mk [] false none⟩

/-- The type of a component to be made. -/
def ValueSpec.type : ValueSpec → TypeExpr
  | mk type .. => type

/-- The type that a template is of. -/
def TemplateSpec.type : TemplateSpec → TypeExpr
  | mk _ _ _ value => value.type

/-- The fields of a template to be made. -/
def TemplateSpec.fields : TemplateSpec → List FieldSpec
  | mk fields .. => fields

/-- The word for a command. -/
def Command.name : Command → String
  | register _ => "register"
  | start => "start"
  | stop => "stop"
  | invoke _ => "invoke"
  | resolve _ => "resolve"
  | descriptors => "descriptors"
  | graph => "graph"
  | snapshot => "export"
  | render _ => "render"
  | describe _ => "describe"
  | debug => "debug"
  | config => "config"
  | cancelled => "cancelled"
  | isEmpty => "is_empty"
  | cancel => "cancel"
  | cancelParent => "cancel_parent"
  | cancelToken => "cancel_token"
  | note _ => "note"

/-! ## Size

Commands nest as deeply as calls do, so the number of steps in a scenario bounds how deeply its
calls can nest: each call that carries out commands takes a step, and no step is taken twice. The
outputs of a constructor are made anew by each of its calls, but a callable that is invoked is
called once, and of the outputs that a registered constructor makes for a slot only the first is
stored and started.
-/

mutual

/-- The number of steps in a command. -/
def Command.steps : Command → Nat
  | .register items => itemsSteps items
  | .invoke c => c.steps
  | .describe item => item.steps
  | _ => 0

/-- The number of steps in commands. -/
def commandsSteps : List Command → Nat
  | [] => 0
  | command :: rest => command.steps + commandsSteps rest

/-- The number of steps in a step, itself included. -/
def Step.steps : Step → Nat
  | .mk actions _ _ => 1 + commandsSteps actions

/-- The number of steps in a script. -/
def scriptSteps : List Step → Nat
  | [] => 0
  | step :: rest => step.steps + scriptSteps rest

/-- The number of steps in the scripts of a component. -/
def ValueSpec.steps : ValueSpec → Nat
  | .mk _ _ _ up down => scriptSteps up + scriptSteps down

/-- The number of steps in the scripts of components. -/
def valuesSteps : List ValueSpec → Nat
  | [] => 0
  | value :: rest => value.steps + valuesSteps rest

/-- The number of steps in the scripts of a callable and of its outputs. -/
def ConstructorSpec.steps : ConstructorSpec → Nat
  | .mk _ _ outputs script => scriptSteps script + valuesSteps outputs

/-- The number of steps in the scripts of a template. -/
def TemplateSpec.steps : TemplateSpec → Nat
  | .mk _ _ _ value => value.steps

/-- The number of steps in an item. -/
def ItemSpec.steps : ItemSpec → Nat
  | .value v | .shared v => v.steps
  | .constructor c => c.steps
  | .template t => t.steps

/-- The number of steps in items. -/
def itemsSteps : List ItemSpec → Nat
  | [] => 0
  | item :: rest => item.steps + itemsSteps rest

end

end Wiring.Scenario
