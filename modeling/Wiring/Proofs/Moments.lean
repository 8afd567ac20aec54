import Wiring.Proofs.Recording

/-!
# Moments of a run

A constructor, a template or a hook may call the container that called it, and this may lead to
further callbacks, which may do so again. A `Program` has its callbacks as scripts that look at the
container and perform operations on it. `Program.moments` are the moments at which the container and
the program meet: the beginning of a run, each call of a callback, and the end of each operation,
nested ones included, all in their order in time and each with the container as it was then. A
program that cannot reach the container is the special case of scripts without operations
(`Client.program`).
-/

namespace Wiring

variable {σ α : Type}

/-! ## Programs that call the container -/

/-- What a callback does: it looks at the container, performs operations on it, and ends with an
answer. In between it may change the state of the program. -/
inductive Script (σ α : Type) where
  | finish (state : σ) (answer : α)
  | look (next : σ → Container → Script σ α)
  | perform (state : σ) (op : Operation) (next : Except Error (Option Object) → Script σ α)

/-- The callbacks of a program that can reach the container by its operations. -/
structure Program (σ : Type) where
  construct : Constructor → List Object → Script σ (Except Fault Unit)
  supply : Constructor → Nat → Script σ Product
  assemble : Template → FieldValues → Script σ (Except Error Product)
  up : Service → Signal → Script σ (Except Fault Unit)
  down : Service → Script σ (Except Fault Unit)

/-- The script of a callback that reaches the state of the program only. -/
def Script.ofState (callback : StateM σ α) : Script σ α :=
  .look fun state _ => .finish (callback state).2 (callback state).1

/-- A program that cannot reach the container. -/
def Client.program (client : Client σ) : Program σ where
  construct c args := .ofState (client.construct c args)
  supply c position := .ofState (client.supply c position)
  assemble t values := .ofState (client.assemble t values)
  up service signal := .ofState (client.up service signal)
  down service := .ofState (client.down service)

/-! ## The log of a run -/

/-- What happens at a moment. -/
inductive Event where
  /-- The run begins. -/
  | begins
  /-- A callback is called, with the answer that it will come to. -/
  | calls (call : Call)
  /-- An operation ends with a result. -/
  | ends (op : Operation) (result : Except Error (Option Object))

/-- What happens, and the container at that moment. -/
structure Moment where
  container : Container
  event : Event

/-- The call that is made at a moment. -/
def Moment.call? (m : Moment) : Option Call :=
  match m.event with
  | .calls call => some call
  | _ => none

/-- The state of a program together with the moments so far, earliest first. -/
structure Logged (σ : Type) where
  state : σ
  moments : List Moment

namespace World

/-- The world in which nothing is logged yet. -/
def unlogged (w : World σ) : World (Logged σ) := { w with host := ⟨w.host, []⟩ }

/-- Runs a callback and logs its call, ahead of the moments to which the callback itself leads. -/
def logging (callback : StateM (World (Logged σ)) α) (call : Container → α → Call) :
    StateM (World (Logged σ)) α := fun w =>
  let (a, w') := callback { w with host := ⟨w.host.state, []⟩ }
  let moment : Moment := ⟨w.container, .calls (call w.container a)⟩
  (a, { w' with host := ⟨w'.host.state, w.host.moments ++ moment :: w'.host.moments⟩ })

end World

/-- A way to perform operations from within a callback. -/
abbrev Performer (σ : Type) := Operation → StateM (World (Logged σ)) (Except Error (Option Object))

/-- Runs a script. -/
def Script.run (perform : Performer σ) : Script σ α → StateM (World (Logged σ)) α
  | .finish state answer => fun w => (answer, { w with host := { w.host with state } })
  | .look next => fun w => (next w.host.state w.container).run perform w
  | .perform state op next => fun w =>
    let (result, w') := perform op { w with host := { w.host with state } }
    (next result).run perform w'

/-- The callbacks of a program whose scripts perform operations in a given way, with every call
logged. -/
def Program.client (program : Program σ) (perform : Performer σ) : Client (World (Logged σ)) where
  construct c args :=
    World.logging ((program.construct c args).run perform) fun _ => .construct c args
  supply c position :=
    World.logging ((program.supply c position).run perform) fun _ => .supply c position
  assemble t values :=
    World.logging ((program.assemble t values).run perform) fun _ => .assemble t values
  up service signal :=
    World.logging ((program.up service signal).run perform) fun container =>
      .up container.lastLabel service
  down service := World.logging ((program.down service).run perform) fun _ => .down service

/-- Carries out an operation and logs its end. -/
def Operation.conclude (client : Client (World (Logged σ))) : Performer σ := fun op w =>
  let (result, w') := (op.act client).outcome w
  let moment : Moment := ⟨w'.container, .ends op result⟩
  (result, { w' with host := { w'.host with moments := w'.host.moments ++ [moment] } })

/-- Performs an operation whose callbacks may perform operations in turn, up to a depth of nesting
beyond which they are refused. -/
def Program.perform (program : Program σ) : Nat → Performer σ
  | 0 => Operation.conclude (program.client fun _ => pure (.error (.trackerState "nested too deeply")))
  | depth + 1 => Operation.conclude (program.client (program.perform depth))

/-- The moments of a run of operations, one after the other. -/
def Program.moments (program : Program σ) (depth : Nat) (w : World σ) (ops : List Operation) :
    List Moment :=
  let out := ops.foldl (fun w op => (program.perform depth op w).2) w.unlogged
  ⟨w.container, .begins⟩ :: out.host.moments

/-- The world after operations performed one after the other, with their moments added to the log. -/
def Program.playOut (program : Program σ) (depth : Nat) (w : World (Logged σ))
    (ops : List Operation) : World (Logged σ) :=
  ops.foldl (fun w op => (program.perform depth op w).2) w

end Wiring
