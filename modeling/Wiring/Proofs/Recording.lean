import Wiring.Proofs.Outcome

/-!
# Runs of a container and the calls they make

A `Call` is what a container asked of the program around it and what the program returned. The
callbacks `Client.recorded` behave like those of any program and write every call down, a start of a
service together with the label of the record made for it; this changes nothing else
(`Client.perform_forget`). An `Operation` performed with them gives
a `Turn`: the container before and after, the calls in between and the result. A run plays
operations one after the other (`Client.play`).
-/

namespace Wiring

/-! ## Calls -/

/-- A call of a callback and what it returned. -/
inductive Call where
  /-- A constructor was called with arguments. -/
  | construct (c : Constructor) (args : List Object) (result : Except Fault Unit)
  /-- The output at a position of a constructor was handed over. -/
  | supply (c : Constructor) (position : Nat) (product : Product)
  /-- A template was assembled from the values of its fields. -/
  | assemble (t : Template) (values : FieldValues) (result : Except Error Product)
  /-- The start hook of a service was called, which is recorded under a label. -/
  | up (label : String) (service : Service) (result : Except Fault Unit)
  /-- The stop hook of a service was called. -/
  | down (service : Service) (result : Except Fault Unit)

namespace Call

/-- Whether the call is one of a start or stop hook. -/
def isHook : Call → Bool
  | up .. | down .. => true
  | _ => false

/-- The record that a call of a start hook belongs to. -/
def record? : Call → Option Record
  | up label service _ => some ⟨label, service⟩
  | _ => none

end Call

/-- The state of a program together with the calls of its callbacks, oldest first. -/
structure Recorded (σ : Type) where
  state : σ
  calls : List Call

/-- The label of the record that a container made last. -/
def Container.lastLabel (c : Container) : String :=
  (c.history.records.getLast?.map Record.label).getD ""

variable {σ : Type}

namespace World

/-- Runs a callback of the program and writes down the call. -/
def recording {α : Type} (callback : StateM σ α) (call : Container → α → Call) :
    StateM (World (Recorded σ)) α := fun w =>
  let (a, state) := callback w.host.state
  (a, { w with host := ⟨state, w.host.calls ++ [call w.container a]⟩ })

/-- The world in which no call is written down yet. -/
def unrecorded (w : World σ) : World (Recorded σ) := { w with host := ⟨w.host, []⟩ }

/-- The world without what was written down. -/
def forget (w : World (Recorded σ)) : World σ := { w with host := w.host.state }

end World

/-- The callbacks of a program that cannot reach the container, with every call written down. -/
def Client.recorded (client : Client σ) : Client (World (Recorded σ)) where
  construct c args := World.recording (client.construct c args) fun _ => .construct c args
  supply c position := World.recording (client.supply c position) fun _ => .supply c position
  assemble t values := World.recording (client.assemble t values) fun _ => .assemble t values
  up service signal :=
    World.recording (client.up service signal) fun container => .up container.lastLabel service
  down service := World.recording (client.down service) fun _ => .down service

/-- What gives something when its error is forgotten is a success. -/
theorem eq_ok_of_toOption {ε α : Type} {result : Except ε α} {x : α}
    (h : result.toOption = some x) : result = .ok x := by
  cases result with
  | ok => exact congrArg Except.ok (Option.some.inj h)
  | error => cases h

/-! ## Runs -/

/-- An operation on a container. -/
inductive Operation where
  | register (items : List Item)
  | start
  | invoke (callable : Callable)
  | resolve (type : ComponentType)
  | stop

/-- Carries out an operation. Only `resolve` gives an object. -/
def Operation.act (client : Client (World σ)) : Operation → Action σ (Option Object)
  | register items => do
    Container.register items
    return none
  | start => do
    Container.start client
    return none
  | invoke callable => do
    Container.invoke client callable
    return none
  | resolve type => do return some (← Container.resolve type)
  | stop => do
    Container.stop client
    return none

/-- An operation that was performed: the container before and after it, the calls that the container
made in between, oldest first, and the result. -/
structure Turn where
  operation : Operation
  before : Container
  calls : List Call
  result : Except Error (Option Object)
  after : Container

/-- Performs an operation: its turn, and the world after it. -/
def Client.perform (client : Client σ) (w : World σ) (op : Operation) : Turn × World σ :=
  let out := (op.act client.recorded).outcome w.unrecorded
  (⟨op, w.container, out.2.host.calls, out.1, out.2.container⟩, out.2.forget)

/-- The turns of operations performed one after the other. -/
def Client.play (client : Client σ) (w : World σ) : List Operation → List Turn
  | [] => []
  | op :: ops =>
    (client.perform w op).1 :: client.play (client.perform w op).2 ops

/-- The world after operations performed one after the other. -/
def Client.playOut (client : Client σ) (w : World σ) (ops : List Operation) : World σ :=
  ops.foldl (fun w op => (client.perform w op).2) w

/-- The world of a new container around which a program is in a state. -/
def World.fresh (config : ContainerConfig) (context : Context) (token : Token)
    (nextIdentity : Identity) (host : σ) : World σ :=
  { container := .new config context token, nextIdentity, notices := [], host }

/-- A program that never fails and always hands over the same product. -/
def Client.steady (product : Product) : Client Unit where
  construct _ _ := pure (.ok ())
  supply _ _ := pure product
  assemble _ _ := pure (.ok product)
  up _ _ := pure (.ok ())
  down _ := pure (.ok ())

end Wiring
