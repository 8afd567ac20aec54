import Wiring.Application
import Wiring.Proofs.Agreement
import Wiring.Proofs.Moments
import Wiring.Proofs.Simulation

/-!
# The phases of an application

A run of an application registers its items, starts the container, calls the main program and stops the
container. The main program is a script that performs operations on the container, and the container
may have been prepared by such a script. A run takes the turns that `Phases` lists, comes to the first
failure among them and leaves a container that is stopped; the hooks called since the last stop before
the run fall into periods, each of which ends with a stop of what it started
(`Application.run_phases`). A run is followed phase by phase with `World.Carries`: what a computation
comes to and leaves from a world, whatever was written down and told before.
-/

namespace Wiring

open World

variable {σ α β : Type}

/-! ## Scripts around a container -/

/-- What a script comes to: its answer, the turns of its operations, and the world it leaves. -/
structure Played (σ α : Type) where
  answer : α
  turns : List Turn
  world : World σ

/-- Plays a script whose operations are performed on the container. -/
def Script.play (client : Client σ) : Script σ α → World σ → Played σ α
  | .finish state answer, w => ⟨answer, [], { w with host := state }⟩
  | .look next, w => (next w.host w.container).play client w
  | .perform state op next, w =>
    let (turn, w') := client.perform { w with host := state } op
    let rest := (next turn.result).play client w'
    { rest with turns := turn :: rest.turns }

/-- Carries out a script in a world whose calls are written down. -/
def Script.enact (client : Client σ) : Script σ α → StateM (World (Recorded σ)) α
  | .finish state answer => do
    modify fun w => { w with host := { w.host with state } }
    return answer
  | .look next => do
    let w ← get
    (next w.host.state w.container).enact client
  | .perform state op next => do
    modify fun w => { w with host := { w.host with state } }
    (next (← (op.act client.recorded).run)).enact client

/-- What each operation keeps, of the turns so far and the container, a script keeps. -/
theorem Script.play_induction {client : Client σ} {p : List Turn → Container → Prop}
    (hstep : ∀ op {turns : List Turn} {w : World σ}, w.container.InOrder → p turns w.container →
      p (turns ++ [(client.perform w op).1]) (client.perform w op).1.after)
    (script : Script σ α) {turns : List Turn} {w : World σ} (ho : w.container.InOrder)
    (h : p turns w.container) :
    (script.play client w).world.container.InOrder ∧
      p (turns ++ (script.play client w).turns) (script.play client w).world.container := by
  induction script generalizing turns w with
  | finish state answer =>
    rw [Script.play, List.append_nil]
    exact ⟨ho, h⟩
  | look next ih => exact ih w.host w.container ho h
  | perform state op next ih =>
    obtain ⟨_, hafter, ho'⟩ := client.perform_step op (w := { w with host := state }) ho
    have hturn := hstep op (w := { w with host := state }) ho h
    rw [← hafter] at ho' hturn
    have hrest := ih (client.perform { w with host := state } op).1.result ho' hturn
    rw [List.append_assoc] at hrest
    exact hrest

/-! ## Worlds with a record -/

/-- A world with a record is the other one, but for the notices, with calls written down before
those that are written down there. -/
structure World.Extends (before : List Call) (w w' : World (Recorded σ)) : Prop where
  container : w'.container = w.container
  nextIdentity : w'.nextIdentity = w.nextIdentity
  host : w'.host = ⟨w.host.state, before ++ w.host.calls⟩

/-- A world with a record is the one without, but for the notices, and these calls are written
down. -/
structure World.Records (calls : List Call) (w : World σ) (w' : World (Recorded σ)) : Prop where
  container : w'.container = w.container
  nextIdentity : w'.nextIdentity = w.nextIdentity
  host : w'.host = ⟨w.host, calls⟩

theorem World.records_unrecorded (w : World σ) : Records [] w w.unrecorded := ⟨rfl, rfl, rfl⟩

theorem World.recording_extends (before : List Call) (callback : StateM σ α)
    (call : Container → α → Call) :
    World.Simulates (Extends before) (recording callback call) (recording callback call) := by
  rintro w w' ⟨hcontainer, hidentity, hhost⟩
  simp only [recording, hcontainer, hhost]
  exact ⟨rfl, rfl, hidentity, congrArg _ (List.append_assoc ..)⟩

/-- Nothing that an operation does depends on the calls written down before or on the notices. -/
theorem Client.recorded_extends (client : Client σ) (before : List Call) :
    Client.Simulates (World.Extends before) client.recorded client.recorded where
  container _ _ hw := hw.container
  nextIdentity _ _ hw := hw.nextIdentity
  change _ _ hw _ _ := ⟨rfl, hw.nextIdentity, hw.host⟩
  announce _ _ hw _ := ⟨hw.container, hw.nextIdentity, hw.host⟩
  identify _ _ hw := ⟨hw.container, congrArg (· + 1) hw.nextIdentity, hw.host⟩
  construct _ _ _ _ hw _ := World.recording_extends before _ _ hw
  supply _ _ := World.recording_extends before _ _
  assemble _ _ _ _ _ hw _ := World.recording_extends before _ _ hw
  up _ _ := World.recording_extends before _ _
  down _ := World.recording_extends before _ _

/-- From a world a computation comes to an answer, adds calls to what is written down, and leaves a
world. -/
def World.Carries (x : StateM (World (Recorded σ)) α) (w : World σ) (a : α) (calls : List Call)
    (v : World σ) : Prop :=
  ∀ ⦃before w'⦄, Records before w w' → (x w').1 = a ∧ Records (before ++ calls) v (x w').2

namespace World.Carries

variable {w v u : World σ} {made made' : List Call}

theorem pure (a : α) : Carries (Pure.pure a) w a [] w := fun _ _ hw =>
  ⟨rfl, (List.append_nil _).symm ▸ hw⟩

theorem announce (notice : Notice) : Carries (World.announce notice) w () [] w := fun _ _ hw =>
  ⟨rfl, hw.container, hw.nextIdentity, (List.append_nil _).symm ▸ hw.host⟩

theorem bind {x : StateM (World (Recorded σ)) α} {f : α → StateM (World (Recorded σ)) β} {a : α}
    {b : β} (h : Carries x w a made v) (hnext : Carries (f a) v b made' u) :
    Carries (x >>= f) w b (made ++ made') u := by
  intro before w' hw
  obtain ⟨hanswer, hv⟩ := h hw
  show (f (x w').1 (x w').2).1 = b ∧ Records _ u (f (x w').1 (x w').2).2
  rw [hanswer, ← List.append_assoc]
  exact hnext hv

/-- What a computation looks at is the same whatever was written down before. -/
theorem look {f : σ → Container → StateM (World (Recorded σ)) α} {a : α}
    (h : Carries (f w.host w.container) w a made v) :
    Carries (do let w ← get; f w.host.state w.container) w a made v := by
  intro before w' hw
  show (f w'.host.state w'.container w').1 = a ∧ Records _ v (f w'.host.state w'.container w').2
  rw [hw.container, hw.host]
  exact h hw

/-- The state of the program may be replaced. -/
theorem setHost (state : σ) :
    Carries (modify fun w => { w with host := { w.host with state } }) w () []
      { w with host := state } := by
  intro before w' hw
  refine ⟨rfl, hw.container, hw.nextIdentity, ?_⟩
  show Recorded.mk state w'.host.calls = _
  rw [hw.host, List.append_nil]

end World.Carries

/-- An operation takes its turn whatever was written down before. -/
theorem Operation.act_carries (client : Client σ) (op : Operation) (w : World σ) :
    World.Carries (op.act client.recorded).run w (client.perform w op).1.result
      (client.perform w op).1.calls (client.perform w op).2 := by
  intro before w' hw
  have hextends : World.Extends before w.unrecorded w' :=
    ⟨hw.container, hw.nextIdentity, hw.host.trans (by rw [World.unrecorded, List.append_nil])⟩
  obtain ⟨hresult, hafter⟩ := op.act_simulates (client.recorded_extends before) hextends
  exact ⟨hresult, hafter.container, hafter.nextIdentity, hafter.host⟩

/-- A script takes its turns whatever was written down before. -/
theorem Script.enact_carries (client : Client σ) (script : Script σ α) (w : World σ) :
    World.Carries (script.enact client) w (script.play client w).answer
      ((script.play client w).turns.flatMap Turn.calls) (script.play client w).world := by
  induction script generalizing w with
  | finish state answer => exact .bind (.setHost state) (.pure answer)
  | look next ih =>
    exact .look (f := fun state c => (next state c).enact client) (ih w.host w.container w)
  | perform state op next ih =>
    have hturn := op.act_carries client { w with host := state }
    have hrest := hturn.bind (f := fun result => (next result).enact client) (ih _ _)
    exact (World.Carries.setHost state).bind hrest

/-! ## Periods -/

theorem Turn.isStop_iff (turn : Turn) : turn.isStop = true ↔ turn.operation = .stop := by
  cases h : turn.operation <;> simp [isStop, h]

/-- Turns in periods that end with a stop. In each of them the stop calls the stop hooks of the
services whose start hooks were called before, once each and in reverse order, and nothing else. -/
inductive Periods : List Turn → Prop
  | nil : Periods []
  | period (ups downs : List HookResult) : (∀ turn ∈ active, turn.isStop = false) →
      active.flatMap Turn.hooks = ups.map HookResult.up → stop.isStop = true →
      stop.calls = downs.map HookResult.down → downs.map Prod.fst = (ups.map Prod.fst).reverse →
      Periods turns → Periods (active ++ stop :: turns)

theorem Periods.append {turns turns' : List Turn} (h : Periods turns) (h' : Periods turns') :
    Periods (turns ++ turns') := by
  induction h with
  | nil => exact h'
  | period ups downs hactive hups hstop hdowns hreverse _ ih =>
    rw [List.append_assoc]
    exact .period ups downs hactive hups hstop hdowns hreverse ih

/-- Turns in periods, and after them turns since the last stop in which one start hook was called for
each live record. -/
inductive Periodic (turns : List Turn) (live : List Record) : Prop
  | intro (closed active : List Turn) (ups : List HookResult) : turns = closed ++ active →
      Periods closed → (∀ turn ∈ active, turn.isStop = false) →
      active.flatMap Turn.hooks = ups.map HookResult.up → live = ups.map Prod.fst →
      Periodic turns live

namespace Periodic

variable {turns : List Turn} {turn : Turn} {s s' : Status}

theorem nil : Periodic [] [] :=
  .intro [] [] [] rfl .nil (fun _ hmem => absurd hmem List.not_mem_nil) rfl rfl

theorem of_periods (h : Periods turns) : Periodic turns [] :=
  .intro turns [] [] (List.append_nil _).symm h (fun _ hmem => absurd hmem List.not_mem_nil) rfl rfl

/-- A stop ends a period, and no record is live after it. -/
theorem stop (h : Periodic turns s.live) (ho : s.InOrder) (hstop : turn.isStop = true)
    (hstep : Step s turn.operation turn.calls turn.result s') :
    Periods (turns ++ [turn]) ∧ s'.live = [] := by
  obtain ⟨closed, active, ups, rfl, hclosed, hactive, hups, hlive⟩ := h
  rw [turn.isStop_iff.1 hstop] at hstep
  obtain ⟨_, hlive', downs, hdowns, hreverse, _⟩ := hstep.exists_downs ho
  rw [hlive] at hreverse
  rw [List.append_assoc]
  exact ⟨hclosed.append (.period ups downs hactive hups hstop hdowns hreverse .nil), hlive'⟩

/-- A turn that is no stop belongs to the period that is not over. -/
theorem step (h : Periodic turns s.live) (hstop : turn.isStop = false)
    (hstep : Step s turn.operation turn.calls turn.result s') :
    Periodic (turns ++ [turn]) s'.live := by
  obtain ⟨closed, active, ups, rfl, hclosed, hactive, hups, hlive⟩ := h
  have hop : turn.operation ≠ .stop := fun hop =>
    Bool.noConfusion (hstop.symm.trans (turn.isStop_iff.2 hop))
  obtain ⟨more, hhooks, hlive'⟩ := hstep.exists_ups hop
  refine .intro closed (active ++ [turn]) (ups ++ more) (List.append_assoc ..) hclosed
    (fun turn' hmem => ?_) ?_ ?_
  · rcases List.mem_append.1 hmem with hmem | hmem
    · exact hactive turn' hmem
    · exact List.mem_singleton.1 hmem ▸ hstop
  · rw [List.flatMap_append, hups, List.flatMap_singleton, Turn.hooks, hhooks, List.map_append]
  · rw [hlive', hlive, List.map_append]

variable (client : Client σ) {w : World σ}

/-- A turn of a run belongs to the period that is not over, or it is a stop that ends it. -/
theorem perform_cases (op : Operation) (ho : w.container.InOrder)
    (h : Periodic turns w.container.history.live) :
    let turn := (client.perform w op).1
    (turn.isStop = false ∧ Periodic (turns ++ [turn]) turn.after.history.live) ∨
      (turn.isStop = true ∧ Periods (turns ++ [turn]) ∧ turn.after.history.live = []) := by
  obtain ⟨hstep, _, _⟩ := client.perform_step op ho
  cases hstop : (client.perform w op).1.isStop with
  | false => exact .inl ⟨hstop, step (s := w.container.status) h hstop hstep⟩
  | true => exact .inr ⟨hstop, stop (s := w.container.status) h ho.status hstop hstep⟩

theorem perform (op : Operation) (ho : w.container.InOrder)
    (h : Periodic turns w.container.history.live) :
    Periodic (turns ++ [(client.perform w op).1]) (client.perform w op).1.after.history.live := by
  rcases h.perform_cases client op ho with ⟨_, hactive⟩ | ⟨_, hperiods, hlive⟩
  · exact hactive
  · exact hlive ▸ of_periods hperiods

/-- So it is among the turns since the last stop. -/
theorem perform_since (op : Operation) (ho : w.container.InOrder)
    (h : Periodic (sinceStop turns) w.container.history.live) :
    Periodic (sinceStop (turns ++ [(client.perform w op).1]))
      (client.perform w op).1.after.history.live := by
  rw [sinceStop_concat]
  rcases h.perform_cases client op ho with ⟨hstop, hactive⟩ | ⟨hstop, _, hlive⟩
  · rw [if_neg (Bool.not_eq_true _ ▸ hstop)]
    exact hactive
  · rw [if_pos hstop, hlive]
    exact nil

end Periodic

/-! ## Runs of an application -/

/-- A result as that of a step of an application. -/
def Application.verdict : Except Error α → Except Fault Unit
  | .ok _ => .ok ()
  | .error e => .error (.error e)

/-- A container at rest: it does not run, no started service is left, and no slot has one that
runs. -/
structure Container.AtRest (c : Container) : Prop where
  running : c.running = false
  started : c.started = []
  resting : ∀ e ∈ c.storage.entries, e.service ≠ .runningUp

/-- What a run of an application does after its items were registered: the container is started, the
main program is called if that succeeded, and in any case the container is stopped. The turns of all
this, the first failure, and the world in the end. -/
inductive Application.Phases (client : Client σ) (main : Script σ (Except Fault Unit)) (w : World σ) :
    List Turn → Except Fault Unit → World σ → Prop
  | unstarted : client.perform w .start = (start, w₁) → verdict start.result = .error fault →
      client.perform w₁ .stop = (stop, w₂) →
        Phases client main w [start, stop] (.error fault) w₂
  | completed : client.perform w .start = (start, w₁) → verdict start.result = .ok () →
      main.play client w₁ = ⟨answer, turns, w₂⟩ → client.perform w₂ .stop = (stop, w₃) →
      Phases client main w (start :: (turns ++ [stop])) (do answer; verdict stop.result) w₃

namespace Application

variable (client : Client σ)

/-- A step of an application comes to what its body comes to. -/
theorem step_carries (app name : String) {body : StateM (World (Recorded σ)) (Except Fault Unit)}
    {w v : World σ} {result : Except Fault Unit} {calls : List Call}
    (h : World.Carries body w result calls v) :
    World.Carries (step app name body) w result calls v := by
  rw [← List.append_nil calls, ← List.nil_append (calls ++ [])]
  unfold step
  refine World.Carries.bind (.announce _) (h.bind ?_)
  cases result with
  | ok _ => exact .bind (.announce _) (.pure _)
  | error fault => exact .bind (.announce _) (.pure _)

theorem ofAction_apply (action : Action σ Unit) (w : World σ) :
    ofAction action w = (verdict (action.outcome w).1, (action.outcome w).2) := by
  cases h : action.outcome w with
  | mk result w' =>
    have h : action.run w = (result, w') := h
    simp only [ofAction, bind, StateT.bind, h]
    cases result <;> rfl

/-- An operation that gives no object, as a step of an application. -/
theorem ofAction_carries (app name : String) (op : Operation) {action : Action (Recorded σ) Unit}
    (hop : op.act client.recorded = action >>= fun _ => pure none) {w v : World σ} {turn : Turn}
    (hturn : client.perform w op = (turn, v)) :
    World.Carries (step app name (ofAction action)) w (verdict turn.result) turn.calls v := by
  refine step_carries app name fun before w' hw => ?_
  have hout : (op.act client.recorded).outcome w' = ((action.outcome w').1.map fun _ => none,
      (action.outcome w').2) := by
    rw [hop, Action.outcome_bind_pure]
  have hcarries := op.act_carries client w hw
  rw [hturn] at hcarries
  change ((op.act client.recorded).outcome w').1 = _ ∧
    Records _ v ((op.act client.recorded).outcome w').2 at hcarries
  rw [hout] at hcarries
  obtain ⟨hresult, hafter⟩ := hcarries
  rw [ofAction_apply, ← hresult]
  refine ⟨?_, hafter⟩
  cases (action.outcome w').1 <;> rfl

section

variable {client} (app : String) {w v u : World σ} {turn : Turn}

/-- The main program is not called if the container does not start. -/
theorem startAndMain_carries_error (main : StateM (World (Recorded σ)) (Except Fault Unit))
    {fault : Fault} (hstart : client.perform w .start = (turn, v))
    (h : verdict turn.result = .error fault) :
    World.Carries (startAndMain client.recorded main app) w (.error fault) turn.calls v := by
  have hstep := ofAction_carries client app "start" .start rfl hstart
  rw [h] at hstep
  unfold startAndMain
  rw [← List.append_nil turn.calls]
  exact hstep.bind (.pure _)

/-- The main program is called once the container has started. -/
theorem startAndMain_carries_ok {main : Script σ (Except Fault Unit)} {answer : Except Fault Unit}
    {turns : List Turn} (hstart : client.perform w .start = (turn, v))
    (h : verdict turn.result = .ok ()) (hmain : main.play client v = ⟨answer, turns, u⟩) :
    World.Carries (startAndMain client.recorded (main.enact client) app) w answer
      (turn.calls ++ turns.flatMap Turn.calls) u := by
  have hstep := ofAction_carries client app "start" .start rfl hstart
  have hbody := main.enact_carries client v
  rw [h] at hstep
  rw [hmain] at hbody
  exact hstep.bind (step_carries app "run" hbody)

variable {main : StateM (World (Recorded σ)) (Except Fault Unit)} {items : List Item}

/-- If the items are refused, nothing else is done. -/
theorem runItems_carries_error (main : StateM (World (Recorded σ)) (Except Fault Unit))
    {fault : Fault}
    (hregister : client.perform w (.register items) = (turn, v))
    (h : verdict turn.result = .error fault) :
    World.Carries (runItems client.recorded main app items) w (.error fault) turn.calls v := by
  have hstep := ofAction_carries client app "register" (.register items) rfl hregister
  rw [h] at hstep
  unfold runItems
  rw [← List.append_nil turn.calls]
  exact hstep.bind (.pure _)

/-- If the items are registered, the container is stopped in the end, and the first failure
counts. -/
theorem runItems_carries_ok {primary : Except Fault Unit} {calls : List Call} {stop : Turn}
    {x : World σ} (hregister : client.perform w (.register items) = (turn, v))
    (h : verdict turn.result = .ok ())
    (hprimary : World.Carries (startAndMain client.recorded main app) v primary calls u)
    (hstop : client.perform u .stop = (stop, x)) :
    World.Carries (runItems client.recorded main app items) w
      (do primary; verdict stop.result) (turn.calls ++ (calls ++ stop.calls)) x := by
  have hfirst := ofAction_carries client app "register" (.register items) rfl hregister
  have hlast := ofAction_carries client app "stop" .stop rfl hstop
  rw [h] at hfirst
  rw [← List.append_nil stop.calls]
  refine hfirst.bind (hprimary.bind (hlast.bind ?_))
  cases primary with
  | ok _ => exact .pure _
  | error fault =>
    cases verdict stop.result with
    | ok _ => exact .pure _
    | error later => exact .bind (.announce _) (.pure _)

/-- If the items are registered, the run goes through its phases. -/
theorem runItems_phases (main : Script σ (Except Fault Unit))
    (hregister : client.perform w (.register items) = (turn, v))
    (h : verdict turn.result = .ok ()) :
    ∃ turns result x, Phases client main v turns result x ∧
      World.Carries (runItems client.recorded (main.enact client) app items) w result
        (turn.calls ++ turns.flatMap Turn.calls) x := by
  rcases hstart : client.perform v .start with ⟨start, v₁⟩
  cases hverdict : verdict start.result with
  | error fault =>
    rcases hstop : client.perform v₁ .stop with ⟨stop, v₂⟩
    refine ⟨[start, stop], .error fault, v₂, .unstarted hstart hverdict hstop, ?_⟩
    have hrun := runItems_carries_ok app hregister h
      (startAndMain_carries_error app (main.enact client) hstart hverdict) hstop
    simpa [bind, Except.bind] using hrun
  | ok _ =>
    rcases hmain : main.play client v₁ with ⟨answer, turns, v₂⟩
    rcases hstop : client.perform v₂ .stop with ⟨stop, v₃⟩
    refine ⟨_, _, v₃, .completed hstart hverdict hmain hstop, ?_⟩
    have hrun := runItems_carries_ok app hregister h
      (startAndMain_carries_ok app hstart hverdict hmain) hstop
    simpa using hrun

end

/-- After a stop a container is at rest. -/
theorem atRest_of_stop {w : World σ} (ho : w.container.InOrder) :
    (client.perform w .stop).2.container.AtRest := by
  obtain ⟨hstep, _, hafter⟩ := client.perform_step .stop ho
  obtain ⟨hrunning, hlive, _⟩ := hstep.exists_downs ho.status
  refine ⟨hrunning, congrArg (List.map Record.label) hlive, fun e hmem => ?_⟩
  exact hafter.status.resting_of_off hstep.off_of_stop (hafter.status.sound.mem_entries.1 hmem)

variable {client}

/-- The phases of a run from a container with some live records bring it to rest and end the period
in which these were made. -/
theorem Phases.periods {main : Script σ (Except Fault Unit)} {w v : World σ}
    {before turns : List Turn} {result : Except Fault Unit}
    (h : Phases client main w turns result v) (ho : w.container.InOrder)
    (hbefore : Periodic before w.container.history.live) :
    v.container.AtRest ∧ Periods (before ++ turns) := by
  have hstart := hbefore.perform client .start ho
  obtain ⟨_, hafter, ho₁⟩ := client.perform_step .start ho
  rw [← hafter] at hstart ho₁
  -- From any world behind the start, the stop ends what is not over.
  have hstop : ∀ {turns : List Turn} {w : World σ}, w.container.InOrder →
      Periodic turns w.container.history.live → (client.perform w .stop).2.container.AtRest ∧
        Periods (turns ++ [(client.perform w .stop).1]) := fun {turns w} ho hturns => by
    obtain ⟨hstep, _, _⟩ := client.perform_step .stop ho
    exact ⟨atRest_of_stop client ho,
      (Periodic.stop (s := w.container.status) hturns ho.status rfl hstep).1⟩
  cases h with
  | unstarted hstarted _ hstopped =>
    rw [hstarted] at hstart ho₁
    have hend := hstop ho₁ hstart
    rw [hstopped, List.append_assoc] at hend
    exact hend
  | completed hstarted _ hmain hstopped =>
    rw [hstarted] at hstart ho₁
    obtain ⟨ho₂, hturns⟩ := main.play_induction
      (p := fun turns c => Periodic turns c.history.live)
      (fun op _ _ => Periodic.perform client op) ho₁ hstart
    rw [hmain] at ho₂ hturns
    have hend := hstop ho₂ hturns
    rw [hstopped, List.append_assoc, List.append_assoc] at hend
    exact hend

/-- **Application phases.** The container may have been prepared in any way, and the main program may
perform any operations on it. If the items of the application are refused, its run returns that error
and does nothing else: the main program is not called, and no call is written down. Otherwise the
run goes through its `Phases`: the container is started, the main program is called exactly if that
succeeded, the container is stopped, and the first failure is returned. Then the container is at
rest, and the hooks called since the last stop before the run fall into periods, each of which ends
with a stop of what it started. In any case the queue is empty. -/
theorem run_phases (client : Client σ) (app : Application) (main : Script σ (Except Fault Unit))
    (config : ContainerConfig) (context : Context) (token : Token) (nextIdentity : Identity)
    (host : σ) (preparation : Script σ α) :
    let prepared := preparation.play client (.fresh config context token nextIdentity host)
    let register := client.perform prepared.world (.register app.queued)
    let out := app.run client.recorded (main.enact client) prepared.world.unrecorded
    out.1.2 = { app with queued := [] } ∧
      (∀ e, register.1.result = .error e →
        out.1.1 = .error (.error e) ∧ World.Records [] register.2 out.2) ∧
      ∀ r, register.1.result = .ok r → ∃ turns v,
        Phases client main register.2 turns out.1.1 v ∧
          World.Records (turns.flatMap Turn.calls) v out.2 ∧
          v.container.AtRest ∧ Periods (sinceStop prepared.turns ++ register.1 :: turns) := by
  intro prepared register out
  have hnew := Container.new_inOrder config context token
  have hnone : Periodic (sinceStop []) (Container.new config context token).history.live := .nil
  obtain ⟨ho, hsince⟩ := preparation.play_induction
    (p := fun turns c => Periodic (sinceStop turns) c.history.live)
    (fun op _ _ => Periodic.perform_since client op)
    (w := .fresh config context token nextIdentity host) hnew hnone
  have hregistered := hsince.perform client (.register app.queued) ho
  obtain ⟨hstep, hafter, ho₁⟩ := client.perform_step (.register app.queued) ho
  rw [← hafter] at hregistered ho₁
  have hquiet : register.1.calls = [] := Step.quiet hstep (.register rfl)
  refine ⟨rfl, fun e he => ?_, fun r hr => ?_⟩
  · have hverdict : verdict register.1.result = .error (.error e) := by rw [he]; rfl
    have hcarries := runItems_carries_error app.config.name (main.enact client)
      (Prod.eta register).symm hverdict
    rw [hquiet] at hcarries
    exact hcarries prepared.world.records_unrecorded
  · have hverdict : verdict register.1.result = .ok () := by rw [hr]; rfl
    obtain ⟨turns, result, v, hphases, hcarries⟩ := runItems_phases app.config.name main
      (Prod.eta register).symm hverdict
    obtain ⟨hresult, hrecords⟩ := hcarries prepared.world.records_unrecorded
    obtain ⟨hrest, hperiods⟩ := hphases.periods ho₁ hregistered
    rw [List.append_assoc] at hperiods
    rw [hquiet] at hrecords
    obtain rfl : out.1.1 = result := hresult
    exact ⟨turns, v, hphases, hrecords, hrest, hperiods⟩

end Application

end Wiring
