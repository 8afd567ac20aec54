import Wiring.Proofs.Requests
import Wiring.Proofs.Steps

/-!
# Brackets of a run

Between two stops of a run the start hooks are called one per recorded service, and the stop at the
end calls the stop hook of each of them once, latest first, whatever the hooks return
(`Client.run_bracketed`).
-/

namespace Wiring

/-- The calls of hooks in a turn. -/
def Turn.hooks (turn : Turn) : List Call := turn.calls.filter Call.isHook

/-- Whether an error refuses a start before it has any effect. -/
def Error.refusesStart : Error → Bool
  | .alreadyStarted | .trackerState _ => true
  | _ => false

/-- Whether the operation of a turn calls no hook by its nature: a registration, a request, or a
start that was refused. -/
inductive Turn.Quiet (turn : Turn) : Prop
  | register : turn.operation = .register items → Quiet turn
  | resolve : turn.operation = .resolve type → Quiet turn
  | refused : turn.operation = .start → turn.result = .error e → e.refusesStart = true → Quiet turn

/-- A recorded service and what its hook returned. -/
abbrev HookResult := Record × Except Fault Unit

namespace HookResult

/-- The call of the start hook of a service. -/
def up (h : HookResult) : Call := .up h.1.label h.1.service h.2

/-- The call of the stop hook of a service. -/
def down (h : HookResult) : Call := .down h.1.service h.2

/-- What a stop reports of the stop hook of a service. -/
def failure? (h : HookResult) : Option StopFailure :=
  match h.2 with
  | .ok _ => none
  | .error f => some (.mk h.1.label f)

end HookResult

/-- The turns between two stops that have something to stop: `idle` before the first start, `active`
from there on, then the stop `last`, and a start `next` after it. -/
structure Bracketed (idle active : List Turn) (last next : Turn) : Prop where
  /-- Before the first start no hook is called. -/
  idle_hooks : ∀ turn ∈ idle, turn.hooks = []
  /-- A stop with nothing to stop succeeds. -/
  idle_stop : ∀ turn ∈ idle, turn.operation = .stop → turn.result = .ok none
  /-- Registrations, requests and refused starts call no hook. -/
  quiet : ∀ turn ∈ active, turn.Quiet → turn.hooks = []
  /-- The start hooks are called once per record; the stop calls the stop hooks of the records once
  each, latest first, and reports exactly the failures among them. -/
  hooks : ∃ ups downs : List HookResult,
    active.flatMap Turn.hooks = ups.map HookResult.up ∧
    last.before.history.live = ups.map Prod.fst ∧
    last.calls = downs.map HookResult.down ∧
    downs.map Prod.fst = (ups.map Prod.fst).reverse ∧
    (last.result = .ok none ↔ ∀ down ∈ downs, down.2 = .ok ()) ∧
    (last.result ≠ .ok none → last.result = .error (.stop (downs.filterMap HookResult.failure?)))
  /-- After the stop the container is off, and no service is left. -/
  off : last.after.running = false ∧ last.after.started = []
  /-- After the stop a start is not refused. -/
  accepted : ∀ e, next.result = .error e → e.refusesStart = false

/-! ## Refusals -/

namespace Storage

theorem lookup_error {s : Storage} {type : ComponentType} {e : Error}
    (h : s.lookup type = .error e) : e.refusesStart = false := by
  rcases lookup_eq_error h with ⟨_, rfl⟩ | ⟨_, _, _, rfl⟩ <;> rfl

theorem arguments_error {s : Storage} {params : List ComponentType} {e : Error}
    (h : s.arguments params = .error e) : e.refusesStart = false := by
  obtain ⟨_, _, hlookup | ⟨_, _, _, _, _, rfl⟩⟩ := arguments_eq_error h
  · exact lookup_error hlookup
  · rfl

theorem fillFields_error {s : Storage} {fields : List Field} {values : FieldValues} {e : Error}
    (h : s.fillFields fields values = .error e) : e.refusesStart = false := by
  obtain ⟨_, _, hlookup⟩ := fillFields_eq_error h
  exact lookup_error hlookup

end Storage

theorem Graph.order_error {g : Graph} {e : Error} (h : g.order = .error e) :
    e.refusesStart = false := by
  simp only [Graph.order] at h
  split at h
  · cases h; rfl
  · split at h
    · cases h
    · cases h; rfl

theorem Starts.error (h : Starts a service s (.error e) s') : e.refusesStart = false := by
  cases h; rfl

theorem Absorbs.error (h : Absorbs c s (.error e) s') : e.refusesStart = false := by
  cases h with
  | refused => rfl
  | started _ _ _ hstarts => exact hstarts.error

theorem AbsorbsAll.error (h : AbsorbsAll cs s (.error e) s') : e.refusesStart = false := by
  generalize hr : Except.error e = r at h
  induction h with
  | nil => cases hr
  | cons _ _ ih => exact ih hr
  | fail habsorbs => cases hr; exact habsorbs.error

theorem Calls.error (h : Calls c s (.error e) s') : e.refusesStart = false := by
  cases h with
  | unsupplied hargs => exact Storage.arguments_error hargs
  | failed => rfl

theorem Assembles.error (h : Assembles a t s (.error e) s') : e.refusesStart = false := by
  cases h with
  | unfilled hfill => exact Storage.fillFields_error hfill
  | failed err => cases err <;> rfl

theorem Settles.error (h : Settles entry s (.error e) s') : e.refusesStart = false := by
  cases h with
  | shadowed => rfl
  | waited _ _ _ _ hstarts => exact hstarts.error
  | shapeless => rfl
  | uncalled _ _ _ hcalls => exact hcalls.error
  | called _ _ _ _ habsorbs => exact habsorbs.error
  | unassembled _ _ _ hassembles => exact hassembles.error
  | assembled _ _ _ _ habsorbs => exact habsorbs.error

/-- A walk never ends with an error that refuses a start. -/
theorem SettlesAll.error (h : SettlesAll order s (.error e) s') : e.refusesStart = false := by
  generalize hr : Except.error e = r at h
  induction h with
  | nil => cases hr
  | skip _ _ ih => exact ih hr
  | step _ _ _ ih => exact ih hr
  | fail _ hsettles => cases hr; exact hsettles.error

/-- A start is refused only while a history is on. -/
theorem Step.accepted {s s' : Status} (h : Step s .start calls (.error e) s') (ho : s.InOrder)
    (hoff : s.on = false) : e.refusesStart = false := by
  cases h with
  | alreadyStarted hrunning =>
    exact Bool.noConfusion (hoff.symm.trans (ho.on_of_running hrunning))
  | stopRequired _ hon => exact Bool.noConfusion (hoff.symm.trans hon)
  | unordered _ _ horder => exact Graph.order_error horder
  | startFailed _ _ _ hwalk => exact hwalk.error

/-! ## Hooks of a step -/

/-- Calls without a stop hook make one record for each start hook called. -/
theorem exists_ups {calls : List Call} (h : ∀ service result, Call.down service result ∉ calls) :
    ∃ ups : List HookResult, calls.filter Call.isHook = ups.map HookResult.up ∧
      calls.filterMap Call.record? = ups.map Prod.fst := by
  induction calls with
  | nil => exact ⟨[], rfl, rfl⟩
  | cons call calls ih =>
    obtain ⟨ups, hhooks, hrecords⟩ := ih fun service result hmem =>
      h service result (List.mem_cons_of_mem _ hmem)
    cases call with
    | up label service result =>
      refine ⟨(⟨label, service⟩, result) :: ups, ?_, by simp [Call.record?, hrecords]⟩
      rw [List.filter_cons_of_pos rfl, hhooks]
      rfl
    | down service result => exact absurd List.mem_cons_self (h service result)
    | construct c args result => exact ⟨ups, by simpa [Call.isHook], by simpa [Call.record?]⟩
    | supply c position product => exact ⟨ups, by simpa [Call.isHook], by simpa [Call.record?]⟩
    | assemble t values result => exact ⟨ups, by simpa [Call.isHook], by simpa [Call.record?]⟩

/-- What an operation gains is one record for each start hook called. -/
theorem Scene.Grows.exists_ups {s : Status} {after : Scene} (h : s.scene.Grows after) :
    ∃ ups : List HookResult, after.calls.filter Call.isHook = ups.map HookResult.up ∧
      (s.gained after).live = s.live ++ ups.map Prod.fst := by
  obtain ⟨new, hcalls, hdown⟩ := h
  obtain ⟨ups, hhooks, hrecords⟩ := Wiring.exists_ups hdown
  have hnew : after.calls = new := hcalls
  exact ⟨ups, by rw [hnew, hhooks], by rw [Status.gained, hnew, hrecords]⟩

/-- Every operation but a stop calls start hooks only, one for each record that it makes. -/
theorem Step.exists_ups {s s' : Status} (h : Step s op calls r s') (hop : op ≠ .stop) :
    ∃ ups : List HookResult, calls.filter Call.isHook = ups.map HookResult.up ∧
      s'.live = s.live ++ ups.map Prod.fst := by
  cases h with
  | startFailed _ _ _ hwalk => exact hwalk.grows.exists_ups
  | started _ _ _ hwalk => exact hwalk.grows.exists_ups
  | uncalled _ _ hcalls => exact hcalls.grows.exists_ups
  | invoked _ _ hcalls hstarts => exact (hcalls.grows.trans hstarts.grows).exists_ups
  | stopOff => exact absurd rfl hop
  | stopped => exact absurd rfl hop
  | _ => exact ⟨[], rfl, by simp⟩

/-- A quiet operation calls nothing. -/
theorem Step.quiet {turn : Turn} {s s' : Status}
    (h : Step s turn.operation turn.calls turn.result s') (hquiet : turn.Quiet) :
    turn.calls = [] := by
  obtain ⟨operation, before, calls, result, after⟩ := turn
  cases hquiet with
  | register hop => cases hop; cases h <;> rfl
  | resolve hop => cases hop; cases h; rfl
  | refused hop hresult hrefuses =>
    cases hop
    cases hresult
    cases h with
    | startFailed _ _ _ hwalk => exact Bool.noConfusion (hrefuses.symm.trans hwalk.error)
    | _ => rfl

/-- Without a start, a container that is off calls nothing and stays off, and a stop succeeds. -/
theorem Step.idle {s s' : Status} (h : Step s op calls r s') (ho : s.InOrder)
    (hoff : s.on = false) (hop : op ≠ .start) :
    calls = [] ∧ s'.on = false ∧ (op = .stop → r = .ok none) := by
  have hrunning : s.running ≠ true := fun hr =>
    Bool.noConfusion (hoff.symm.trans (ho.on_of_running hr))
  cases h with
  | registerRunning => exact ⟨rfl, hoff, Operation.noConfusion⟩
  | registered => exact ⟨rfl, hoff, Operation.noConfusion⟩
  | notStarted => exact ⟨rfl, hoff, Operation.noConfusion⟩
  | uncalled _ hr => exact absurd hr hrunning
  | invoked _ hr => exact absurd hr hrunning
  | resolved => exact ⟨rfl, hoff, Operation.noConfusion⟩
  | stopOff => exact ⟨rfl, hoff, fun _ => rfl⟩
  | stopped hon => exact Bool.noConfusion (hoff.symm.trans hon)
  | _ => exact absurd rfl hop

/-- The stop hooks of records are called once each, in their order, and the failures reported. -/
theorem Unwinds.exists_downs (h : Unwinds records calls failures) : ∃ downs : List HookResult,
    calls = downs.map HookResult.down ∧ downs.map Prod.fst = records ∧
      failures = downs.filterMap HookResult.failure? := by
  induction h with
  | nil => exact ⟨[], rfl, rfl, rfl⟩
  | @down rest calls failures record _ ih =>
    obtain ⟨downs, rfl, rfl, rfl⟩ := ih
    exact ⟨(record, .ok ()) :: downs, rfl, rfl, rfl⟩
  | @fault rest calls failures record f _ ih =>
    obtain ⟨downs, rfl, rfl, rfl⟩ := ih
    exact ⟨(record, .error f) :: downs, rfl, rfl, rfl⟩

/-- A stop calls the stop hooks of the live records once each, latest first, and reports the
failures; then the container is off and has no live record. -/
theorem Step.exists_downs {s s' : Status} (h : Step s .stop calls r s') (ho : s.InOrder) :
    s'.running = false ∧ s'.live = [] ∧ ∃ downs : List HookResult,
      calls = downs.map HookResult.down ∧ downs.map Prod.fst = s.live.reverse ∧
        r = stopResult (downs.filterMap HookResult.failure?) := by
  cases h with
  | stopOff hoff =>
    have hlive := ho.live_of_off hoff
    exact ⟨rfl, hlive, [], rfl, by simp [hlive], rfl⟩
  | stopped hon hunwinds =>
    obtain ⟨downs, rfl, hrecords, rfl⟩ := hunwinds.exists_downs
    exact ⟨rfl, rfl, downs, rfl, hrecords, rfl⟩

/-- No failure is reported exactly if every stop hook succeeded. -/
theorem failures_eq_nil {downs : List HookResult} :
    downs.filterMap HookResult.failure? = [] ↔ ∀ down ∈ downs, down.2 = .ok () := by
  rw [List.filterMap_eq_nil_iff]
  refine forall_congr' fun down => forall_congr' fun _ => ?_
  obtain ⟨record, result⟩ := down
  cases result <;> simp [HookResult.failure?]

theorem stopResult_ok {failures : List StopFailure} :
    stopResult failures = .ok none ↔ failures = [] := by
  cases failures <;> simp [stopResult]

theorem stopResult_error {failures : List StopFailure} (h : stopResult failures ≠ .ok none) :
    stopResult failures = .error (.stop failures) := by
  cases failures with
  | nil => exact absurd rfl h
  | cons => rfl

/-! ## Runs -/

variable {σ : Type} (client : Client σ)

/-- Without a start, a container that is off calls no hook and stays off, and stops succeed. -/
theorem Client.play_idle {w : World σ} {ops : List Operation} (h : w.container.InOrder)
    (hoff : w.container.status.on = false) (hops : .start ∉ ops) :
    (∀ turn ∈ client.play w ops,
      turn.hooks = [] ∧ (turn.operation = .stop → turn.result = .ok none)) ∧
      (client.playOut w ops).container.status.on = false := by
  induction ops generalizing w with
  | nil => exact ⟨by simp [Client.play], hoff⟩
  | cons op ops ih =>
    rw [List.mem_cons, not_or] at hops
    obtain ⟨hop, hops⟩ := hops
    obtain ⟨hstep, hafter, hinOrder⟩ := client.perform_step op h
    obtain ⟨hcalls, hoff', hstop⟩ := hstep.idle h.status hoff (Ne.symm hop)
    rw [← hafter] at hinOrder hoff'
    obtain ⟨hrest, hout⟩ := ih hinOrder hoff' hops
    refine ⟨fun turn hmem => ?_, hout⟩
    rcases List.mem_cons.1 hmem with rfl | hmem
    · exact ⟨by rw [Turn.hooks, hcalls]; rfl, hstop⟩
    · exact hrest turn hmem

/-- Without a stop, start hooks are called one for each record made, and none by quiet
operations. -/
theorem Client.play_active {w : World σ} {ops : List Operation} (h : w.container.InOrder)
    (hops : .stop ∉ ops) : (∀ turn ∈ client.play w ops, turn.Quiet → turn.hooks = []) ∧
      ∃ ups : List HookResult, (client.play w ops).flatMap Turn.hooks = ups.map HookResult.up ∧
        (client.playOut w ops).container.history.live =
          w.container.history.live ++ ups.map Prod.fst := by
  induction ops generalizing w with
  | nil => exact ⟨by simp [Client.play], [], rfl, by simp [Client.playOut]⟩
  | cons op ops ih =>
    rw [List.mem_cons, not_or] at hops
    obtain ⟨hop, hops⟩ := hops
    obtain ⟨hstep, hafter, hinOrder⟩ := client.perform_step op h
    obtain ⟨ups, hhooks, hlive⟩ := hstep.exists_ups (Ne.symm hop)
    rw [← hafter] at hinOrder hlive
    obtain ⟨hquiet, ups', hhooks', hlive'⟩ := ih hinOrder hops
    refine ⟨fun turn hmem hturn => ?_, ups ++ ups', ?_, ?_⟩
    · rcases List.mem_cons.1 hmem with rfl | hmem
      · rw [Turn.hooks, Step.quiet hstep hturn]
        rfl
      · exact hquiet turn hmem hturn
    · rw [Client.play, List.flatMap_cons, hhooks', List.map_append, Turn.hooks, hhooks]
    · have hlive : (client.perform w op).2.container.history.live =
          w.container.history.live ++ ups.map Prod.fst := hlive
      rw [List.map_append, ← List.append_assoc, ← hlive]
      exact hlive'

/-- Runs of a new container are well bracketed. Whatever operations come before a stop, split them
into `before`, which is empty or ends with a stop, `idle` without a start, and `active` without a
stop: the turns of `idle`, those of `active`, the stop, and a start after it are `Bracketed`. -/
theorem Client.run_bracketed (client : Client σ) (config : ContainerConfig) (context : Context)
    (token : Token) (nextIdentity : Identity) (host : σ) (before idle active : List Operation)
    (hbefore : before = [] ∨ before.getLast? = some .stop) (hidle : .start ∉ idle)
    (hactive : .stop ∉ active) :
    let w₀ := client.playOut (.fresh config context token nextIdentity host) before
    let w₁ := client.playOut w₀ idle
    let w₂ := client.playOut w₁ active
    Bracketed (client.play w₀ idle) (client.play w₁ active) (client.perform w₂ .stop).1
      (client.perform (client.perform w₂ .stop).2 .start).1 := by
  intro w₀ w₁ w₂
  have hnew : (World.fresh config context token nextIdentity host).container.InOrder :=
    Container.new_inOrder config context token
  have h₀ : w₀.container.InOrder := Client.playOut_inOrder hnew before
  have h₁ : w₁.container.InOrder := Client.playOut_inOrder h₀ idle
  have h₂ : w₂.container.InOrder := Client.playOut_inOrder h₁ active
  have hoff₀ : w₀.container.status.on = false := Client.playOut_off hnew rfl hbefore
  obtain ⟨hidle, hoff₁⟩ := Client.play_idle client h₀ hoff₀ hidle
  obtain ⟨hquiet, ups, hups, hlive⟩ := Client.play_active client h₁ hactive
  have hnone : w₁.container.history.live = [] := h₁.status.live_of_off hoff₁
  obtain ⟨hstop, hafter, h₃⟩ := client.perform_step .stop h₂
  obtain ⟨hrunning, hempty, downs, hdowns, hrecords, hresult⟩ := hstop.exists_downs h₂.status
  have hoff₃ := hstop.off_of_stop
  rw [← hafter] at h₃ hoff₃
  obtain ⟨hstart, _, _⟩ := client.perform_step .start h₃
  have hups' : w₂.container.history.live = ups.map Prod.fst := by
    rw [← List.nil_append (ups.map Prod.fst), ← hnone]
    exact hlive
  refine ⟨fun turn hmem => (hidle turn hmem).1, fun turn hmem => (hidle turn hmem).2, hquiet,
    ⟨ups, downs, hups, hups', hdowns, ?_, ?_, ?_⟩, ⟨hrunning, ?_⟩, fun e he => ?_⟩
  · rw [hrecords, ← hups']
    rfl
  · rw [hresult, stopResult_ok, failures_eq_nil]
  · intro hne
    rw [hresult] at hne ⊢
    exact stopResult_error hne
  · rw [Container.started_eq]
    exact congrArg (List.map Record.label) hempty
  · rw [he] at hstart
    exact hstart.accepted h₃.status hoff₃

theorem Client.run_bracketed_steady :
    let client := Client.steady ⟨.made 0, some ⟨.plain, .made 0⟩⟩
    let idle := [.stop, .resolve .context]
    let active := [.start, .invoke ⟨[], [.ofName "app::Job"], 0⟩, .start]
    let w₀ := client.playOut (.fresh default (.root 0) ⟨1⟩ 0 ()) [.start, .stop]
    let w₁ := client.playOut w₀ idle
    let w₂ := client.playOut w₁ active
    Bracketed (client.play w₀ idle) (client.play w₁ active) (client.perform w₂ .stop).1
      (client.perform (client.perform w₂ .stop).2 .start).1 :=
  Client.run_bracketed _ default (.root 0) ⟨1⟩ 0 () [.start, .stop] _ _ (.inr rfl) (by simp)
    (by simp)

end Wiring
