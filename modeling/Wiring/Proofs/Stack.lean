import Wiring.Proofs.Steps

/-!
# The history as a stack

The history never gives up a record: a floor parts those of runs that are over from the live ones,
and a cursor moves over them. Whoever calls it sees a plain stack (`LiveStack`): a switch and the list
of the live services. Each command answers as it does on the stack, calls the same hooks and keeps
what the history shows the same as the stack (`Command.perform_shows`). So every sequence of
commands does (`History.refines_stack`).
-/

namespace Wiring

open World

variable {σ α : Type}

/-! ## Commands -/

/-- A command to a history. -/
inductive Command where
  | turnOn
  | recordAndStart (label : String) (service : Service)
  | beginStop
  | unwindAll
  | rewindToLatest
  | labels
  | length
  | state

/-- What a command answers. -/
inductive Answer where
  | done
  | ended (result : Except Error Unit)
  | began (stopping : Bool)
  | labels (labels : List String)
  | length (length : Nat)
  | state (switch : Switch)

/-- A command that only looks at the history or moves its cursor. -/
def Command.isLook : Command → Bool
  | rewindToLatest | labels | length | state => true
  | _ => false

/-- Carries out a command on the history of a container. -/
def Command.perform (client : Client σ) : Command → StateM (World (Recorded σ)) Answer
  | turnOn => do
    let action : Action (Recorded σ) Unit := do
      setHistory (← liftExcept (← get).container.history.turnOn)
    return .ended (← action.run)
  | recordAndStart label service => do
    return .ended (← (Container.recordAndStart client.recorded label service).run)
  | beginStop => do
    match (← get).container.history.beginStop? with
    | none => return .began false
    | some history =>
      setHistory history
      return .began true
  | unwindAll => do return .ended (← (Container.unwindAll client.recorded).run)
  | rewindToLatest => do
    setHistory (← get).container.history.rewindToLatest
    return .done
  | labels => do
    let (found, history) := (← get).container.history.labels
    setHistory history
    return .labels found
  | length => do return .length (← get).container.history.length
  | state => do return .state (← get).container.history.switch

/-! ## The stack -/

/-- Calls a callback of a program and writes down the call. -/
def Recorded.call (host : Recorded σ) (callback : StateM σ α) (call : α → Call) : α × Recorded σ :=
  let (a, state) := callback host.state
  (a, ⟨state, host.calls ++ [call a]⟩)

/-- Calls the stop hooks of services one after the other and collects the failures. -/
def Recorded.stopAll (client : Client σ) : List Record → Recorded σ → List StopFailure × Recorded σ
  | [], host => ([], host)
  | record :: rest, host =>
    let (result, host) := host.call (client.down record.service) (.down record.service)
    let (failures, host) := stopAll client rest host
    match result with
    | .ok () => (failures, host)
    | .error fault => (.mk record.label fault :: failures, host)

/-- A switch and the list of the live services, together with the program and the calls written
down. -/
structure LiveStack (σ : Type) where
  switch : Switch
  live : List Record
  host : Recorded σ

/-- Carries out a command on a stack; `signal` is what start hooks are passed. -/
def Command.performOnStack (client : Client σ) (signal : ServiceShape → Signal)
    (s : LiveStack σ) : Command → Answer × LiveStack σ
  | turnOn =>
    match s.switch with
    | .off => (.ended (.ok ()), { s with switch := .on })
    | .on => (.ended (.error (.trackerState "stop required after failed start")), s)
    | .stopping => (.ended (.error (.trackerState "cannot turn on while stopping")), s)
  | recordAndStart label service =>
    match s.switch with
    | .on =>
      let (result, host) :=
        s.host.call (client.up service (signal service.shape)) (.up label service)
      (.ended (startResult label result), { s with live := s.live ++ [⟨label, service⟩], host })
    | _ => (.ended (.error (.trackerState "record requires a running tracker")), s)
  | beginStop =>
    match s.switch with
    | .on => (.began true, { s with switch := .stopping })
    | _ => (.began false, s)
  | unwindAll =>
    match s.switch with
    | .stopping =>
      let (failures, host) := Recorded.stopAll client s.live.reverse s.host
      let result := match failures with
        | [] => .ok ()
        | failures => .error (.stop failures)
      (.ended result, ⟨.off, [], host⟩)
    | _ => (.ended (.error (.trackerState "unwind requires a stopping tracker")), s)
  | rewindToLatest => (.done, s)
  | labels => (.labels (s.live.map Record.label), s)
  | length => (.length s.live.length, s)
  | state => (.state s.switch, s)

/-! ## What the history shows -/

/-- The live records are a tail of all records, and the cursor stands behind the latest. -/
structure History.Parked (h : History) : Prop where
  floor : h.floor ≤ h.records.length
  cursor : h.cursor = h.records.length

namespace History

variable {h : History}

theorem Parked.live_record (hp : h.Parked) (r : Record) :
    (h.records ++ [r]).drop h.floor = h.live ++ [r] := List.drop_append_of_le_length hp.floor

theorem length_eq (h : History) : h.length = h.live.length := (List.length_drop ..).symm

end History

/-- The stack that the history of a container shows. -/
def World.stack (w : World (Recorded σ)) : LiveStack σ :=
  ⟨w.container.history.switch, w.container.history.live, w.host⟩

/-- The stop hooks of records are called in turn, and only notices are given besides. -/
theorem stopRecords_stopAll (client : Client σ) (records : List Record) (w : World (Recorded σ)) :
    ∃ notices, Container.stopRecords client.recorded records w =
      ((Recorded.stopAll client records w.host).1,
        { w with notices, host := (Recorded.stopAll client records w.host).2 }) := by
  induction records generalizing w with
  | nil => exact ⟨w.notices, rfl⟩
  | cons record rest ih =>
    have hcall : client.recorded.down record.service w =
        ((w.host.call (client.down record.service) (.down record.service)).1, { w with
          host := (w.host.call (client.down record.service) (.down record.service)).2 }) := rfl
    generalize hcalled : w.host.call (client.down record.service) (.down record.service) = called
      at hcall
    obtain ⟨result, host⟩ := called
    cases result with
    | ok _ =>
      obtain ⟨notices, hrest⟩ := ih { w with host }
      refine ⟨notices, ?_⟩
      simp only [Container.stopRecords, Recorded.stopAll, bind, StateT.bind, hcall, hcalled]
      exact hrest
    | error fault =>
      obtain ⟨notices, hrest⟩ := ih { w with
        notices := w.notices ++ [.downFailed record.label fault]
        host }
      refine ⟨notices, ?_⟩
      simp only [Container.stopRecords, Recorded.stopAll, bind, StateT.bind, hcall, hcalled]
      exact congrArg (fun out => (StopFailure.mk record.label fault :: out.1, out.2)) hrest

namespace Command

/-- A command answers as it does on the stack that the history shows, and leaves the same stack. -/
def Stacks (client : Client σ) (command : Command) (w : World (Recorded σ)) : Prop :=
  let out := command.perform client w
  command.performOnStack client w.container.signal w.stack = (out.1, out.2.stack) ∧
    out.2.container.history.Parked ∧ out.2.container.signal = w.container.signal

variable (client : Client σ) {w : World (Recorded σ)}

/-- It is enough to compare an action that is carried out with the stack. -/
theorem stacks_of_outcome {command : Command} {action : Action (Recorded σ) Unit}
    {result : Except Error Unit} {w' : World (Recorded σ)}
    (hperform : command.perform client = do return .ended (← action.run))
    (hout : action.outcome w = (result, w'))
    (hstack : command.performOnStack client w.container.signal w.stack = (.ended result, w'.stack))
    (hparked : w'.container.history.Parked) (hsignal : w'.container.signal = w.container.signal) :
    command.Stacks client w := by
  have hrun : command.perform client w = (.ended result, w') := by
    rw [hperform]
    exact congrArg (fun out => (Answer.ended out.1, out.2)) hout
  unfold Stacks
  rw [hrun]
  exact ⟨hstack, hparked, hsignal⟩

theorem turnOn_stacks (h : w.container.history.Parked) : turnOn.Stacks client w := by
  obtain ⟨⟨config, running, storage, ⟨records, floor, cursor, switch⟩, context, token⟩, _⟩ := w
  cases switch with
  | off => exact ⟨rfl, ⟨h.floor, h.cursor⟩, rfl⟩
  | on => exact ⟨rfl, h, rfl⟩
  | stopping => exact ⟨rfl, h, rfl⟩

theorem beginStop_stacks (h : w.container.history.Parked) : beginStop.Stacks client w := by
  obtain ⟨⟨config, running, storage, ⟨records, floor, cursor, switch⟩, context, token⟩, _⟩ := w
  cases switch with
  | off => exact ⟨rfl, h, rfl⟩
  | on => exact ⟨rfl, ⟨h.floor, h.cursor⟩, rfl⟩
  | stopping => exact ⟨rfl, h, rfl⟩

theorem recordAndStart_stacks (h : w.container.history.Parked) (label : String)
    (service : Service) : (recordAndStart label service).Stacks client w := by
  obtain ⟨⟨config, running, storage, ⟨records, floor, cursor, switch⟩, context, token⟩, _⟩ := w
  cases switch with
  | off => exact ⟨rfl, h, rfl⟩
  | stopping => exact ⟨rfl, h, rfl⟩
  | on =>
    have hlive := h.live_record ⟨label, service⟩
    refine stacks_of_outcome client rfl (recordAndStart_recorded client rfl label service)
      (Prod.ext rfl ?_) ⟨?_, rfl⟩ rfl
    · exact congrArg (fun live => LiveStack.mk .on live _) hlive.symm
    · exact Nat.le_trans h.floor (List.length_append ▸ Nat.le_add_right _ _)

theorem unwindAll_stacks (h : w.container.history.Parked) : unwindAll.Stacks client w := by
  by_cases hswitch : w.container.history.switch = .stopping
  · have hout := unwindAll_of_stopping client.recorded hswitch
    obtain ⟨notices, hstop⟩ := stopRecords_stopAll client w.container.history.live.reverse { w with
      container := { w.container with
        history := { w.container.history.rewindToLatest with
          floor := w.container.history.records.length
          switch := .off } } }
    simp only [hstop] at hout
    refine stacks_of_outcome client rfl hout ?_ ⟨Nat.le_refl _, rfl⟩ rfl
    -- What failed decides the result on both sides.
    cases hfailures : (Recorded.stopAll client w.container.history.live.reverse w.host).1 <;>
      simp only [performOnStack, World.stack, hswitch, hfailures] <;>
      simp only [History.live, History.rewindToLatest, List.drop_length]
  · obtain ⟨⟨config, running, storage, ⟨records, floor, cursor, switch⟩, context, token⟩, _⟩ := w
    cases switch with
    | off => exact ⟨rfl, h, rfl⟩
    | on => exact ⟨rfl, h, rfl⟩
    | stopping => exact absurd rfl hswitch

/-- Every command answers as it does on the stack. -/
theorem perform_stacks (command : Command) (h : w.container.history.Parked) :
    command.Stacks client w := by
  cases command with
  | turnOn => exact turnOn_stacks client h
  | recordAndStart label service => exact recordAndStart_stacks client h label service
  | beginStop => exact beginStop_stacks client h
  | unwindAll => exact unwindAll_stacks client h
  | rewindToLatest => exact ⟨rfl, ⟨h.floor, rfl⟩, rfl⟩
  | labels => exact ⟨rfl, ⟨h.floor, rfl⟩, rfl⟩
  | length =>
    exact ⟨Prod.ext (congrArg Answer.length w.container.history.length_eq.symm) rfl, h, rfl⟩
  | state => exact ⟨rfl, h, rfl⟩

end Command

/-! ## Sequences of commands -/

variable (client : Client σ) {w : World (Recorded σ)}

/-- Carries out commands on a stack one after the other. -/
def LiveStack.run (client : Client σ) (signal : ServiceShape → Signal) :
    List Command → LiveStack σ → List Answer × LiveStack σ
  | [], s => ([], s)
  | command :: rest, s =>
    let (answer, s) := command.performOnStack client signal s
    let (answers, s) := run client signal rest s
    (answer :: answers, s)

/-- Carries out commands on the history of a container one after the other. -/
def Command.performAll (client : Client σ) :
    List Command → World (Recorded σ) → List Answer × World (Recorded σ)
  | [], w => ([], w)
  | command :: rest, w =>
    let (answer, w) := command.perform client w
    let (answers, w) := performAll client rest w
    (answer :: answers, w)

theorem Command.performAll_stack (commands : List Command) (h : w.container.history.Parked) :
    let out := performAll client commands w
    LiveStack.run client w.container.signal commands w.stack = (out.1, out.2.stack) ∧
      out.2.container.history.Parked := by
  induction commands generalizing w with
  | nil => exact ⟨rfl, h⟩
  | cons command rest ih =>
    obtain ⟨hstack, hparked, hsignal⟩ := command.perform_stacks client h
    obtain ⟨hrest, hend⟩ := ih hparked
    rw [hsignal] at hrest
    simp only [LiveStack.run, performAll, hstack, hrest]
    exact ⟨rfl, hend⟩

namespace LiveStack

variable (signal : ServiceShape → Signal)

theorem run_append (before after : List Command) (s : LiveStack σ) :
    run client signal (before ++ after) s =
      ((run client signal before s).1 ++ (run client signal after (run client signal before s).2).1,
        (run client signal after (run client signal before s).2).2) := by
  induction before generalizing s with
  | nil => rfl
  | cons command rest ih => simp only [List.cons_append, run, ih]

theorem length_run (commands : List Command) (s : LiveStack σ) :
    (run client signal commands s).1.length = commands.length := by
  induction commands generalizing s with
  | nil => rfl
  | cons command rest ih => simp only [run, List.length_cons, ih]

/-- A command that only looks leaves a stack as it is. -/
theorem performOnStack_look {look : Command} (hlook : look.isLook = true) (s : LiveStack σ) :
    (look.performOnStack client signal s).2 = s := by
  cases look with
  | rewindToLatest | labels | length | state => rfl
  | _ => cases hlook

/-- Without a command that only looks the others answer the same, and the same stack is left. -/
theorem run_look (before after : List Command) {look : Command} (hlook : look.isLook = true)
    (s : LiveStack σ) :
    let out := run client signal (before ++ look :: after) s
    run client signal (before ++ after) s = (out.1.eraseIdx before.length, out.2) := by
  simp only [run_append, run, performOnStack_look client signal hlook]
  rw [List.eraseIdx_append_of_length_le (Nat.le_of_eq (length_run client signal before s)),
    length_run, Nat.sub_self, List.eraseIdx_cons_zero]

end LiveStack

/-- **The history refines a stack.** From a history without records, any commands answer as they do
on an empty stack and call the same hooks in the same order, and what the history shows in the end is
the stack that they leave. After any commands the cursor lies between the floor and the end of the
records, so no difference of these falls below zero. A command that only looks at the history or moves
its cursor could be left out, and every other answer, all calls and what is shown in the end would be
the same. -/
theorem History.refines_stack (w : World (Recorded σ)) (commands : List Command) :
    let start := { w with container := { w.container with history := .empty } }
    let out := Command.performAll client commands start
    LiveStack.run client w.container.signal commands ⟨.off, [], w.host⟩ = (out.1, out.2.stack) ∧
      (out.2.container.history.floor ≤ out.2.container.history.cursor ∧
        out.2.container.history.cursor ≤ out.2.container.history.records.length) ∧
      ∀ (before after : List Command) (look : Command), look.isLook = true →
        commands = before ++ look :: after →
          let rest := Command.performAll client (before ++ after) start
          rest.1 = out.1.eraseIdx before.length ∧ rest.2.stack = out.2.stack := by
  intro start out
  have hstart : start.container.history.Parked := ⟨Nat.le_refl 0, rfl⟩
  obtain ⟨hstack, hparked⟩ := Command.performAll_stack client commands hstart
  refine ⟨hstack, ⟨hparked.cursor ▸ hparked.floor, Nat.le_of_eq hparked.cursor⟩, ?_⟩
  rintro before after look hlook rfl
  obtain ⟨hrest, _⟩ := Command.performAll_stack client (before ++ after) hstart
  have hsame := LiveStack.run_look client start.container.signal before after hlook
    start.stack
  rw [hstack, hrest] at hsame
  exact Prod.ext_iff.1 hsame

end Wiring
