import Wiring.Proofs.Lifecycle
import Wiring.Proofs.Progress

/-!
# Agreement of what a container keeps

Whether a container runs, the switch of its history, the records there and the states of the services
in its slots are changed at different points of an operation. Between operations they agree with each
other and with the turns since the last stop: every step keeps `Agrees` (`Agrees.step`), and so does a
run (`Agrees.run`). From that follows what the next start, the next stop and giving the container up
would do (`Client.run_agreement`).
-/

namespace Wiring

/-! ## Turns since the last stop -/

namespace Turn

/-- Whether the turn is a stop. -/
def isStop (turn : Turn) : Bool :=
  match turn.operation with
  | .stop => true
  | _ => false

/-- The turn is a start that succeeded. -/
def Started (turn : Turn) : Prop := turn.operation = .start ∧ turn.result = .ok none

/-- The turn is a start of a container that did not run, and it failed. -/
def StartFailed (turn : Turn) : Prop :=
  turn.operation = .start ∧ turn.before.running = false ∧ ∃ e, turn.result = .error e

end Turn

/-- The turns after the last stop, or all of them if there is none. -/
def sinceStop (turns : List Turn) : List Turn :=
  (turns.reverse.takeWhile fun turn => !turn.isStop).reverse

theorem sinceStop_concat (turns : List Turn) (turn : Turn) :
    sinceStop (turns ++ [turn]) = if turn.isStop then [] else sinceStop turns ++ [turn] := by
  cases hstop : turn.isStop <;> simp [sinceStop, hstop]

/-! ## Running services are recorded -/

/-- Every service that runs in a slot is recorded under the address of the slot. -/
def Status.Labelled (s : Status) : Prop :=
  ∀ ⦃a e⦄, s.storage.get? a = some e → e.service = .runningUp → a.text ∈ s.live.map Record.label

variable {s s' : Status} {op : Operation} {calls : List Call} {r : Except Error (Option Object)}

/-- A service that a walk has started is recorded. -/
theorem SettlesAll.labelled {order : List Address} {result : Except Error Unit} {s₀ : Storage}
    {after : Scene} {a : Address} {e : Entry} (h : SettlesAll order ⟨s₀, []⟩ result after)
    (hs : s₀.Sound) (hrest : s₀.Resting) (hget : after.storage.get? a = some e)
    (hrunning : e.service = .runningUp) :
    a.text ∈ (after.calls.filterMap Call.record?).map Record.label := by
  rcases (h.progress (.start hs hrest)).starts a with ⟨_, hidle⟩ | ⟨_, service, _, _, _, hcalls⟩
  · exact absurd hrunning (hidle e hget)
  · have hmem : Call.up a.text service (.ok ()) ∈ after.calls.filter (Call.isStartOf a) :=
      hcalls ▸ List.mem_singleton.2 rfl
    have hcall := (List.mem_filter.1 hmem).1
    exact List.mem_map.2 ⟨⟨a.text, service⟩, List.mem_filterMap.2 ⟨_, hcall, rfl⟩, rfl⟩

/-- Calls that store nothing only add records. -/
theorem Status.Labelled.gained {after : Scene} (h : s.Labelled)
    (hstorage : after.storage = s.storage) : (s.gained after).Labelled := by
  intro a e hget hrunning
  have hget : after.storage.get? a = some e := hget
  rw [hstorage] at hget
  have hlabel := h hget hrunning
  rw [Status.gained, List.map_append]
  exact List.mem_append_left _ hlabel

/-- After a walk from a container that is off the services that run are recorded. -/
theorem Status.InOrder.labelled_of_walk {order : List Address} {result : Except Error Unit}
    {after : Scene} (ho : s.InOrder) (hoff : s.on = false)
    (hwalk : SettlesAll order s.scene result after) : (s.gained after).Labelled := by
  intro a e hget hrunning
  have hlabel := hwalk.labelled ho.sound (ho.resting_of_off hoff) hget hrunning
  rw [Status.gained, List.map_append]
  exact List.mem_append_right _ hlabel

/-- A step leaves the services that run recorded. -/
theorem Step.labelled (h : Step s op calls r s') (ho : s.InOrder) (hl : s.Labelled) :
    s'.Labelled := by
  cases h with
  | registerRunning => exact hl
  | @registered items _ storage _ hadd =>
    intro a e hget hrunning
    have hget : storage.get? a = some e := hget
    obtain rfl : (s.storage.addAll items).2 = storage := congrArg Prod.snd hadd
    obtain ⟨e', hget', hrunning'⟩ := Storage.running_of_addAll items hget hrunning
    exact hl hget' hrunning'
  | alreadyStarted => exact hl
  | stopRequired => exact hl
  | unordered => exact hl
  | startFailed _ hoff _ hwalk => exact ho.labelled_of_walk hoff hwalk
  | started _ hoff _ hwalk => exact ho.labelled_of_walk hoff hwalk
  | notStarted => exact hl
  | uncalled _ _ hcalls => exact hl.gained hcalls.storage_eq
  | invoked _ _ hcalls hstarts => exact hl.gained (hstarts.storage_eq.trans hcalls.storage_eq)
  | resolved => exact hl
  | stopOff => exact hl
  | stopped => exact fun a e hget hrunning => absurd hrunning (s.storage.resting_resetRunning hget)

/-! ## Statuses and turns -/

/-- A status agrees with the turns since the last stop: it runs exactly if a start among them
succeeded, it is on without running exactly if one failed, and what runs is recorded. -/
structure Agrees (since : List Turn) (s : Status) : Prop where
  labelled : s.Labelled
  running_iff : s.running = true ↔ ∃ turn ∈ since, turn.Started
  failed_iff : s.on = true ∧ s.running = false ↔ ∃ turn ∈ since, turn.StartFailed

theorem exists_mem_concat {α : Type} {xs : List α} {x : α} {p : α → Prop} :
    (∃ y ∈ xs ++ [x], p y) ↔ (∃ y ∈ xs, p y) ∨ p x := by
  simp [or_and_right, exists_or]

namespace Agrees

variable {since : List Turn} {turn : Turn}

/-- A turn that is no start and leaves the container on and running, or not, as it was. -/
theorem quiet (h : Agrees since s) (hop : turn.operation ≠ .start) (hl : s'.Labelled)
    (hrunning : s'.running = s.running) (hon : s'.on = s.on) : Agrees (since ++ [turn]) s' where
  labelled := hl
  running_iff := by
    rw [hrunning, h.running_iff, exists_mem_concat]
    exact (or_iff_left fun hstarted => hop hstarted.1).symm
  failed_iff := by
    rw [hon, hrunning, h.failed_iff, exists_mem_concat]
    exact (or_iff_left fun hfailed => hop hfailed.1).symm

/-- A start of a container that is off agrees with its result. -/
theorem start_of_off (h : Agrees since s) (hoff : s.on = false) (hl : s'.Labelled)
    (hon : s'.on = true) (hstarted : s'.running = true ↔ turn.Started)
    (hfailed : s'.running = false ↔ turn.StartFailed) (hrunning : s.running = false) :
    Agrees (since ++ [turn]) s' where
  labelled := hl
  running_iff := by
    rw [exists_mem_concat, ← h.running_iff, hrunning, hstarted]
    simp
  failed_iff := by
    rw [exists_mem_concat, ← h.failed_iff, hoff, hon, hfailed]
    simp

/-- A step of a turn keeps the agreement. -/
theorem step (turn : Turn) (h : Agrees since s) (ho : s.InOrder)
    (hbefore : turn.before.running = s.running)
    (hstep : Step s turn.operation turn.calls turn.result s') :
    Agrees (if turn.isStop then [] else since ++ [turn]) s' := by
  have hl := hstep.labelled ho h.labelled
  obtain ⟨operation, before, made, result, after⟩ := turn
  cases hstep with
  | registerRunning => exact h.quiet Operation.noConfusion hl rfl rfl
  | registered => exact h.quiet Operation.noConfusion hl rfl rfl
  | alreadyStarted hrunning =>
    refine ⟨hl, ?_, ?_⟩
    · exact iff_of_true hrunning (exists_mem_concat.2 (.inl (h.running_iff.1 hrunning)))
    · rw [h.failed_iff]
      refine (exists_mem_concat.trans (or_iff_left ?_)).symm
      rintro ⟨_, hbefore', _⟩
      cases hbefore'.symm.trans (hbefore.trans hrunning)
  | stopRequired hrunning hon =>
    refine ⟨hl, ?_, ?_⟩
    · rw [h.running_iff]
      exact (exists_mem_concat.trans (or_iff_left fun hstarted => nomatch hstarted.2)).symm
    · -- This start counts as failed, but it is only refused because one has failed before it.
      exact iff_of_true ⟨hon, hrunning⟩
        (exists_mem_concat.2 (.inl (h.failed_iff.1 ⟨hon, hrunning⟩)))
  | unordered hrunning hoff =>
    refine h.start_of_off hoff hl rfl ?_ ?_ hrunning
    · exact iff_of_false Bool.noConfusion fun hstarted => nomatch hstarted.2
    · exact iff_of_true rfl ⟨rfl, hbefore.trans hrunning, _, rfl⟩
  | startFailed hrunning hoff =>
    refine h.start_of_off hoff hl rfl ?_ ?_ hrunning
    · exact iff_of_false Bool.noConfusion fun hstarted => nomatch hstarted.2
    · exact iff_of_true rfl ⟨rfl, hbefore.trans hrunning, _, rfl⟩
  | started hrunning hoff =>
    refine h.start_of_off hoff hl rfl ?_ ?_ hrunning
    · exact iff_of_true rfl ⟨rfl, rfl⟩
    · exact iff_of_false Bool.noConfusion fun ⟨_, _, _, herror⟩ => nomatch herror
  | notStarted => exact h.quiet Operation.noConfusion hl rfl rfl
  | uncalled => exact h.quiet Operation.noConfusion hl rfl rfl
  | invoked => exact h.quiet Operation.noConfusion hl rfl rfl
  | resolved => exact h.quiet Operation.noConfusion hl rfl rfl
  | stopOff hoff => exact ⟨hl, by simp [Turn.isStop], by simp [Turn.isStop, hoff]⟩
  | stopped => exact ⟨hl, by simp [Turn.isStop], by simp [Turn.isStop]⟩

/-- A run keeps the agreement. -/
theorem run {σ : Type} {client : Client σ} {turns : List Turn} {w : World σ} {ops : List Operation}
    (h : Agrees (sinceStop turns) w.container.status) (ho : w.container.InOrder) :
    Agrees (sinceStop (turns ++ client.play w ops)) (client.playOut w ops).container.status := by
  refine Client.play_induction (p := fun turns c => Agrees (sinceStop turns) c.status)
    (fun op _ turns w ho h => ?_) h ho
  obtain ⟨hstep, _, _⟩ := client.perform_step op ho
  rw [sinceStop_concat]
  exact h.step (client.perform w op).1 ho.status rfl hstep

/-- A new container agrees with a run in which nothing has happened. -/
theorem new (config : ContainerConfig) (context : Context) (token : Token) :
    Agrees [] (Container.new config context token).status where
  labelled a e hget hrunning :=
    absurd hrunning ((Container.new_inOrder config context token).status.resting_of_off rfl hget)
  running_iff := iff_of_false Bool.noConfusion (by simp)
  failed_iff := iff_of_false (fun h => Bool.noConfusion h.1) (by simp)

end Agrees

/-! ## What comes next -/

/-- The history is on although the container does not run. -/
def Container.Stalled (c : Container) : Prop := c.history.switch = .on ∧ c.running = false

/-- The turn is a stop that turned the history off after calling the stop hooks of its records, latest
first; no record is left, and no service that runs. -/
structure Turn.Unwound (turn : Turn) : Prop where
  on : turn.before.history.switch = .on
  hooks : ∃ failures, Unwinds turn.before.history.live.reverse turn.calls failures ∧
    turn.result = stopResult failures
  off : turn.after.history.switch = .off
  stopped : turn.after.running = false
  live : turn.after.history.live = []
  resting : ∀ e ∈ turn.after.storage.entries, e.service ≠ .runningUp

/-- Only a stalled container refuses a start for the state of its history. -/
theorem Step.stalled_of_refused {reason : String}
    (h : Step s .start calls (.error (.trackerState reason)) s') :
    s.on = true ∧ s.running = false := by
  cases h with
  | stopRequired hrunning hon => exact ⟨hon, hrunning⟩
  | unordered _ _ horder => exact Bool.noConfusion (Graph.order_error horder)
  | startFailed _ _ _ hwalk => exact Bool.noConfusion hwalk.error

theorem Step.unwinds (h : Step s .stop calls r s') (hon : s.on = true) :
    ∃ failures, Unwinds s.live.reverse calls failures ∧ r = stopResult failures ∧
      s' = ⟨s.storage.resetRunning, false, false, []⟩ := by
  cases h with
  | stopOff hoff => cases hoff.symm.trans hon
  | stopped _ hunwinds => exact ⟨_, hunwinds, rfl, rfl⟩

namespace Container

variable {c : Container}

theorem on_iff : c.status.on = true ↔ c.history.switch = .on := decide_eq_true_iff

theorem off_iff (h : c.InOrder) : c.status.on = false ↔ c.history.switch = .off := by
  have hswitch := h.switch
  cases hc : c.history.switch <;> simp_all [status]

end Container

variable {σ : Type} (client : Client σ) {w : World σ}

namespace Client

/-- A start of a stalled container is refused, which is told; nothing else happens. -/
theorem perform_start_of_stalled (h : w.container.Stalled) :
    let e := Error.trackerState "stop required after failed start"
    client.perform w .start = (⟨.start, w.container, [], .error e, w.container⟩,
      { w with notices := w.notices ++ [.startFailed w.container.config.name e] }) := by
  obtain ⟨⟨config, running, storage, history, context, token⟩, identity, notices, host⟩ := w
  obtain ⟨hon, hrunning⟩ := h
  cases hrunning
  have hturn : history.turnOn = .error (.trackerState "stop required after failed start") := by
    simp only [History.turnOn, show history.switch = .on from hon]
  simp [perform, Operation.act, Container.start, Container.resolveAll, World.unrecorded,
    World.forget, hturn]

/-- A stop of a container that is off does nothing. -/
theorem perform_stop_of_off (hoff : w.container.history.switch = .off)
    (hrunning : w.container.running = false) :
    client.perform w .stop = (⟨.stop, w.container, [], .ok none, w.container⟩, w) := by
  obtain ⟨⟨config, running, storage, history, context, token⟩, identity, notices, host⟩ := w
  cases hrunning
  have hbegin : history.beginStop? = none := by
    simp only [History.beginStop?, show history.switch = .off from hoff]
  simp only [perform, Operation.act, Container.stop, Action.outcome_bind, Action.outcome_get,
    Action.outcome_setRunning, Action.outcome_pure, World.unrecorded, World.forget, hbegin]

/-- A stop of a container whose history is on unwinds it. -/
theorem unwound_of_on (h : w.container.InOrder) (hon : w.container.history.switch = .on) :
    (client.perform w .stop).1.Unwound := by
  obtain ⟨hstep, _, hafter⟩ := client.perform_step .stop h
  obtain ⟨failures, hunwinds, hresult, hstatus⟩ := hstep.unwinds (Container.on_iff.2 hon)
  have hstorage := congrArg Status.storage hstatus
  refine ⟨hon, ⟨failures, hunwinds, hresult⟩, ?_, congrArg Status.running hstatus,
    congrArg Status.live hstatus, fun e hmem hrunning => ?_⟩
  · exact (Container.off_iff hafter).1 (congrArg Status.on hstatus)
  · have hget := hafter.status.sound.mem_entries.1 hmem
    rw [hstorage] at hget
    exact w.container.storage.resting_resetRunning hget hrunning

end Client

/-- What a container keeps agrees, also with the turns since the last stop and with what a start, a
stop or giving the container up comes to next. -/
structure Agreement (client : Client σ) (since : List Turn) (w : World σ) : Prop where
  /-- No stop is under way. -/
  switch : w.container.history.switch = .off ∨ w.container.history.switch = .on
  /-- The container runs exactly if a start succeeded since the last stop. -/
  running_iff : w.container.running = true ↔ ∃ turn ∈ since, turn.Started
  /-- While it runs its history is on. -/
  on_of_running : w.container.running = true → w.container.history.switch = .on
  /-- While the history is off there is no record of a service to stop, and no service runs. -/
  off : w.container.history.switch = .off → w.container.history.live = [] ∧
    ∀ e ∈ w.container.storage.entries, e.service ≠ .runningUp
  /-- Each service that runs in a slot is recorded under the address of the slot. -/
  recorded : ∀ e ∈ w.container.storage.entries, e.service = .runningUp →
    ∃ record ∈ w.container.history.live, record.label = e.address.text
  /-- The container is stalled exactly if a start that was not turned away as a second one failed
  since the last stop. -/
  stalled_iff : w.container.Stalled ↔ ∃ turn ∈ since, turn.StartFailed
  /-- Exactly in a stalled container the state of the history refuses a start. -/
  refused_iff : (∃ reason, (client.perform w .start).1.result = .error (.trackerState reason)) ↔
    w.container.Stalled
  /-- That start calls nothing and changes nothing; it is told that it failed. -/
  refused : w.container.Stalled →
    let e := Error.trackerState "stop required after failed start"
    client.perform w .start = (⟨.start, w.container, [], .error e, w.container⟩,
      { w with notices := w.notices ++ [.startFailed w.container.config.name e] })
  /-- Exactly while the history is on a stop unwinds it, and so in a stalled container. -/
  unwound_iff : (client.perform w .stop).1.Unwound ↔ w.container.history.switch = .on
  /-- Any other stop does nothing. -/
  idle : w.container.history.switch = .off →
    client.perform w .stop = (⟨.stop, w.container, [], .ok none, w.container⟩, w)
  /-- Exactly while the history is on it is told if the container is given up. -/
  dropped : w.container.dropNotices = if w.container.history.switch = .on then
    [.droppedUnstopped w.container.config.name w.container.history.live.length] else []

/-- A container in order that agrees with some turns does so in every way. -/
theorem Agrees.agreement {since : List Turn} (h : Agrees since w.container.status)
    (ho : w.container.InOrder) : Agreement client since w where
  switch := by
    have hswitch := ho.switch
    cases hc : w.container.history.switch <;> simp_all
  running_iff := h.running_iff
  on_of_running hrunning := Container.on_iff.1 (ho.status.on_of_running hrunning)
  off hoff := by
    have hoff := (Container.off_iff ho).2 hoff
    refine ⟨ho.status.live_of_off hoff, fun e hmem => ?_⟩
    exact ho.status.resting_of_off hoff (ho.status.sound.mem_entries.1 hmem)
  recorded e hmem hrunning :=
    List.mem_map.1 (h.labelled (ho.status.sound.mem_entries.1 hmem) hrunning)
  stalled_iff := (and_congr_left fun _ => Container.on_iff.symm).trans h.failed_iff
  refused_iff := by
    refine ⟨fun ⟨reason, hresult⟩ => ?_, fun hstalled => ?_⟩
    · obtain ⟨hstep, _⟩ := client.perform_step .start ho
      rw [hresult] at hstep
      exact hstep.stalled_of_refused.imp_left Container.on_iff.1
    · rw [client.perform_start_of_stalled hstalled]
      exact ⟨_, rfl⟩
  refused := client.perform_start_of_stalled
  unwound_iff := ⟨Turn.Unwound.on, client.unwound_of_on ho⟩
  idle hoff := by
    refine client.perform_stop_of_off hoff (Bool.eq_false_iff.2 fun hrunning => ?_)
    cases hoff.symm.trans (Container.on_iff.1 (ho.status.on_of_running hrunning))
  dropped := by
    unfold Container.dropNotices
    cases hc : w.container.history.switch <;> simp [History.length, History.live]

/-- Between the operations of a run of a new container, what the container keeps agrees. -/
theorem Client.run_agreement (config : ContainerConfig) (context : Context) (token : Token)
    (nextIdentity : Identity) (host : σ) (ops : List Operation) :
    let w₀ := World.fresh config context token nextIdentity host
    Agreement client (sinceStop (client.play w₀ ops)) (client.playOut w₀ ops) := by
  intro w₀
  have hnew : w₀.container.InOrder := Container.new_inOrder config context token
  have hagrees : Agrees (sinceStop []) w₀.container.status := Agrees.new config context token
  exact (hagrees.run hnew).agreement client (Client.playOut_inOrder hnew ops)

end Wiring
