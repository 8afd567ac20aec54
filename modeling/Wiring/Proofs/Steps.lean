import Wiring.Proofs.Settling

/-!
# What an operation can do

`Step` lists what each operation of a container can do, with the calls it makes, its result and what
becomes of the container, which is seen as its `Status`. A container that is in order
(`Container.InOrder`) takes such a step and is in order again (`Client.perform_step`), whatever the
program answers, so a run of a new container is a run of such steps.
-/

namespace Wiring

/-! ## Statuses -/

/-- What the operations of a container depend on: what it stores, whether it runs, whether its
history is on, and the records of the services that are not stopped yet. -/
structure Status where
  storage : Storage
  running : Bool
  on : Bool
  live : List Record

/-- The records of the services that are not stopped yet, oldest first. -/
def History.live (h : History) : List Record := h.records.drop h.floor

/-- The status of a container. -/
def Container.status (c : Container) : Status :=
  ⟨c.storage, c.running, c.history.switch = .on, c.history.live⟩

theorem Container.started_eq (c : Container) : c.started = c.history.live.map Record.label := rfl

/-- A running container has a history that is on; while it is off there is no service to stop, and
none that runs; and the storage is sound. -/
structure Status.InOrder (s : Status) : Prop where
  sound : s.storage.Sound
  on_of_running : s.running = true → s.on = true
  live_of_off : s.on = false → s.live = []
  resting_of_off : s.on = false → s.storage.Resting

/-- The status of the container is in order, its live records are a tail of all records, and no stop
is under way. -/
structure Container.InOrder (c : Container) : Prop where
  status : c.status.InOrder
  floor : c.history.floor ≤ c.history.records.length
  switch : c.history.switch ≠ .stopping

/-! ## Steps -/

namespace Storage

/-- Adds items one after the other, up to the first that is refused. -/
def addAll (s : Storage) : List Item → Except Error Unit × Storage
  | [] => (.ok (), s)
  | item :: rest =>
    match s.add item with
    | .ok s => s.addAll rest
    | .error e => (.error e, s)

/-- What every addition keeps is kept by all of them. -/
theorem addAll_induction {p : Storage → Prop}
    (hadd : ∀ {s s' : Storage} {item : Item}, p s → s.add item = .ok s' → p s')
    (items : List Item) {s : Storage} (h : p s) : p (s.addAll items).2 := by
  induction items generalizing s with
  | nil => exact h
  | cons item rest ih =>
    rw [Storage.addAll]
    split
    · next s' hadded => exact ih (hadd h hadded)
    · exact h

theorem Sound.addAll {s : Storage} (h : s.Sound) (items : List Item) :
    (s.addAll items).2.Sound := addAll_induction (fun hs => hs.add) items h

theorem Resting.addAll {s : Storage} (h : s.Resting) (items : List Item) :
    (s.addAll items).2.Resting := addAll_induction (fun hs => hs.add) items h

/-- Adding items starts no service. -/
theorem running_of_addAll {s : Storage} (items : List Item) {a : Address} {e : Entry}
    (hget : (s.addAll items).2.get? a = some e) (hrunning : e.service = .runningUp) :
    ∃ e', s.get? a = some e' ∧ e'.service = .runningUp := by
  refine addAll_induction (p := fun added => ∀ e, added.get? a = some e → e.service = .runningUp →
    ∃ e', s.get? a = some e' ∧ e'.service = .runningUp) (fun h hadd e hget hrunning => ?_) items
    (fun e hget hrunning => ⟨e, hget, hrunning⟩) e hget hrunning
  obtain ⟨e', hget', hrunning'⟩ := running_of_add hadd hget hrunning
  exact h e' hget' hrunning'

end Storage

/-- The start of the services among the outputs of a callable, up to the first that fails. Nothing
is stored. -/
inductive StartsOutputs : List Component → Scene → Except Error Unit → Scene → Prop
  | nil : StartsOutputs [] s (.ok ()) s
  | skip : c.service? = none → StartsOutputs cs s r s' → StartsOutputs (c :: cs) s r s'
  | up : c.service? = some service →
      StartsOutputs cs
        ⟨s.storage, s.calls ++ [.up c.type.descriptor.address.text service (.ok ())]⟩ r s' →
      StartsOutputs (c :: cs) s r s'
  | fault (f : Fault) : c.service? = some service →
      StartsOutputs (c :: cs) s (.error (.serviceStart c.type.descriptor.address.text f))
        ⟨s.storage, s.calls ++ [.up c.type.descriptor.address.text service (.error f)]⟩

/-- Starting the outputs of a callable stores nothing. -/
theorem StartsOutputs.storage_eq (h : StartsOutputs cs s r s') : s'.storage = s.storage := by
  induction h with
  | nil => rfl
  | skip _ _ ih => exact ih
  | up _ _ ih => exact ih
  | fault => rfl

theorem StartsOutputs.grows (h : StartsOutputs cs s r s') : s.Grows s' := by
  induction h with
  | nil => exact .of_eq rfl
  | skip _ _ ih => exact ih
  | up _ _ ih => exact Scene.Grows.trans ⟨_, rfl, by simp⟩ ih
  | fault => exact ⟨_, rfl, by simp⟩

/-- The stop of recorded services in turn: the calls and the failures. -/
inductive Unwinds : List Record → List Call → List StopFailure → Prop
  | nil : Unwinds [] [] []
  | down : Unwinds rest calls failures →
      Unwinds (record :: rest) (.down record.service (.ok ()) :: calls) failures
  | fault (f : Fault) : Unwinds rest calls failures →
      Unwinds (record :: rest) (.down record.service (.error f) :: calls)
        (.mk record.label f :: failures)

/-- The result of a stop with the given failures. -/
def stopResult : List StopFailure → Except Error (Option Object)
  | [] => .ok none
  | failures => .error (.stop failures)

namespace Status

/-- The status after calls that leave a storage. -/
def gained (s : Status) (after : Scene) : Status :=
  { s with storage := after.storage, live := s.live ++ after.calls.filterMap Call.record? }

/-- The scene in which an operation begins. -/
def scene (s : Status) : Scene := ⟨s.storage, []⟩

theorem gained_scene (s : Status) : s.gained s.scene = s := by
  simp [gained, scene]

end Status

/-- What an operation can do: the calls it makes, its result, and the status it leaves. -/
inductive Step (s : Status) :
    Operation → List Call → Except Error (Option Object) → Status → Prop
  | registerRunning : s.running = true → Step s (.register items) [] (.error .running) s
  | registered : s.running = false → s.storage.addAll items = (r, storage) →
      Step s (.register items) [] (r.map fun _ => none) { s with storage }
  | alreadyStarted : s.running = true → Step s .start [] (.error .alreadyStarted) s
  | stopRequired : s.running = false → s.on = true →
      Step s .start [] (.error (.trackerState "stop required after failed start")) s
  | unordered : s.running = false → s.on = false → s.storage.graph.order = .error e →
      Step s .start [] (.error e) { s with running := false, on := true }
  | startFailed : s.running = false → s.on = false → s.storage.graph.order = .ok order →
      SettlesAll order s.scene (.error e) after →
      Step s .start after.calls (.error e)
        { s.gained after with running := false, on := true }
  | started : s.running = false → s.on = false → s.storage.graph.order = .ok order →
      SettlesAll order s.scene (.ok ()) after →
      Step s .start after.calls (.ok none) { s.gained after with running := true, on := true }
  | notStarted : s.running = false → Step s (.invoke callable) [] (.error .notStarted) s
  | uncalled (identity : Identity) : s.running = true →
      Calls ⟨identity, callable⟩ s.scene (.error e) after →
      Step s (.invoke callable) after.calls (.error e) (s.gained after)
  | invoked (identity : Identity) : s.running = true →
      Calls ⟨identity, callable⟩ s.scene (.ok components) called →
      StartsOutputs components called r after →
      Step s (.invoke callable) after.calls (r.map fun _ => none) (s.gained after)
  | resolved (r : Except Error (Option Object)) : Step s (.resolve type) [] r s
  | stopOff : s.on = false → Step s .stop [] (.ok none) { s with running := false }
  | stopped : s.on = true → Unwinds s.live.reverse calls failures →
      Step s .stop calls (stopResult failures) ⟨s.storage.resetRunning, false, false, []⟩

open World

variable {σ : Type} (client : Client σ)

/-! ## Operations take steps -/

theorem addItems_outcome (items : List Item) (w : World σ) :
    (Container.addItems items).outcome w = ((w.container.storage.addAll items).1,
      { w with container := { w.container with
          storage := (w.container.storage.addAll items).2 } }) := by
  induction items generalizing w with
  | nil => rfl
  | cons item rest ih =>
    simp only [Container.addItems, Action.outcome_bind, Action.outcome_get,
      Action.outcome_liftExcept, Storage.addAll]
    cases w.container.storage.add item with
    | ok storage => simp only [Action.outcome_setStorage, ih]
    | error e => rfl

theorem startOutputs_obeys (cs : List Component) :
    (Container.startOutputs client.recorded cs).Obeys (StartsOutputs cs) := by
  induction cs with
  | nil => exact fun w _ => ⟨.nil, .refl w⟩
  | cons c cs ih =>
    intro w hon
    simp only [Container.startOutputs]
    cases hservice : c.service? with
    | none =>
      obtain ⟨hrest, htracks⟩ := ih w hon
      exact ⟨.skip hservice hrest, htracks⟩
    | some service =>
      obtain ⟨result, w₁, hout, hscene, htracks⟩ := recordAndStart_outcome client hon
        c.type.descriptor.address.text service
      simp only [Action.outcome_bind, hout]
      cases result with
      | error f =>
        refine ⟨?_, htracks⟩
        simp only [startResult, hscene]
        exact .fault f hservice
      | ok _ =>
        obtain ⟨hrest, htracks'⟩ := ih w₁ (htracks.on hon)
        rw [hscene] at hrest
        exact ⟨.up hservice hrest, htracks.trans htracks'⟩

/-- The stop hooks of records are called in turn, and nothing else changes but the notices. -/
theorem stopRecords_run (records : List Record) (w : World (Recorded σ)) :
    ∃ calls failures notices state, Unwinds records calls failures ∧
      Container.stopRecords client.recorded records w =
        (failures, { w with notices, host := ⟨state, w.host.calls ++ calls⟩ }) := by
  induction records generalizing w with
  | nil => exact ⟨[], [], w.notices, w.host.state, .nil, by simp [Container.stopRecords]; rfl⟩
  | cons record rest ih =>
    obtain ⟨result, state, hout⟩ : ∃ result state, client.recorded.down record.service w =
        (result, { w with host := ⟨state, w.host.calls ++ [.down record.service result]⟩ }) :=
      ⟨_, _, rfl⟩
    cases result with
    | ok _ =>
      obtain ⟨calls, failures, notices, state', hunwinds, hrest⟩ := ih
        { w with host := ⟨state, w.host.calls ++ [.down record.service (.ok ())]⟩ }
      refine ⟨_, _, notices, state', .down hunwinds, ?_⟩
      simp only [Container.stopRecords, bind, StateT.bind, hout, hrest]
      simp
    | error f =>
      obtain ⟨calls, failures, notices, state', hunwinds, hrest⟩ := ih
        { w with
          notices := w.notices ++ [.downFailed record.label f]
          host := ⟨state, w.host.calls ++ [.down record.service (.error f)]⟩ }
      refine ⟨_, _, notices, state', .fault f hunwinds, ?_⟩
      simp only [Container.stopRecords, bind, StateT.bind, hout]
      simp only [List.append_assoc, List.singleton_append] at hrest
      exact congrArg (fun out => (StopFailure.mk record.label f :: out.1, out.2)) hrest

/-- Unwinding turns the history off and then calls the stop hooks of its live records, latest
first. -/
theorem unwindAll_of_stopping (client : Client (World σ)) {w : World σ}
    (h : w.container.history.switch = .stopping) :
    let stopped := Container.stopRecords client w.container.history.live.reverse { w with
      container := { w.container with
        history := { w.container.history.rewindToLatest with
          floor := w.container.history.records.length
          switch := .off } } }
    (Container.unwindAll client).outcome w =
      (match stopped.1 with | [] => .ok () | failures => .error (.stop failures), stopped.2) := by
  have hunwind : w.container.history.unwind = .ok (w.container.history.live.reverse,
      { w.container.history.rewindToLatest with
        floor := w.container.history.records.length
        switch := .off }) := by
    simp [History.unwind, h, History.walkBack, History.rewindToLatest, History.live]
  simp only [Container.unwindAll, Action.outcome_bind, Action.outcome_get, hunwind,
    Action.outcome_setHistory, Action.outcome_liftM]
  generalize Container.stopRecords client _ _ = stopped
  obtain ⟨failures, w'⟩ := stopped
  cases failures <;> rfl

/-- Stopping calls the stop hooks of the live records, latest first, and turns the history off. -/
theorem unwindAll_outcome {w : World (Recorded σ)} (h : w.container.history.switch = .stopping) :
    ∃ calls failures notices state, Unwinds w.container.history.live.reverse calls failures ∧
      (Container.unwindAll client.recorded).outcome w =
        (match failures with | [] => .ok () | failures => .error (.stop failures),
          { w with
            notices
            container := { w.container with
              history := { w.container.history.rewindToLatest with
                floor := w.container.history.records.length
                switch := .off } }
            host := ⟨state, w.host.calls ++ calls⟩ }) := by
  obtain ⟨calls, failures, notices, state, hunwinds, hstop⟩ :=
    stopRecords_run client w.container.history.live.reverse { w with
      container := { w.container with
        history := { w.container.history.rewindToLatest with
          floor := w.container.history.records.length
          switch := .off } } }
  refine ⟨calls, failures, notices, state, hunwinds, ?_⟩
  rw [unwindAll_of_stopping client.recorded h]
  simp only [hstop]

/-- What has been tracked is gained by the status. -/
theorem World.Tracks.status {w w' : World (Recorded σ)} (h : Tracks w w') (hnone : w.host.calls = [])
    (hfloor : w.container.history.floor ≤ w.container.history.records.length) :
    w'.container.status = { w.container.status.gained w'.scene with
      on := w.container.status.on } := by
  obtain ⟨new, hcalls, hrecords, _⟩ := h.calls
  have hnew : w'.host.calls = new := by rw [hcalls, hnone, List.nil_append]
  simp only [Container.status, Status.gained, scene, h.running, h.switch, History.live, h.floor,
    hrecords, hnew, List.drop_append_of_le_length hfloor]

theorem World.Tracks.not_stopping {w w' : World (Recorded σ)} (h : Tracks w w')
    (hon : w.container.history.switch = .on) : w'.container.history.switch ≠ .stopping := by
  rw [h.on hon]
  decide

/-- Before the first call, what a resolution works on is the storage. -/
theorem World.scene_status (w : World (Recorded σ)) (hnone : w.host.calls = []) :
    w.container.status.scene = w.scene := by
  rw [World.scene, hnone]
  rfl

/-- What has been tracked leaves the floor below the records. -/
theorem World.Tracks.floor_le {w w' : World (Recorded σ)} (h : Tracks w w')
    (hfloor : w.container.history.floor ≤ w.container.history.records.length) :
    w'.container.history.floor ≤ w'.container.history.records.length := by
  obtain ⟨new, _, hrecords, _⟩ := h.calls
  rw [h.floor, hrecords, List.length_append]
  omega

/-- Notices do not count. -/
theorem World.Tracks.of_notices {w w' : World (Recorded σ)} {notices : List Notice}
    (h : Tracks { w with notices } w') : Tracks w w' :=
  ⟨h.running, h.config, h.context, h.token, h.floor, h.switch, h.calls⟩

/-- Settling along an order and moving the cursor is described by the walk. -/
theorem settleAndRewind_obeys (order : List Address) :
    Action.Obeys (do
      Container.settleAll client.recorded order
      change fun c => { c with history := c.history.rewindToLatest }) (SettlesAll order) := by
  intro w hon
  obtain ⟨hwalk, htracks⟩ := settleAll_obeys client order w hon
  simp only [Action.outcome_bind]
  generalize (Container.settleAll client.recorded order).outcome w = out at hwalk htracks ⊢
  obtain ⟨e | _, w'⟩ := out
  · exact ⟨hwalk, htracks⟩
  · exact ⟨hwalk, htracks.trans ⟨rfl, rfl, rfl, rfl, rfl, rfl, [], by simp [History.rewindToLatest]⟩⟩

/-- Resolving turns a history on that is off; it computes the order and walks along it. -/
theorem resolveAll_outcome {w : World (Recorded σ)} (hoff : w.container.history.switch = .off) :
    ∃ r w', (Container.resolveAll client.recorded).outcome w = (r, w') ∧
      Tracks { w with container := { w.container with
        history := { w.container.history with switch := .on } } } w' ∧
      match w.container.storage.graph.order with
      | .error e => r = .error e ∧ w'.scene = w.scene
      | .ok order => SettlesAll order w.scene r w'.scene := by
  have hturn : w.container.history.turnOn = .ok { w.container.history with switch := .on } := by
    simp only [History.turnOn, hoff]
  simp only [Container.resolveAll, Action.outcome_bind, Action.outcome_get,
    Action.outcome_liftExcept, hturn, Action.outcome_setHistory]
  cases horder : w.container.storage.graph.order with
  | error e => exact ⟨_, _, rfl, .refl _, rfl, rfl⟩
  | ok order =>
    simp only
    split
    · rw [Action.outcome_bind, Action.outcome_announce]
      obtain ⟨hwalk, htracks⟩ := settleAndRewind_obeys client order
        { w with
          container := { w.container with
            history := { w.container.history with switch := .on } }
          notices := w.notices ++ [.orderResolved w.container.config.name order] } rfl
      exact ⟨_, _, rfl, htracks.of_notices, hwalk⟩
    · obtain ⟨hwalk, htracks⟩ := settleAndRewind_obeys client order
        { w with container := { w.container with
          history := { w.container.history with switch := .on } } } rfl
      exact ⟨_, _, rfl, htracks, hwalk⟩

/-- Calling a callable and starting its outputs is described by the two parts. -/
theorem callAndStart_obeys (c : Constructor) :
    Action.Obeys (do Container.startOutputs client.recorded (← Container.call client.recorded c))
      fun s r s' => (∃ e, r = .error e ∧ Calls c s (.error e) s') ∨
        ∃ components called, Calls c s (.ok components) called ∧
          StartsOutputs components called r s' := by
  intro w hon
  obtain ⟨hcalls, htracks⟩ := call_obeys client c w hon
  simp only [Action.outcome_bind]
  generalize (Container.call client.recorded c).outcome w = out at hcalls htracks ⊢
  obtain ⟨e | components, w₁⟩ := out
  · exact ⟨.inl ⟨e, rfl, hcalls⟩, htracks⟩
  · obtain ⟨hstarts, htracks'⟩ := startOutputs_obeys client components w₁ (htracks.on hon)
    exact ⟨.inr ⟨components, w₁.scene, hcalls, hstarts⟩, htracks.trans htracks'⟩

/-- An operation on a container in order, with no call made so far, takes a step. -/
def Operation.TakesStep (op : Operation) : Prop :=
  ∀ (w : World (Recorded σ)) (r : Except Error (Option Object)) (w' : World (Recorded σ)),
    w.container.InOrder → w.host.calls = [] → (op.act client.recorded).outcome w = (r, w') →
    Step w.container.status op w'.host.calls r w'.container.status ∧
      w'.container.history.floor ≤ w'.container.history.records.length ∧
      w'.container.history.switch ≠ .stopping

namespace Operation

theorem register_takesStep (items : List Item) : (register items).TakesStep client := by
  intro w r w' h hnone hout
  simp only [act, Container.register, Action.outcome_bind, Action.outcome_get] at hout
  cases hrunning : w.container.running with
  | true =>
    simp only [hrunning, if_true, Action.outcome_throw] at hout
    cases hout
    exact ⟨hnone ▸ .registerRunning hrunning, h.floor, h.switch⟩
  | false =>
    rw [if_neg (by simp [hrunning])] at hout
    simp only [addItems_outcome] at hout
    cases hadd : w.container.storage.addAll items with
    | mk result storage =>
      rw [hadd] at hout
      have hstep := Step.registered (s := w.container.status) hrunning hadd
      rw [← hnone] at hstep
      cases result <;> cases hout <;> exact ⟨hstep, h.floor, h.switch⟩

theorem start_takesStep : start.TakesStep client := by
  intro w r w' h hnone hout
  simp only [act, Container.start, Action.outcome_bind, Action.outcome_get] at hout
  cases hrunning : w.container.running with
  | true =>
    simp only [hrunning, if_true, Action.outcome_throw] at hout
    cases hout
    exact ⟨hnone ▸ .alreadyStarted hrunning, h.floor, h.switch⟩
  | false =>
    simp only [hrunning, Bool.false_eq_true, if_false, Action.outcome_bind,
      Action.outcome_setRunning, Action.outcome_attempt] at hout
    cases hswitch : w.container.history.switch with
    | stopping => exact absurd hswitch h.switch
    | on =>
      have hturn : w.container.history.turnOn =
          .error (.trackerState "stop required after failed start") := by
        simp only [History.turnOn, hswitch]
      simp only [Container.resolveAll, Action.outcome_bind, Action.outcome_get, hturn,
        Action.outcome_liftExcept, Action.outcome_setRunning, Action.outcome_announce,
        Action.outcome_throw] at hout
      cases hout
      have hon : w.container.status.on = true := by simp [Container.status, hswitch]
      have hstep := Step.stopRequired (s := w.container.status) hrunning hon
      rw [← hnone] at hstep
      refine ⟨?_, h.floor, h.switch⟩
      simpa [Container.status, hrunning] using hstep
    | off =>
      obtain ⟨result, w₁, hresolve, htracks, horder⟩ := resolveAll_outcome client
        (w := { w with container := { w.container with running := true } }) hswitch
      have hoff : w.container.status.on = false := by simp [Container.status, hswitch]
      have hfloor := htracks.floor_le h.floor
      have hswitch₁ : w₁.container.history.switch = .on := htracks.switch
      have hstatus : w₁.container.status = { w.container.status.gained w₁.scene with
          running := true
          on := true } := htracks.status hnone h.floor
      simp only [hresolve] at hout
      cases hgraph : w.container.storage.graph.order with
      | error e =>
        simp only [hgraph] at horder
        obtain ⟨rfl, hscene₁⟩ := horder
        simp only [Action.outcome_bind, Action.outcome_setRunning, Action.outcome_announce,
          Action.outcome_throw] at hout
        cases hout
        refine ⟨?_, hfloor, by simp [hswitch₁]⟩
        have hsame : w₁.scene = w.container.status.scene :=
          hscene₁.trans (w.scene_status hnone).symm
        have hcalls : w₁.host.calls = [] := congrArg Scene.calls hsame
        show Step _ _ w₁.host.calls _ { w₁.container.status with running := false }
        rw [hstatus, hsame, Status.gained_scene, hcalls]
        exact .unordered hrunning hoff hgraph
      | ok order =>
        simp only [hgraph] at horder
        have hwalk : SettlesAll order w.container.status.scene result w₁.scene := by
          rw [w.scene_status hnone]
          exact horder
        cases result with
        | ok _ =>
          simp only [Action.outcome_bind, Action.outcome_get, Action.outcome_announce,
            Action.outcome_pure] at hout
          cases hout
          have hstep := Step.started hrunning hoff hgraph hwalk
          rw [← hstatus] at hstep
          exact ⟨hstep, hfloor, by simp [hswitch₁]⟩
        | error e =>
          simp only [Action.outcome_bind, Action.outcome_setRunning, Action.outcome_announce,
            Action.outcome_throw] at hout
          cases hout
          refine ⟨?_, hfloor, by simp [hswitch₁]⟩
          show Step _ _ w₁.host.calls _ { w₁.container.status with running := false }
          rw [hstatus]
          exact .startFailed hrunning hoff hgraph hwalk

theorem invoke_takesStep (callable : Callable) : (invoke callable).TakesStep client := by
  intro w r w' h hnone hout
  simp only [act, Container.invoke, Action.outcome_bind, Action.outcome_get] at hout
  cases hrunning : w.container.running with
  | false =>
    simp only [hrunning, Bool.false_eq_true, if_false, Action.outcome_throw] at hout
    cases hout
    exact ⟨hnone ▸ .notStarted hrunning, h.floor, h.switch⟩
  | true =>
    have hon : w.container.history.switch = .on := by
      simpa [Container.status] using h.status.on_of_running hrunning
    rw [if_pos hrunning, Action.outcome_bind, Action.outcome_freshIdentity] at hout
    obtain ⟨hcalls, htracks⟩ := callAndStart_obeys client ⟨w.nextIdentity, callable⟩
      { w with nextIdentity := w.nextIdentity + 1 } hon
    have hscene : Status.scene w.container.status = w.scene := w.scene_status hnone
    have hfloor := htracks.floor_le h.floor
    have hswitch := htracks.not_stopping hon
    have hstatus := htracks.status hnone h.floor
    simp only at hout
    generalize Action.outcome _ _ = out at hcalls htracks hfloor hswitch hstatus hout
    obtain ⟨result, w₁⟩ := out
    have hafter : w₁.container.status = w.container.status.gained w₁.scene := hstatus
    obtain ⟨e, rfl, hcalls⟩ | ⟨components, called, hcalls, hstarts⟩ := hcalls
    · cases hout
      refine ⟨?_, hfloor, hswitch⟩
      rw [hafter]
      exact .uncalled w.nextIdentity hrunning (hscene ▸ hcalls)
    · have hstep := Step.invoked w.nextIdentity hrunning (hscene ▸ hcalls) hstarts
      rw [← hafter] at hstep
      cases result with
      | ok _ =>
        cases hout
        exact ⟨hstep, hfloor, hswitch⟩
      | error e =>
        cases hout
        exact ⟨hstep, hfloor, hswitch⟩

theorem stop_takesStep : stop.TakesStep client := by
  intro w r w' h hnone hout
  simp only [act, Container.stop, Action.outcome_bind, Action.outcome_get,
    Action.outcome_setRunning] at hout
  cases hswitch : w.container.history.switch with
  | stopping => exact absurd hswitch h.switch
  | off =>
    have hbegin : w.container.history.beginStop? = none := by
      simp only [History.beginStop?, hswitch]
    simp only [hbegin, Action.outcome_pure] at hout
    cases hout
    have hoff : w.container.status.on = false := by simp [Container.status, hswitch]
    have hstep := Step.stopOff hoff
    rw [← hnone] at hstep
    exact ⟨hstep, h.floor, h.switch⟩
  | on =>
    have hbegin : w.container.history.beginStop? =
        some { w.container.history with switch := .stopping } := by
      simp only [History.beginStop?, hswitch]
    obtain ⟨calls, failures, notices, state, hunwinds, hunwind⟩ := unwindAll_outcome client
      (w := { w with
        notices := w.notices ++
          [.stopping w.container.config.name w.container.history.length w.container.running]
        container := { w.container with
          running := false
          history := { w.container.history with switch := .stopping } } }) rfl
    simp only [hbegin, Action.outcome_bind, Action.outcome_setHistory, Action.outcome_announce,
      Action.outcome_attempt, Action.outcome_change, Action.outcome_liftExcept] at hout
    have hlength : ({ w.container.history with switch := .stopping } : History).length =
        w.container.history.length := rfl
    rw [hlength, hunwind] at hout
    have hon : w.container.status.on = true := by simp [Container.status, hswitch]
    have hstep := Step.stopped hon hunwinds
    cases failures with
    | nil =>
      cases hout
      refine ⟨?_, ?_, ?_⟩
      · simpa [hnone, stopResult, Container.status, History.live, History.rewindToLatest]
          using hstep
      · simp [History.rewindToLatest]
      · simp
    | cons failure failures =>
      cases hout
      refine ⟨?_, ?_, ?_⟩
      · simpa [hnone, stopResult, Container.status, History.live, History.rewindToLatest]
          using hstep
      · simp [History.rewindToLatest]
      · simp

theorem resolve_takesStep (type : ComponentType) : (resolve type).TakesStep client := by
  intro w r w' h hnone hout
  have hsame : w' = w := by
    simp only [act, Container.resolve, Action.outcome_bind, Action.outcome_get] at hout
    cases hrunning : w.container.running with
    | false =>
      simp only [hrunning, Bool.false_eq_true, if_false, Action.outcome_throw] at hout
      exact (congrArg Prod.snd hout).symm
    | true =>
      simp only [hrunning, if_true, Action.outcome_bind, Action.outcome_liftExcept] at hout
      rcases hlookup : w.container.storage.lookup type with _ | ⟨a, c⟩
      · rw [hlookup] at hout
        exact (congrArg Prod.snd hout).symm
      · simp only [hlookup] at hout
        cases hshare : c.share? type <;> rw [hshare] at hout <;>
          exact (congrArg Prod.snd hout).symm
  subst hsame
  exact ⟨hnone ▸ .resolved r, h.floor, h.switch⟩

end Operation

/-- While the history is on, a status with a sound storage is in order. -/
theorem Status.InOrder.of_on {s : Status} (hsound : s.storage.Sound) (hon : s.on = true) :
    s.InOrder :=
  ⟨hsound, fun _ => hon, fun hoff => Bool.noConfusion (hon.symm.trans hoff),
    fun hoff => Bool.noConfusion (hon.symm.trans hoff)⟩

/-- Calls that store nothing leave a status in order. -/
theorem Status.InOrder.gained {s : Status} {after : Scene} (h : s.InOrder) (hon : s.on = true)
    (hstorage : after.storage = s.storage) : (s.gained after).InOrder := by
  refine .of_on ?_ hon
  rw [Status.gained, hstorage]
  exact h.sound

/-- A step keeps a status in order. -/
theorem Step.inOrder {s s' : Status} (hstep : Step s op calls r s') (h : s.InOrder) :
    s'.InOrder := by
  cases hstep with
  | registerRunning => exact h
  | @registered items _ storage hrunning hadd =>
    have hsound : storage.Sound := by simpa [hadd] using h.sound.addAll items
    refine ⟨hsound, h.on_of_running, h.live_of_off, fun hoff => ?_⟩
    simpa [hadd] using (h.resting_of_off hoff).addAll items
  | alreadyStarted => exact h
  | stopRequired => exact h
  | unordered => exact .of_on h.sound rfl
  | startFailed _ _ _ hwalk => exact .of_on (hwalk.sound h.sound) rfl
  | started _ _ _ hwalk => exact .of_on (hwalk.sound h.sound) rfl
  | notStarted => exact h
  | uncalled _ hrunning hcalls => exact h.gained (h.on_of_running hrunning) hcalls.storage_eq
  | invoked _ hrunning hcalls hstarts =>
    exact h.gained (h.on_of_running hrunning) (hstarts.storage_eq.trans hcalls.storage_eq)
  | resolved => exact h
  | stopOff hoff =>
    exact ⟨h.sound, fun hr => Bool.noConfusion hr, h.live_of_off, h.resting_of_off⟩
  | stopped =>
    exact ⟨h.sound.resetRunning, fun hr => Bool.noConfusion hr, fun _ => rfl,
      fun _ => s.storage.resting_resetRunning⟩

/-- A stop leaves the history off. -/
theorem Step.off_of_stop {s s' : Status} (h : Step s .stop calls r s') : s'.on = false := by
  cases h with
  | stopOff hoff => exact hoff
  | stopped => rfl

/-- An invocation stores nothing. -/
theorem Step.storage_eq_of_invoke {s s' : Status} (h : Step s (.invoke callable) calls r s') :
    s'.storage = s.storage := by
  cases h with
  | notStarted => rfl
  | uncalled _ _ hcalls => exact hcalls.storage_eq
  | invoked _ _ hcalls hstarts => exact hstarts.storage_eq.trans hcalls.storage_eq

/-- A start walks along the order, from a container that is off, or calls nothing. -/
theorem Step.walk_of_start {s s' : Status} (h : Step s .start calls r s') :
    (∃ order r, s.on = false ∧ s.storage.graph.order = .ok order ∧
      SettlesAll order s.scene r ⟨s'.storage, calls⟩) ∨ calls = [] := by
  cases h with
  | startFailed _ hoff horder hwalk => exact .inl ⟨_, _, hoff, horder, hwalk⟩
  | started _ hoff horder hwalk => exact .inl ⟨_, _, hoff, horder, hwalk⟩
  | _ => exact .inr rfl

/-- Performing an operation on a container in order takes a step that leaves it in order. -/
theorem Client.perform_step (op : Operation) {w : World σ} (h : w.container.InOrder) :
    Step w.container.status op (client.perform w op).1.calls (client.perform w op).1.result
        (client.perform w op).1.after.status ∧
      (client.perform w op).2.container = (client.perform w op).1.after ∧
      (client.perform w op).1.after.InOrder := by
  have htakes : op.TakesStep client := by
    cases op with
    | register items => exact Operation.register_takesStep client items
    | start => exact Operation.start_takesStep client
    | invoke callable => exact Operation.invoke_takesStep client callable
    | resolve type => exact Operation.resolve_takesStep client type
    | stop => exact Operation.stop_takesStep client
  obtain ⟨hstep, hfloor, hswitch⟩ := htakes w.unrecorded _ _ h rfl rfl
  exact ⟨hstep, rfl, hstep.inOrder h.status, hfloor, hswitch⟩

/-! ## Runs -/

/-- The context and the token with which a container begins, as items. -/
def Container.seeds (context : Context) (token : Token) : List Item :=
  [.value (.ofContext context), .value (.ofToken token)]

/-- A new container stores its context and token like registered values. -/
theorem Container.storage_new (config : ContainerConfig) (context : Context) (token : Token) :
    Storage.empty.addAll (Container.seeds context token) =
      (.ok (), (Container.new config context token).storage) := rfl

/-- A new container is in order. -/
theorem Container.new_inOrder (config : ContainerConfig) (context : Context) (token : Token) :
    (Container.new config context token).InOrder := by
  have hsound := Storage.Sound.empty.addAll (Container.seeds context token)
  have hrest := Storage.Resting.empty.addAll (Container.seeds context token)
  rw [Container.storage_new config context token] at hsound hrest
  exact ⟨⟨hsound, fun hr => Bool.noConfusion hr, fun _ => rfl, fun _ => hrest⟩, Nat.le_refl 0,
    Switch.noConfusion⟩

variable {client}

/-- A run keeps a container in order. -/
theorem Client.playOut_inOrder {w : World σ} (h : w.container.InOrder) (ops : List Operation) :
    (client.playOut w ops).container.InOrder := by
  induction ops generalizing w with
  | nil => exact h
  | cons op ops ih =>
    obtain ⟨_, hafter, hinOrder⟩ := client.perform_step op h
    exact ih (hafter ▸ hinOrder)

/-- What each operation of a run keeps, of the turns so far and the container, the run keeps. -/
theorem Client.play_induction {p : List Turn → Container → Prop} {ops : List Operation}
    (hstep : ∀ op ∈ ops, ∀ {turns : List Turn} {w : World σ}, w.container.InOrder →
      p turns w.container →
        p (turns ++ [(client.perform w op).1]) (client.perform w op).1.after)
    {turns : List Turn} {w : World σ} (h : p turns w.container) (ho : w.container.InOrder) :
    p (turns ++ client.play w ops) (client.playOut w ops).container := by
  induction ops generalizing w turns with
  | nil =>
    rw [Client.play, List.append_nil]
    exact h
  | cons op ops ih =>
    obtain ⟨_, hafter, ho'⟩ := client.perform_step op ho
    have hturn := hstep op List.mem_cons_self ho h
    rw [← hafter] at hturn ho'
    have hrest := ih (fun op hop => hstep op (List.mem_cons_of_mem _ hop)) hturn ho'
    rw [List.append_assoc] at hrest
    exact hrest

theorem Client.play_append (w : World σ) (ops₁ ops₂ : List Operation) :
    client.play w (ops₁ ++ ops₂) =
      client.play w ops₁ ++ client.play (client.playOut w ops₁) ops₂ := by
  induction ops₁ generalizing w with
  | nil => rfl
  | cons op ops ih => simp [Client.play, Client.playOut, ih]

theorem Client.length_play (w : World σ) (ops : List Operation) :
    (client.play w ops).length = ops.length := by
  induction ops generalizing w with
  | nil => rfl
  | cons op ops ih => simp [Client.play, ih]

theorem Client.playOut_append (w : World σ) (ops₁ ops₂ : List Operation) :
    client.playOut w (ops₁ ++ ops₂) = client.playOut (client.playOut w ops₁) ops₂ := by
  simp [Client.playOut]

/-- A container that is stopped, or new, is off. -/
theorem Client.playOut_off {w : World σ} {ops : List Operation} (h : w.container.InOrder)
    (hoff : w.container.status.on = false) (hops : ops = [] ∨ ops.getLast? = some .stop) :
    (client.playOut w ops).container.status.on = false := by
  rcases hops with rfl | hlast
  · exact hoff
  · obtain ⟨ops, rfl⟩ := List.getLast?_eq_some_iff.1 hlast
    rw [Client.playOut_append]
    obtain ⟨hstep, hafter, _⟩ := client.perform_step .stop (Client.playOut_inOrder h ops)
    have hoff' := hstep.off_of_stop
    rw [← hafter] at hoff'
    exact hoff'

end Wiring
