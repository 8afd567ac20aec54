import Wiring.Proofs.Agreement
import Wiring.Proofs.Moments
import Wiring.Proofs.Retries
import Wiring.Proofs.Settled

/-!
# Providers are supplied from slots that are up

No constructor, template or invoked callable gets a service that is not up. The container does not
check this when it looks a component up. It follows from the order of a walk: what a provider requests
stands before it, no service waits in a slot that the walk has passed, and after a start with success
none waits anywhere. `Client.providers_supplied` states it of the moments of every operation after any
run: each argument and each value of a field comes from a resolved entry in the slot of its type, and
if that is a service, its start hook was called with success since the last stop.
-/

namespace Wiring

open World

/-! ## What is supplied -/

/-- A slot delivers a component for a requested type: it is the slot of the type, its entry is resolved
to the component, and if that is a service it runs, and some calls started it with success. -/
structure Storage.Delivers (s : Storage) (calls : List Call) (t : ComponentType) (a : Address)
    (c : Component) : Prop where
  slot : t.shared.slot? = some a
  entry : ∃ e, s.get? a = some e ∧ e.relation = .resolvedValue ∧ e.payload = .value c ∧
    ∀ service, c.service? = some service →
      e.service = .runningUp ∧ .up a.text service (.ok ()) ∈ calls

/-- All that a provider gets at a moment is delivered by slots, given the calls since the last stop. -/
def Moment.Supplied (m : Moment) (calls : List Call) : Prop :=
  match m.event with
  | .calls (.construct k args _) =>
    List.Forall₂ (fun t object => ∃ a c, m.container.storage.Delivers calls t a c ∧
      c.share? t = some object) k.callable.params args
  | .calls (.assemble k values _) =>
    ∀ value ∈ values.values, ∃ field ∈ k.fields, field.name = value.name ∧
      m.container.storage.Delivers calls field.type value.address value.component
  | _ => True

/-- Each of some moments is supplied, given the calls before the first of them. -/
def Supplied : List Call → List Moment → Prop
  | _, [] => True
  | calls, m :: ms => m.Supplied calls ∧ Supplied (calls ++ m.call?.toList) ms

namespace Supplied

variable {calls : List Call} {ms ms' : List Moment}

theorem append : Supplied calls (ms ++ ms') ↔
    Supplied calls ms ∧ Supplied (calls ++ ms.filterMap Moment.call?) ms' := by
  induction ms generalizing calls with
  | nil => simp [Supplied]
  | cons m ms ih =>
    have hcalls : calls ++ m.call?.toList ++ ms.filterMap Moment.call? =
        calls ++ (m :: ms).filterMap Moment.call? := by
      cases hcall : m.call? <;> simp [hcall]
    rw [List.cons_append, Supplied, Supplied, ih, hcalls, and_assoc]

/-- Moments at which no provider is called. -/
theorem of_none (h : ∀ call ∈ ms.filterMap Moment.call?, call.item? = none) : Supplied calls ms := by
  induction ms generalizing calls with
  | nil => trivial
  | cons m ms ih =>
    refine ⟨?_, ih fun call hmem => h call ?_⟩
    · obtain ⟨container, event⟩ := m
      cases event with
      | calls call =>
        have hnone := h call (by simp [Moment.call?])
        cases call with
        | construct => cases hnone
        | assemble => cases hnone
        | _ => trivial
      | _ => trivial
    · obtain ⟨m', hm', hcall⟩ := List.mem_filterMap.1 hmem
      exact List.mem_filterMap.2 ⟨m', List.mem_cons_of_mem _ hm', hcall⟩

end Supplied

/-! ## Services that are up -/

namespace Storage

variable {s s' : Storage} {calls calls' : List Call} {a : Address}

/-- The services that run were started with success in some calls. -/
def Upheld (s : Storage) (calls : List Call) : Prop :=
  ∀ ⦃a e service⦄, s.get? a = some e → e.service = .runningUp → e.service? = some service →
    .up a.text service (.ok ()) ∈ calls

/-- No service waits. -/
def Ready (s : Storage) : Prop := ∀ ⦃a e⦄, s.get? a = some e → e.service ≠ .pendingUp

theorem Upheld.mono (h : s.Upheld calls) (hsub : ∀ call ∈ calls, call ∈ calls') :
    s.Upheld calls' := fun _ _ _ hget hrunning hservice => hsub _ (h hget hrunning hservice)

theorem Upheld.of_resting (h : s.Resting) : s.Upheld calls :=
  fun _ _ _ hget hrunning => absurd hrunning (h hget)

/-- Registration starts no service. -/
theorem Upheld.add (h : s.Upheld calls) (hs : s.Sound) {item : Item} (hadd : s.add item = .ok s') :
    s'.Upheld calls := by
  intro a e service hget hrunning hservice
  obtain ⟨e', hget', hrunning'⟩ := running_of_add hadd hget hrunning
  have hres : e'.isResolved = true := by
    have hne := (hs.fits hget').notAService
    cases hres : e'.isResolved with
    | true => rfl
    | false => cases (hne hres).symm.trans hrunning'
  obtain ⟨state, shadowed, hget''⟩ := (Accrues.add hadd).endures.resolved hget' hres
  obtain rfl := Option.some.inj (hget.symm.trans hget'')
  exact h hget' hrunning' hservice

/-- What a request finds in a slot where no service waits is delivered. -/
theorem Sound.delivers (hs : s.Sound) (hup : s.Upheld calls) {t : ComponentType} {c : Component}
    (hlookup : s.lookup t = .ok (a, c))
    (hidle : ∀ e, s.get? a = some e → e.service ≠ .pendingUp) : s.Delivers calls t a c := by
  obtain ⟨hslot, hc⟩ := lookup_eq_ok.1 hlookup
  obtain ⟨e, hget, hcomponent⟩ := component?_eq_some.1 hc
  have hfits := hs.fits hget
  have hpayload := hfits.component?_eq.1 hcomponent
  have hhas : e.service? = c.service? := by simp only [Entry.service?, hpayload]
  refine ⟨hslot, e, hget, ?_, hpayload, fun service hservice => ?_⟩
  · cases hrelation : e.relation with
    | resolvedValue => rfl
    | newlyRegistered => simp [Entry.component?, hpayload, hrelation] at hcomponent
  · have hrunning : e.service = .runningUp := by
      cases hstate : e.service with
      | runningUp => rfl
      | pendingUp => exact absurd hstate (hidle e hget)
      | notAService =>
        have hnone := hfits.notAService_iff.1 hstate
        rw [hhas, hservice] at hnone
        cases hnone
    exact ⟨hrunning, hup hget hrunning (hhas.trans hservice)⟩

/-- Arguments are delivered if no service waits in the slots of the parameters. -/
theorem Sound.delivers_arguments (hs : s.Sound) (hup : s.Upheld calls) {params : List ComponentType}
    {args : List Object} (hargs : s.arguments params = .ok args)
    (hidle : ∀ t ∈ params, ∀ e, s.get? t.request.address = some e → e.service ≠ .pendingUp) :
    List.Forall₂ (fun t object => ∃ a c, s.Delivers calls t a c ∧ c.share? t = some object)
      params args := by
  refine ((List.forall₂_and_left _ _).2 ⟨hidle, forall_of_arguments hargs⟩).imp ?_
  rintro t object ⟨hidle, a, c, hlookup, hshare⟩
  refine ⟨a, c, hs.delivers hup hlookup ?_, hshare⟩
  rwa [← slot?_shared (lookup_eq_ok.1 hlookup).1]

/-- Field values are delivered if no service waits in the slots of the fields. -/
theorem Sound.delivers_fields (hs : s.Sound) (hup : s.Upheld calls) {fields : List Field}
    {values : FieldValues} (hvalues : s.fillFields fields (.empty a) = .ok values)
    (hidle : ∀ field ∈ fields, ∀ e, s.get? field.type.request.address = some e →
      e.service ≠ .pendingUp) :
    ∀ value ∈ values.values, ∃ field ∈ fields, field.name = value.name ∧
      s.Delivers calls field.type value.address value.component := by
  intro value hmem
  obtain hnone | ⟨field, hfield, hname, hlookup⟩ := exists_field_of_fillFields hvalues hmem
  · cases hnone
  · refine ⟨field, hfield, hname, hs.delivers hup hlookup ?_⟩
    rw [← slot?_shared (lookup_eq_ok.1 hlookup).1]
    exact hidle field hfield

end Storage

/-! ## Operations keep services up -/

variable {s₀ : Storage} {s s' : Scene} {a : Address} {e : Entry} {order done : List Address}
  {calls : List Call}

/-- The services that run in a walk were started in it. -/
theorem Progress.upheld (h : Progress s₀ s) : s.storage.Upheld s.calls := by
  intro a e service hget hrunning hservice
  rcases h.starts a with ⟨_, hidle⟩ | ⟨e', service', hget', _, hservice', hcalls⟩
  · exact absurd hrunning (hidle e hget)
  · obtain rfl := Option.some.inj (hget.symm.trans hget')
    obtain rfl := Option.some.inj (hservice.symm.trans hservice')
    have hmem : Call.up a.text service (.ok ()) ∈ s.calls.filter (Call.isStartOf a) :=
      hcalls ▸ List.mem_singleton.2 rfl
    exact (List.mem_filter.1 hmem).1

section Steps

variable {st st' : Status} {op : Operation} {made : List Call}
  {r : Except Error (Option Object)}

/-- Every operation leaves the services that run started, by the calls up to there. -/
theorem Step.upheld (h : Step st op made r st') (ho : st.InOrder) (hup : st.storage.Upheld calls) :
    st'.storage.Upheld (calls ++ made) := by
  have hmono : st.storage.Upheld (calls ++ made) :=
    hup.mono fun call hmem => List.mem_append_left _ hmem
  have hwalk : ∀ {order r after}, st.on = false → SettlesAll order st.scene r after →
      after.storage.Upheld (calls ++ after.calls) := fun hoff hwalk =>
    (hwalk.progress (.start ho.sound (ho.resting_of_off hoff))).upheld.mono fun call hmem =>
      List.mem_append_right _ hmem
  cases op with
  | register items =>
    cases h with
    | registerRunning => exact hmono
    | registered _ hadd =>
      have hadded := Storage.addAll_induction (p := fun storage => storage.Sound ∧ storage.Upheld calls)
        (fun ⟨hs, hup⟩ hadd => ⟨hs.add hadd, hup.add hs hadd⟩) items ⟨ho.sound, hup⟩
      rw [hadd] at hadded
      rw [List.append_nil]
      exact hadded.2
  | start =>
    cases h with
    | startFailed _ hoff _ hsettles => exact hwalk hoff hsettles
    | started _ hoff _ hsettles => exact hwalk hoff hsettles
    | _ => exact hmono
  | invoke =>
    rw [h.storage_eq_of_invoke]
    exact hmono
  | resolve =>
    cases h
    exact hmono
  | stop =>
    cases h with
    | stopOff => exact hmono
    | stopped => exact .of_resting st.storage.resting_resetRunning

/-- After a stop no service runs. -/
theorem Step.resting_of_stop (h : Step st .stop made r st') (ho : st.InOrder) :
    st'.storage.Resting := by
  cases h with
  | stopOff hoff => exact ho.resting_of_off hoff
  | stopped => exact st.storage.resting_resetRunning

/-- While a container runs, no service waits. -/
theorem Step.ready (h : Step st op made r st') (ho : st.InOrder)
    (hready : st.running = true → st.storage.Ready) (hrunning : st'.running = true) :
    st'.storage.Ready := by
  cases op with
  | register =>
    cases h with
    | registerRunning hr => exact hready hr
    | registered hr => cases hr.symm.trans hrunning
  | start =>
    cases h with
    | started _ hoff horder hwalk =>
      intro a e hget hpending
      have hsettled := hwalk.settled ho.sound (ho.resting_of_off hoff) horder
      have hsound := hwalk.sound ho.sound
      have hmem := hsound.mem_entries.2 ((hsound.fits hget).address_eq ▸ hget)
      rw [hsettled.service e hmem] at hpending
      split at hpending <;> cases hpending
    | alreadyStarted hr => exact hready hr
    | stopRequired hr => cases hr.symm.trans hrunning
    | _ => cases hrunning
  | invoke =>
    rw [h.storage_eq_of_invoke]
    cases h with
    | notStarted hr => cases hr.symm.trans hrunning
    | uncalled _ hr => exact hready hr
    | invoked _ hr => exact hready hr
  | resolve =>
    cases h
    exact hready hrunning
  | stop => cases h <;> cases hrunning

end Steps

/-- Between the operations of a run: the services that run were started since the last stop, and while
the container runs no service waits. -/
structure Supplying (turns : List Turn) (st : Status) : Prop where
  upheld : st.storage.Upheld ((sinceStop turns).flatMap Turn.calls)
  ready : st.running = true → st.storage.Ready

namespace Supplying

variable {σ : Type} {client : Client σ} {turns : List Turn}

theorem step {turn : Turn} (h : Supplying turns turn.before.status) (ho : turn.before.InOrder)
    (hstep : Step turn.before.status turn.operation turn.calls turn.result turn.after.status) :
    Supplying (turns ++ [turn]) turn.after.status := by
  refine ⟨?_, hstep.ready ho.status h.ready⟩
  rw [sinceStop_concat]
  split
  · next hstop =>
    have hop : turn.operation = .stop := by
      unfold Turn.isStop at hstop
      split at hstop
      · assumption
      · cases hstop
    rw [hop] at hstep
    exact .of_resting (hstep.resting_of_stop ho.status)
  · rw [List.flatMap_append]
    simpa using hstep.upheld ho.status h.upheld

theorem run {w : World σ} {ops : List Operation} (h : Supplying turns w.container.status)
    (ho : w.container.InOrder) :
    Supplying (turns ++ client.play w ops) (client.playOut w ops).container.status := by
  refine Client.play_induction (p := fun turns c => Supplying turns c.status)
    (fun op _ turns w ho h => ?_) h ho
  obtain ⟨hstep, _, _⟩ := client.perform_step op ho
  exact h.step ho hstep

end Supplying

/-! ## The moments of an operation -/

variable {σ : Type}

/-- The world in which of each moment only the call is recorded. -/
def World.summary (w : World (Logged σ)) : World (Recorded σ) :=
  { w with host := ⟨w.host.state, w.host.moments.filterMap Moment.call?⟩ }

/-- A callback that cannot reach the container adds one moment, which is its call. -/
theorem World.logging_simulates {α : Type} (earlier : List Moment) (perform : Performer σ)
    (callback : StateM σ α) (call : Container → α → Call) :
    World.Simulates (fun w w' => w' = w.summary ∧ earlier <+: w.host.moments)
      (World.logging ((Script.ofState callback).run perform) call)
      (World.recording callback call) := by
  rintro w _ ⟨rfl, hearlier⟩
  refine ⟨rfl, ?_, hearlier.trans (List.prefix_append _ _)⟩
  let moment : Moment := ⟨w.container, .calls (call w.container (callback w.host.state).1)⟩
  have hcalls : (w.host.moments ++ [moment]).filterMap Moment.call? =
      w.host.moments.filterMap Moment.call? ++ [call w.container (callback w.host.state).1] :=
    List.filterMap_append
  exact congrArg (fun calls => { w with host := Recorded.mk (callback w.host.state).2 calls })
    hcalls.symm

/-- What the moments record are the calls, and their list only grows. -/
theorem Client.program_simulates (client : Client σ) (perform : Performer σ)
    (earlier : List Moment) :
    Client.Simulates (fun w w' => w' = w.summary ∧ earlier <+: w.host.moments)
      (client.program.client perform) client.recorded where
  container := by
    rintro w _ ⟨rfl, _⟩
    rfl
  nextIdentity := by
    rintro w _ ⟨rfl, _⟩
    rfl
  change := by
    rintro w _ ⟨rfl, hearlier⟩ c _
    exact ⟨rfl, hearlier⟩
  announce := by
    rintro w _ ⟨rfl, hearlier⟩ notice
    exact ⟨rfl, hearlier⟩
  identify := by
    rintro w _ ⟨rfl, hearlier⟩
    exact ⟨rfl, hearlier⟩
  construct _ _ _ _ hw _ := World.logging_simulates earlier perform _ _ hw
  supply _ _ := World.logging_simulates earlier perform _ _
  assemble _ _ _ _ _ hw _ := World.logging_simulates earlier perform _ _ hw
  up _ _ := World.logging_simulates earlier perform _ _
  down _ := World.logging_simulates earlier perform _ _

/-- An action adds moments and takes none back. -/
def Action.Grows {α : Type} (x : Action (Logged σ) α) : Prop :=
  ∀ w, w.host.moments <+: (x.outcome w).2.host.moments

theorem Action.Grows.of_simulates {α : Type} {x : Action (Logged σ) α} {y : Action (Recorded σ) α}
    (h : ∀ earlier : List Moment, Action.Simulates
      (fun w w' => w' = w.summary ∧ earlier <+: w.host.moments) x y) : x.Grows :=
  fun w => (h w.host.moments (w := w) ⟨rfl, List.prefix_refl _⟩).2.2

/-- What an action adds first stays first, whatever comes after it. -/
theorem Action.prefix_bind {α β : Type} {x : Action (Logged σ) α} {f : α → Action (Logged σ) β}
    {ms : List Moment} {w : World (Logged σ)} (h : ms <+: (x.outcome w).2.host.moments)
    (hnext : ∀ a, (f a).Grows) : ms <+: ((x >>= f).outcome w).2.host.moments := by
  rw [Action.outcome_bind]
  generalize x.outcome w = out at h ⊢
  obtain ⟨_ | a, w'⟩ := out
  · exact h
  · exact h.trans (hnext a w')

theorem Action.Grows.bind {α β : Type} {x : Action (Logged σ) α} {f : α → Action (Logged σ) β}
    (h : x.Grows) (hnext : ∀ a, (f a).Grows) : (x >>= f).Grows :=
  fun w => Action.prefix_bind (h w) hnext

section

variable (client : Client σ) (perform : Performer σ)

/-- Calling a constructor is the first moment, with the container as it is. -/
theorem Container.call_first (c : Constructor) {w : World (Logged σ)} {args : List Object}
    (hargs : w.container.storage.arguments c.callable.params = .ok args) : ∃ answer,
      w.host.moments ++ [⟨w.container, .calls (.construct c args answer)⟩] <+:
        ((Container.call (client.program.client perform) c).outcome w).2.host.moments := by
  simp only [Container.call, Action.outcome_bind, Action.outcome_get, Action.outcome_liftExcept,
    hargs, Action.outcome_liftM]
  obtain ⟨answer, w₁, hout, hmoments⟩ : ∃ answer w₁,
      (client.program.client perform).construct c args w = (answer, w₁) ∧ w₁.host.moments =
        w.host.moments ++ [⟨w.container, .calls (.construct c args answer)⟩] := ⟨_, _, rfl, rfl⟩
  refine ⟨answer, ?_⟩
  rw [hout, ← hmoments]
  cases answer with
  | error f => exact List.prefix_refl _
  | ok _ =>
    exact Action.Grows.of_simulates (fun earlier => .lift (Container.supplyFrom_simulates
      (client.program_simulates perform earlier) c 0 _)) w₁

/-- Running a constructor begins with its call. -/
theorem Container.runConstructor_first (a : Address) (c : Constructor) {w : World (Logged σ)}
    {args : List Object}
    (hargs : w.container.storage.arguments c.callable.params = .ok args) : ∃ answer,
      w.host.moments ++ [⟨w.container, .calls (.construct c args answer)⟩] <+:
        ((Container.runConstructor (client.program.client perform) a c).outcome w).2.host.moments := by
  obtain ⟨answer, hfirst⟩ := Container.call_first client perform c hargs
  refine ⟨answer, Action.prefix_bind hfirst fun components => ?_⟩
  exact .bind (fun _ => List.prefix_refl _) fun _ => .of_simulates fun earlier =>
    Container.absorbAll_simulates (client.program_simulates perform earlier) components

/-- Assembling a template is the first moment, with the container as it is. -/
theorem Container.runTemplate_first (a : Address) (t : Template) {w : World (Logged σ)}
    {values : FieldValues}
    (hvalues : w.container.storage.fillFields t.fields (.empty a) = .ok values) : ∃ answer,
      w.host.moments ++ [⟨w.container, .calls (.assemble t values answer)⟩] <+:
        ((Container.runTemplate (client.program.client perform) a t).outcome w).2.host.moments := by
  simp only [Container.runTemplate, Action.outcome_bind, Action.outcome_get,
    Action.outcome_liftExcept, hvalues, Action.outcome_lift]
  obtain ⟨answer, w₁, hout, hmoments⟩ : ∃ answer w₁,
      (client.program.client perform).assemble t values w = (answer, w₁) ∧ w₁.host.moments =
        w.host.moments ++ [⟨w.container, .calls (.assemble t values answer)⟩] := ⟨_, _, rfl, rfl⟩
  refine ⟨answer, ?_⟩
  rw [hout, ← hmoments]
  cases answer with
  | error e => exact List.prefix_refl _
  | ok product =>
    exact Action.Grows.of_simulates (fun earlier => Container.absorb_simulates
      (client.program_simulates perform earlier) _) w₁

/-- Settling a free slot begins with the call of the provider there, if it is called at all. -/
theorem Container.settle_first {w : World (Logged σ)} {a : Address} {e : Entry} {call : Call}
    (h : Attempts w.container.storage a e call) : ∃ first, first.item? = call.item? ∧
      w.host.moments ++ [⟨w.container, .calls first⟩] <+:
        ((Container.settle (client.program.client perform) e).outcome w).2.host.moments := by
  cases h with
  | @construct c args result he _ hargs =>
    subst he
    obtain ⟨answer, hfirst⟩ := Container.runConstructor_first client perform a c hargs
    exact ⟨.construct c args answer, rfl, hfirst⟩
  | @assemble t values result he _ hvalues =>
    subst he
    obtain ⟨answer, hfirst⟩ := Container.runTemplate_first client perform a t hvalues
    exact ⟨.assemble t values answer, rfl, hfirst⟩

/-- Invoking a callable begins with its call. -/
theorem Container.invoke_first (callable : Callable) {w : World (Logged σ)} {args : List Object}
    (hrunning : w.container.running = true)
    (hargs : w.container.storage.arguments callable.params = .ok args) : ∃ answer,
      w.host.moments ++
          [⟨w.container, .calls (.construct ⟨w.nextIdentity, callable⟩ args answer)⟩] <+:
        ((Container.invoke (client.program.client perform) callable).outcome w).2.host.moments := by
  obtain ⟨answer, hfirst⟩ := Container.call_first client perform ⟨w.nextIdentity, callable⟩
    (w := { w with nextIdentity := w.nextIdentity + 1 }) hargs
  have hcalled := Action.prefix_bind hfirst fun components => .of_simulates fun earlier =>
    Container.startOutputs_simulates (client.program_simulates perform earlier) components
  rw [Action.outcome_bind] at hcalled
  refine ⟨answer, ?_⟩
  simp only [Container.invoke, Action.outcome_bind, Action.outcome_get, hrunning, if_true,
    Action.outcome_freshIdentity]
  exact hcalled

/-- Settling an entry adds no moment at which a provider is called, or the first one that it adds is
the call of the provider in the slot, with the container as it is, and the only one. -/
theorem Container.settle_moments {w : World (Logged σ)} {a : Address} {e : Entry}
    (hon : w.container.history.switch = .on) (hs : w.container.storage.Sound)
    (hget : w.container.storage.get? a = some e) : ∃ new,
      ((Container.settle (client.program.client perform) e).outcome w).2.host.moments =
        w.host.moments ++ new ∧
      ((∀ call ∈ new.filterMap Moment.call?, call.item? = none) ∨
        ∃ call rest, new = ⟨w.container, .calls call⟩ :: rest ∧
          Attempts w.container.storage a e call ∧
          ∀ call ∈ rest.filterMap Moment.call?, call.item? = none) := by
  obtain ⟨_, hsummary, new, hnew⟩ := Container.settle_simulates
    (client.program_simulates perform w.host.moments) e (w := w) ⟨rfl, List.prefix_refl _⟩
  have hnew : ((Container.settle (client.program.client perform) e).outcome w).2.host.moments =
      w.host.moments ++ new := hnew.symm
  have hcalls : ((Container.settle client.recorded e).outcome w.summary).2.scene.calls =
      w.host.moments.filterMap Moment.call? ++ new.filterMap Moment.call? := by
    rw [← List.filterMap_append, ← hnew]
    exact congrArg (fun w => w.host.calls) hsummary
  refine ⟨new, hnew, ?_⟩
  obtain ⟨hsettles, _⟩ := settle_obeys client e w.summary hon
  rcases hsettles.attempts hs hget with ⟨made, hmade, hnone⟩ | ⟨call, rest, hmade, hnone, h, _⟩
  · rw [List.append_cancel_left (hcalls.symm.trans hmade)]
    exact .inl hnone
  · have hadded := List.append_cancel_left (hcalls.symm.trans hmade)
    obtain ⟨first, _, more, hmore⟩ := Container.settle_first client perform h
    rw [hnew, List.append_assoc] at hmore
    obtain rfl := List.append_cancel_left hmore
    have hcons : first :: more.filterMap Moment.call? = call :: rest := hadded
    obtain ⟨rfl, hrest⟩ := List.cons.inj hcons
    exact .inr ⟨first, more, rfl, h, hrest ▸ hnone⟩

end

/-! ## Walks are supplied -/

/-- The call of a provider is supplied if no service waits in the slots that it requests. -/
theorem Attempts.supplied {container : Container} {call : Call}
    (h : Attempts container.storage a e call) (hs : container.storage.Sound)
    (hup : container.storage.Upheld calls)
    (hidle : ∀ t ∈ e.requirements, ∀ e', container.storage.get? t.request.address = some e' →
      e'.service ≠ .pendingUp) : Moment.Supplied ⟨container, .calls call⟩ calls := by
  cases h with
  | construct he _ hargs =>
    subst he
    exact hs.delivers_arguments hup hargs hidle
  | assemble he _ hvalues =>
    subst he
    exact hs.delivers_fields hup hvalues fun field hfield =>
      hidle _ (List.mem_map.2 ⟨field, hfield, rfl⟩)

/-- While a walk keeps pace, the call of the provider in the next slot is supplied. -/
theorem Paced.supplied {container : Container} {call : Call} {after : List Address}
    (hp : Paced s₀ done s) (hs₀ : s₀.Sound) (horder : s₀.graph.order = .ok (done ++ a :: after))
    (hstorage : container.storage = s.storage) (h : Attempts s.storage a e call)
    (hget : s.storage.get? a = some e) (period : List Call) :
    Moment.Supplied ⟨container, .calls call⟩ (period ++ s.calls) := by
  rw [← hstorage] at h
  refine h.supplied (hstorage ▸ hp.progress.sound) ?_ fun t ht e' hget' hpending => ?_
  · rw [hstorage]
    exact hp.progress.upheld.mono fun call hmem => List.mem_append_right _ hmem
  · have hget₀ : s₀.get? a = some e := by
      obtain ⟨item, _, _, rfl⟩ := h.exists_item
      cases h with
      | construct he => exact hp.progress.unresolved hget (congrArg Entry.isResolved he)
      | assemble he => exact hp.progress.unresolved hget (congrArg Entry.isResolved he)
    rw [hstorage] at hget'
    exact (hp.pending hget' hpending).2 (hs₀.requests_passed horder hget₀ ht)

section

variable (client : Client σ) (perform : Performer σ)

/-- A walk along an order of all slots is supplied. -/
theorem Container.settleAll_supplied {rest : List Address} {w : World (Logged σ)} (hs₀ : s₀.Sound)
    (horder : s₀.graph.order = .ok (done ++ rest)) (hon : w.container.history.switch = .on)
    (hp : Paced s₀ done w.summary.scene) (period : List Call) : ∃ new,
      ((Container.settleAll (client.program.client perform) rest).outcome w).2.host.moments =
        w.host.moments ++ new ∧
      Supplied (period ++ w.host.moments.filterMap Moment.call?) new := by
  induction rest generalizing done w with
  | nil => exact ⟨[], by simp [Container.settleAll], trivial⟩
  | cons a rest ih =>
    simp only [Container.settleAll, Action.outcome_bind, Action.outcome_get]
    have horder' : s₀.graph.order = .ok (done ++ [a] ++ rest) := by simpa using horder
    cases hget : w.container.storage.get? a with
    | none => exact ih horder' hon (hp.skip hget)
    | some e =>
      obtain ⟨new, hnew, hattempts⟩ := Container.settle_moments client perform hon
        hp.progress.sound hget
      have hsupplied : Supplied (period ++ w.host.moments.filterMap Moment.call?) new := by
        rcases hattempts with hnone | ⟨call, rest', rfl, h, hnone⟩
        · exact .of_none hnone
        · exact ⟨hp.supplied hs₀ horder rfl h hget period, .of_none hnone⟩
      obtain ⟨hsettles, htracks⟩ := settle_obeys client e w.summary hon
      obtain ⟨hresult, hsummary, _⟩ := Action.Simulates.outcome (Container.settle_simulates
        (client.program_simulates perform []) e) (w := w) ⟨rfl, List.nil_prefix⟩
      rw [hresult, hsummary] at hsettles
      rw [hsummary] at htracks
      simp only [Action.outcome_bind]
      generalize (Container.settle (client.program.client perform) e).outcome w = out
        at hnew hsettles htracks ⊢
      obtain ⟨err | _, w₁⟩ := out
      · exact ⟨new, hnew, hsupplied⟩
      · have hnew : w₁.host.moments = w.host.moments ++ new := hnew
        obtain ⟨new', hnew', hsupplied'⟩ := ih horder' (htracks.on hon) (hp.step hget hsettles)
        refine ⟨new ++ new', ?_, Supplied.append.2 ⟨hsupplied, ?_⟩⟩
        · rw [hnew', hnew, List.append_assoc]
        · rw [hnew, List.filterMap_append, ← List.append_assoc] at hsupplied'
          exact hsupplied'

/-- What a resolution does to the host it does while it settles the storage along its order, under a
history that has been turned on. -/
theorem Container.resolveAll_host {τ : Type} (client : Client (World τ)) (w : World τ) :
    ((Container.resolveAll client).outcome w).2.host = w.host ∨ ∃ order v,
      w.container.history.switch = .off ∧ w.container.storage.graph.order = .ok order ∧
      v.container.storage = w.container.storage ∧ v.container.history.switch = .on ∧
      v.host = w.host ∧ ((Container.resolveAll client).outcome w).2.host =
        ((Container.settleAll client order).outcome v).2.host := by
  simp only [Container.resolveAll, Action.outcome_bind, Action.outcome_get,
    Action.outcome_liftExcept]
  cases hswitch : w.container.history.switch with
  | on =>
    simp only [History.turnOn, hswitch]
    exact .inl trivial
  | stopping =>
    simp only [History.turnOn, hswitch]
    exact .inl trivial
  | off =>
    simp only [History.turnOn, hswitch, Action.outcome_setHistory]
    cases horder : w.container.storage.graph.order with
    | error e => exact .inl rfl
    | ok order =>
      have hrewound : ∀ v : World τ,
          ((do
            Container.settleAll client order
            change fun c => { c with history := c.history.rewindToLatest } :
              Action τ Unit).outcome v).2.host =
            ((Container.settleAll client order).outcome v).2.host := by
        intro v
        rw [Action.outcome_bind]
        generalize (Container.settleAll client order).outcome v = out
        obtain ⟨_ | _, _⟩ := out <;> rfl
      let v : World τ := { w with container := { w.container with
        history := { w.container.history with switch := .on } } }
      simp only
      split
      · let v' : World τ := { v with
          notices := w.notices ++ [.orderResolved w.container.config.name order] }
        rw [Action.outcome_bind, Action.outcome_announce]
        exact .inr ⟨order, v', trivial, rfl, rfl, rfl, rfl, hrewound v'⟩
      · exact .inr ⟨order, v, trivial, rfl, rfl, rfl, rfl, hrewound v⟩

/-- A start does nothing to the host but resolve. -/
theorem Container.start_host {τ : Type} (client : Client (World τ)) (w : World τ) :
    ((Container.start client).outcome w).2.host = w.host ∨ ∃ order v,
      w.container.history.switch = .off ∧ w.container.storage.graph.order = .ok order ∧
      v.container.storage = w.container.storage ∧ v.container.history.switch = .on ∧
      v.host = w.host ∧ ((Container.start client).outcome w).2.host =
        ((Container.settleAll client order).outcome v).2.host := by
  simp only [Container.start, Action.outcome_bind, Action.outcome_get]
  cases hrunning : w.container.running with
  | true => exact .inl rfl
  | false =>
    simp only [Bool.false_eq_true, if_false, Action.outcome_bind, Action.outcome_setRunning,
      Action.outcome_attempt]
    have hresolve := Container.resolveAll_host client
      { w with container := { w.container with running := true } }
    generalize (Container.resolveAll client).outcome _ = out at hresolve ⊢
    obtain ⟨_ | _, _⟩ := out <;> exact hresolve

end

section

variable {client : Client σ} (perform : Performer σ) {turns : List Turn} {w : World σ} {op : Operation}

/-- The calls among the moments of an operation are those of its turn. -/
theorem Operation.act_calls (op : Operation) (w : World σ) :
    ((op.act (client.program.client perform)).outcome w.unlogged).2.host.moments.filterMap
      Moment.call? = (client.perform w op).1.calls := by
  obtain ⟨_, hsummary, _⟩ := op.act_simulates (client.program_simulates perform [])
    (w := w.unlogged) ⟨rfl, List.nil_prefix⟩
  exact (congrArg (fun w => w.host.calls) hsummary).symm

/-- A start is supplied, whatever was called before it: the services that run are those that it
started. -/
theorem Operation.start_supplied (ho : w.container.InOrder) (period : List Call) : Supplied period
    ((Operation.start.act (client.program.client perform)).outcome w.unlogged).2.host.moments := by
  have hact : ((Operation.start.act (client.program.client perform)).outcome w.unlogged).2.host =
      ((Container.start (client.program.client perform)).outcome w.unlogged).2.host := by
    rw [Operation.act, Action.outcome_bind_pure]
  rw [hact]
  rcases Container.start_host (client.program.client perform) w.unlogged with
    hhost | ⟨order, v, hoff, horder, hstorage, hon, hv, hhost⟩
  · rw [hhost]
    trivial
  · rw [hhost]
    have hoff : w.container.history.switch = .off := hoff
    have hoff : w.container.status.on = false := by simp [Container.status, hoff]
    have hnone : v.host.moments = [] := congrArg Logged.moments hv
    have hscene : v.summary.scene = ⟨w.container.storage, []⟩ := by
      show Scene.mk v.container.storage (v.host.moments.filterMap Moment.call?) = _
      rw [hstorage, hnone]
      rfl
    have horder : w.container.storage.graph.order = .ok ([] ++ order) := horder
    obtain ⟨new, hnew, hsupplied⟩ := Container.settleAll_supplied client perform
      ho.status.sound horder hon
      (hscene ▸ .start ho.status.sound (ho.status.resting_of_off hoff)) period
    rw [hnone, List.nil_append] at hnew
    rw [hnone, List.filterMap_nil, List.append_nil] at hsupplied
    rw [hnew]
    exact hsupplied

namespace Supplying

variable (h : Supplying turns w.container.status) (ho : w.container.InOrder)

include h ho

/-- An invocation is supplied: no service waits while the container runs. -/
theorem invoke_supplied (callable : Callable) : Supplied ((sinceStop turns).flatMap Turn.calls)
    (((Operation.invoke callable).act (client.program.client perform)).outcome
      w.unlogged).2.host.moments := by
  have hcalls : _ = (client.perform w (.invoke callable)).1.calls :=
    Operation.act_calls perform (.invoke callable) w
  rcases client.perform_invoke ho callable with hnil | ⟨args, _, rest, hfirst, hrest, hrunning, hargs⟩
  · refine .of_none fun call hmem => ?_
    rw [hcalls, hnil] at hmem
    cases hmem
  · obtain ⟨answer, hcall⟩ := Container.invoke_first client perform callable (w := w.unlogged)
      hrunning hargs
    obtain ⟨more, hmore⟩ := Action.prefix_bind (f := fun _ => pure none) hcall fun _ _ =>
      List.prefix_refl _
    have hmoments : ⟨w.container,
        .calls (.construct ⟨w.nextIdentity, callable⟩ args answer)⟩ :: more =
        (((Operation.invoke callable).act (client.program.client perform)).outcome
          w.unlogged).2.host.moments := hmore
    rw [← hmoments] at hcalls ⊢
    rw [hfirst] at hcalls
    obtain ⟨_, hmore⟩ := List.cons.inj hcalls
    refine ⟨?_, .of_none (hmore ▸ hrest)⟩
    exact ho.status.sound.delivers_arguments h.upheld hargs fun _ _ _ hget =>
      h.ready hrunning hget

/-- While an operation is carried out, what is called is supplied. -/
theorem act_supplied (op : Operation) : Supplied ((sinceStop turns).flatMap Turn.calls)
    ((op.act (client.program.client perform)).outcome w.unlogged).2.host.moments := by
  by_cases hstart : op = .start
  · rw [hstart]
    exact Operation.start_supplied perform ho _
  · by_cases hinvoke : ∃ callable, op = .invoke callable
    · obtain ⟨callable, rfl⟩ := hinvoke
      exact h.invoke_supplied perform ho callable
    · obtain ⟨hstep, _, _⟩ := client.perform_step op ho
      refine .of_none fun call hmem => ?_
      rw [op.act_calls] at hmem
      exact hstep.asksNone hstart (fun callable hop => hinvoke ⟨callable, hop⟩) call hmem

end Supplying

end

/-- Whatever was done to a new container and whatever the program answers, at every moment of the next
operation a constructor, a template or an invoked callable gets only what resolved slots deliver, and
of the services among them the start hook was called with success since the last stop. -/
theorem Client.providers_supplied (client : Client σ) (config : ContainerConfig) (context : Context)
    (token : Token) (nextIdentity : Identity) (host : σ) (ops : List Operation) (op : Operation)
    (depth : Nat) :
    let w₀ := World.fresh config context token nextIdentity host
    let w := client.playOut w₀ ops
    (client.program.moments depth w [op]).filterMap Moment.call? = (client.perform w op).1.calls ∧
      Supplied ((sinceStop (client.play w₀ ops)).flatMap Turn.calls)
        (client.program.moments depth w [op]) := by
  intro w₀ w
  have hnew : w₀.container.InOrder := Container.new_inOrder config context token
  have ho : w.container.InOrder := Client.playOut_inOrder hnew ops
  have hstart : Supplying [] w₀.container.status :=
    ⟨.of_resting (hnew.status.resting_of_off rfl), nofun⟩
  have hsupplying : Supplying ([] ++ client.play w₀ ops) w.container.status := hstart.run hnew
  rw [List.nil_append] at hsupplying
  obtain ⟨perform, hperform⟩ : ∃ perform, client.program.perform depth =
      Operation.conclude (client.program.client perform) := by
    cases depth <;> exact ⟨_, rfl⟩
  let out := (op.act (client.program.client perform)).outcome w.unlogged
  have hmoments : client.program.moments depth w [op] =
      ⟨w.container, .begins⟩ :: (out.2.host.moments ++ [⟨out.2.container, .ends op out.1⟩]) := by
    simp only [Program.moments, List.foldl_cons, List.foldl_nil, hperform]
    rfl
  rw [hmoments]
  refine ⟨?_, trivial, Supplied.append.2 ⟨?_, trivial, trivial⟩⟩
  · rw [List.filterMap_cons_none rfl, List.filterMap_append, op.act_calls]
    exact List.append_nil _
  · exact (List.append_nil _).symm ▸ hsupplying.act_supplied perform ho op

end Wiring
