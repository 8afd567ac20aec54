import Wiring.Proofs.Consistency
import Wiring.Proofs.Regularity

/-!
# What a container relies on

The parts of a container check some things that should never fail: that a service which waits has a
start hook, that the graph has an order unless it has a cycle, that a plain value is resolved. None
of these checks fails in any run (`Program.moments_represented`), also where callbacks call the
container that called them. Every step, from the record of a service to a whole operation, is
`Sustained`: it leaves the storage regular and does not end with an error that would report such a
failure (`Error.Internal`). While a start hook runs, the storage only accrues, so the service is
still in its slot when it comes to count as running; and the slot of a constructor that has been
called may be marked as resolved whatever the call has made of it. That the branch for a plain value
that is not resolved is never taken is said with `Container.settleAllStrictly`, a walk that raises
an alarm there.
-/

namespace Wiring

open World

variable {σ α β : Type}

/-! ## Errors that cannot occur -/

/-- An error by which a container would report that its own data do not agree. -/
def Error.Internal : Error → Prop
  | .unknownServiceShape _ | .graphCalculation _ => True
  | _ => False

namespace Storage

variable {s : Storage} {err : Error}

theorem lookup_external {t : ComponentType} (h : s.lookup t = .error err) : ¬ err.Internal := by
  rcases lookup_eq_error h with ⟨_, rfl⟩ | ⟨_, _, _, rfl⟩ <;> exact id

theorem arguments_external {params : List ComponentType} (h : s.arguments params = .error err) :
    ¬ err.Internal := by
  obtain ⟨_, _, hlookup | ⟨_, _, _, _, _, rfl⟩⟩ := arguments_eq_error h
  · exact lookup_external hlookup
  · exact id

theorem fillFields_external {fields : List Field} {values : FieldValues}
    (h : s.fillFields fields values = .error err) : ¬ err.Internal := by
  obtain ⟨_, _, hlookup⟩ := fillFields_eq_error h
  exact lookup_external hlookup

theorem insert_external {e : Entry} (h : s.insert e = .error err) : ¬ err.Internal := by
  rcases insert_cases s e with ⟨_, heq⟩ | ⟨_, heq⟩ <;> cases heq.symm.trans h
  exact id

theorem insertProduct_external {c : Component} (h : s.insertProduct c = .error err) :
    ¬ err.Internal := by
  simp only [insertProduct] at h
  split at h
  · cases h
  · exact insert_external h

/-- A component that was stored is in its slot. -/
theorem get?_insertProduct {s' : Storage} {c : Component} {a : Address}
    (hslot : c.type.slot? = some a) (h : s.insertProduct c = .ok s') :
    s'.get? a = some (.resolved a c) := by
  simp only [insertProduct, hslot] at h
  rcases insert_cases s (.resolved a c) with ⟨_, heq⟩ | ⟨_, heq⟩ <;> cases heq.symm.trans h
  exact (get?_put _ _ _).trans (if_pos rfl)

theorem add_external {item : Item} (h : s.add item = .error err) : ¬ err.Internal := by
  cases item with
  | value c => cases h
  | constructor c => exact insert_external h
  | template t =>
    simp only [add] at h
    split at h
    · cases h
    · exact insert_external h

theorem addAll_external {items : List Item} (h : (s.addAll items).1 = .error err) :
    ¬ err.Internal := by
  induction items generalizing s with
  | nil => cases h
  | cons item rest ih =>
    rw [addAll] at h
    split at h
    · exact ih h
    · next hadd => exact Except.error.inj h ▸ add_external hadd

end Storage

theorem Graph.order_external {s : Storage} {err : Error} (h : s.graph.order = .error err) :
    ¬ err.Internal := by
  obtain ⟨path, rfl⟩ := Graph.order_eq_error s.graph_proper h
  exact id

theorem Container.assemblyError_external (a : Address) (err : Error) :
    ¬ (assemblyError a err).Internal := by
  cases err <;> exact id

theorem History.turnOn_external {h : History} {err : Error} (herr : h.turnOn = .error err) :
    ¬ err.Internal := by
  unfold turnOn at herr
  split at herr <;> cases herr <;> exact id

/-! ## Worlds -/

/-- The storage of the moment is regular, and no operation ends with an internal error. -/
structure Moment.Regular (m : Moment) : Prop where
  storage : m.container.storage.Regular
  external : ∀ ⦃op err⦄, m.event = .ends op (.error err) → ¬ err.Internal

/-- The storage of the world is regular, and of the moments so far `P` holds. -/
structure World.Regular (P : Moment → Prop) (w : World (Logged σ)) : Prop where
  storage : w.container.storage.Regular
  moments : ∀ m ∈ w.host.moments, P m

/-- A computation that begins in a regular world leaves a regular one. -/
def World.Maintains (P : Moment → Prop) (x : StateM (World (Logged σ)) α) : Prop :=
  ∀ ⦃w⦄, w.Regular P → (x w).2.Regular P

/-- The callbacks of a program keep a world regular. While a start hook runs the storage accrues. -/
structure Client.Regular (P : Moment → Prop) (client : Client (World (Logged σ))) : Prop where
  construct : ∀ c args, World.Maintains P (client.construct c args)
  supply : ∀ c position, World.Maintains P (client.supply c position)
  assemble : ∀ t values, World.Maintains P (client.assemble t values)
  up : ∀ service signal, World.Maintains P (client.up service signal)
  down : ∀ service, World.Maintains P (client.down service)
  accrues : ∀ service signal (w : World (Logged σ)),
    w.container.storage.Accrues (client.up service signal w).2.container.storage

/-- An action leaves a regular world, and no internal error is its result. -/
structure Sustained (P : Moment → Prop) (out : Except Error α × World (Logged σ)) : Prop where
  regular : out.2.Regular P
  external : ∀ ⦃err⦄, out.1 = .error err → ¬ err.Internal

namespace Sustained

variable {P : Moment → Prop}

theorem ok {w : World (Logged σ)} (h : w.Regular P) (a : α) :
    Sustained P (Except.ok a, w) := ⟨h, nofun⟩

theorem error {w : World (Logged σ)} (h : w.Regular P) {err : Error}
    (herr : ¬ err.Internal) : Sustained P ((Except.error err : Except Error α), w) :=
  ⟨h, fun _ heq => Except.error.inj heq ▸ herr⟩

/-- An action that hands on a result it was given. -/
theorem map {w : World (Logged σ)} (h : w.Regular P) {result : Except Error α} (f : α → β)
    (hresult : ∀ ⦃err⦄, result = .error err → ¬ err.Internal) :
    Sustained P (result.map f, w) := by
  cases result with
  | error err => exact .error h (hresult rfl)
  | ok a => exact .ok h (f a)

/-- Where an action succeeds the next one goes on. -/
theorem bind {x : Action (Logged σ) α} {f : α → Action (Logged σ) β}
    {w : World (Logged σ)} (h : Sustained P (x.outcome w))
    (hnext : ∀ a v, x.outcome w = (.ok a, v) → v.Regular P → Sustained P ((f a).outcome v)) :
    Sustained P ((x >>= f).outcome w) := by
  rw [Action.outcome_bind]
  obtain ⟨hregular, hexternal⟩ := h
  generalize x.outcome w = out at hregular hexternal hnext
  obtain ⟨err | a, v⟩ := out
  · exact .error hregular (hexternal rfl)
  · exact hnext a v rfl hregular

end Sustained

namespace Container

variable {P : Moment → Prop} {client : Client (World (Logged σ))} {w : World (Logged σ)}
  {a : Address} {e : Entry}

/-! ## The walk of a start -/

theorem recordAndStart_sustained (hclient : client.Regular P) (label : String) (service : Service)
    (h : w.Regular P) : Sustained P ((recordAndStart client label service).outcome w) := by
  by_cases hon : w.container.history.switch = .on
  · rw [recordAndStart_withRecord client hon]
    refine ⟨hclient.up service _ ⟨h.storage, h.moments⟩, fun err herr => ?_⟩
    dsimp only at herr
    generalize client.up service _ _ = out at herr
    obtain ⟨fault | _, _⟩ := out <;> cases herr
    exact id
  · rw [recordAndStart_of_not_on hon]
    exact .error h id

theorem recordAndStart_accrues (hclient : client.Regular P) (label : String) (service : Service)
    (w : World (Logged σ)) : w.container.storage.Accrues
      ((recordAndStart client label service).outcome w).2.container.storage := by
  by_cases hon : w.container.history.switch = .on
  · rw [recordAndStart_withRecord client hon]
    exact hclient.accrues service _ { w with container := w.container.withRecord ⟨label, service⟩ }
  · rw [recordAndStart_of_not_on hon]
    exact .refl _

/-- Whatever its start hook has done, a service is still in its slot when it comes to count as
running. -/
theorem startService_sustained (hclient : client.Regular P) (service : Service) (h : w.Regular P)
    (hget : w.container.storage.get? a = some e) (hres : e.isResolved = true)
    (hservice : e.service? ≠ none) : Sustained P ((startService client a service).outcome w) := by
  refine (recordAndStart_sustained hclient a.text service h).bind fun _ v hout hv => ?_
  have haccrues := recordAndStart_accrues hclient a.text service w
  rw [hout] at haccrues
  obtain ⟨state, shadowed, _, hentry⟩ := haccrues.exists_entry hget hres
  exact ⟨⟨hv.storage.setRunning hentry hservice, hv.moments⟩, nofun⟩

theorem absorb_sustained (hclient : client.Regular P) (component : Component) (h : w.Regular P) :
    Sustained P ((absorb client component).outcome w) := by
  simp only [absorb, Action.outcome_bind, Action.outcome_get, Action.outcome_liftExcept]
  cases hinsert : w.container.storage.insertProduct component with
  | error err => exact .error h (Storage.insertProduct_external hinsert)
  | ok storage =>
    have hv : World.Regular P { w with container := { w.container with storage } } :=
      ⟨h.storage.insertProduct hinsert, h.moments⟩
    simp only [Action.outcome_setStorage]
    split
    · next a service hslot hservice =>
      refine startService_sustained hclient service hv (Storage.get?_insertProduct hslot hinsert)
        rfl ?_
      exact fun hnone => Option.some_ne_none service (hservice.symm.trans hnone)
    · exact .ok hv ()

theorem absorbAll_sustained (hclient : client.Regular P) (components : List Component)
    (h : w.Regular P) : Sustained P ((absorbAll client components).outcome w) := by
  induction components generalizing w with
  | nil => exact .ok h ()
  | cons component rest ih =>
    exact (absorb_sustained hclient component h).bind fun _ _ _ hv => ih hv

theorem supplyFrom_maintains (hclient : client.Regular P) (c : Constructor) (position : Nat)
    (outputs : List ComponentType) : World.Maintains P (supplyFrom client c position outputs) := by
  induction outputs generalizing position with
  | nil => exact fun _ h => h
  | cons t rest ih => exact fun _ h => ih _ (hclient.supply c position h)

theorem call_sustained (hclient : client.Regular P) (c : Constructor) (h : w.Regular P) :
    Sustained P ((call client c).outcome w) := by
  simp only [call, Action.outcome_bind, Action.outcome_get, Action.outcome_liftExcept]
  cases hargs : w.container.storage.arguments c.callable.params with
  | error err => exact .error h (Storage.arguments_external hargs)
  | ok args =>
    have hv := hclient.construct c args h
    simp only [Action.outcome_liftM]
    cases (client.construct c args w).1 with
    | error fault => exact .error hv id
    | ok _ => exact .ok (supplyFrom_maintains hclient c 0 _ hv) _

theorem runConstructor_sustained (hclient : client.Regular P) (c : Constructor) (ha : a.Serial)
    (h : w.Regular P) : Sustained P ((runConstructor client a c).outcome w) := by
  refine (call_sustained hclient c h).bind fun components v _ hv => ?_
  simp only [Action.outcome_bind, Action.outcome_change]
  exact absorbAll_sustained hclient components ⟨hv.storage.markResolved ha, hv.moments⟩

theorem runTemplate_sustained (hclient : client.Regular P) (t : Template) (h : w.Regular P) :
    Sustained P ((runTemplate client a t).outcome w) := by
  simp only [runTemplate, Action.outcome_bind, Action.outcome_get, Action.outcome_liftExcept]
  cases hfill : w.container.storage.fillFields t.fields (FieldValues.empty a) with
  | error err => exact .error h (Storage.fillFields_external hfill)
  | ok values =>
    have hv := hclient.assemble t values h
    simp only [Action.outcome_lift]
    cases (client.assemble t values w).1 with
    | error err => exact .error hv (assemblyError_external a err)
    | ok product => exact absorb_sustained hclient _ hv

theorem settle_sustained (hclient : client.Regular P) (h : w.Regular P)
    (hget : w.container.storage.get? a = some e) : Sustained P ((settle client e).outcome w) := by
  have hfits := h.storage.sound.fits hget
  unfold settle
  split
  · exact .error h id
  · split
    · next hres =>
      split
      · next hwaits =>
        -- A service that waits has hooks, so the shape of its start hook is known.
        cases hservice : e.service? with
        | none => exact absurd (hfits.notAService_iff.2 hservice) (by simp [hwaits])
        | some service =>
          rw [hfits.address_eq]
          exact startService_sustained hclient service h hget hres (by simp [hservice])
      · exact .ok h ()
    · next hres =>
      have hres := Bool.eq_false_iff.2 hres
      cases hpayload : e.payload with
      | constructor c =>
        obtain ⟨haddr, -⟩ := hfits.eq_constructor hres hpayload
        rw [hfits.address_eq]
        exact runConstructor_sustained hclient c (haddr ▸ c.serial_address) h
      | template t => exact runTemplate_sustained hclient t h
      | value c => exact absurd hpayload (hfits.payload_ne_value hres)

theorem settleAll_sustained (hclient : client.Regular P) (order : List Address) (h : w.Regular P) :
    Sustained P ((settleAll client order).outcome w) := by
  induction order generalizing w with
  | nil => exact .ok h ()
  | cons a rest ih =>
    unfold settleAll
    rw [Action.outcome_bind, Action.outcome_get]
    dsimp only
    cases hget : w.container.storage.get? a with
    | none => exact ih h
    | some e => exact (settle_sustained hclient h hget).bind fun _ _ _ hv => ih hv

/-- Settles an entry, but raises an alarm if it is a value that is not resolved. -/
def settleStrictly (alarm : Error) (client : Client (World σ)) (e : Entry) : Action σ Unit :=
  match e.isResolved, e.payload with
  | false, .value _ => throw alarm
  | _, _ => settle client e

/-- Settles the entries at addresses in turn, and raises an alarm at an unresolved value. -/
def settleAllStrictly (alarm : Error) (client : Client (World σ)) : List Address → Action σ Unit
  | [] => pure ()
  | address :: rest => do
    match (← get).container.storage.get? address with
    | some e => settleStrictly alarm client e
    | none => pure ()
    settleAllStrictly alarm client rest

/-- The alarm is never raised. -/
theorem settleAllStrictly_outcome (alarm : Error) (hclient : client.Regular P)
    (order : List Address) (h : w.Regular P) :
    (settleAllStrictly alarm client order).outcome w = (settleAll client order).outcome w := by
  induction order generalizing w with
  | nil => rfl
  | cons a rest ih =>
    unfold settleAll settleAllStrictly
    rw [Action.outcome_bind, Action.outcome_bind, Action.outcome_get]
    dsimp only
    cases hget : w.container.storage.get? a with
    | none => exact ih h
    | some e =>
      have hstrict : settleStrictly alarm client e = settle client e := by
        unfold settleStrictly
        split
        · next hres hpayload =>
          exact absurd hpayload ((h.storage.sound.fits hget).payload_ne_value hres)
        · rfl
      have hsettled := settle_sustained hclient h hget
      dsimp only
      rw [hstrict, Action.outcome_bind, Action.outcome_bind]
      generalize (settle client e).outcome w = out at hsettled
      obtain ⟨_ | _, v⟩ := out
      · rfl
      · exact ih hsettled.regular

theorem resolveAll_sustained (hclient : client.Regular P) (h : w.Regular P) :
    Sustained P ((resolveAll client).outcome w) := by
  simp only [resolveAll, Action.outcome_bind, Action.outcome_get, Action.outcome_liftExcept]
  cases hturn : w.container.history.turnOn with
  | error err => exact .error h (History.turnOn_external hturn)
  | ok history =>
    simp only [Action.outcome_setHistory]
    have hv : World.Regular P { w with container := { w.container with history } } :=
      ⟨h.storage, h.moments⟩
    cases horder : w.container.storage.graph.order with
    | error err => exact .error hv (Graph.order_external horder)
    | ok order =>
      have hwalk {v : World (Logged σ)} (hv : v.Regular P) : Sustained P (Action.outcome (do
          settleAll client order
          change fun c => { c with history := c.history.rewindToLatest }) v) :=
        (settleAll_sustained hclient order hv).bind fun _ _ _ hu =>
          ⟨⟨hu.storage, hu.moments⟩, fun _ herr => by cases herr⟩
      dsimp only
      split
      · rw [Action.outcome_bind, Action.outcome_announce]
        exact hwalk ⟨hv.storage, hv.moments⟩
      · exact hwalk hv

/-! ## Operations -/

theorem start_sustained (hclient : client.Regular P) (h : w.Regular P) :
    Sustained P ((start client).outcome w) := by
  cases hrunning : w.container.running with
  | true =>
    rw [start_of_running client hrunning]
    exact .error h id
  | false =>
    obtain ⟨notices, hout⟩ := start_of_stopped client hrunning
    have hresolve := resolveAll_sustained hclient (w := { w with
      container := { w.container with running := true } }) ⟨h.storage, h.moments⟩
    rw [hout]
    generalize (resolveAll client).outcome _ = out at hresolve
    obtain ⟨hregular, hexternal⟩ := hresolve
    obtain ⟨err | _, v⟩ := out
    · exact ⟨⟨hregular.storage, hregular.moments⟩, fun _ herr => hexternal herr⟩
    · exact ⟨⟨hregular.storage, hregular.moments⟩, nofun⟩

theorem startOutputs_sustained (hclient : client.Regular P) (components : List Component)
    (h : w.Regular P) : Sustained P ((startOutputs client components).outcome w) := by
  induction components generalizing w with
  | nil => exact .ok h ()
  | cons component rest ih =>
    simp only [startOutputs]
    cases component.service? with
    | none => exact ih h
    | some service =>
      exact (recordAndStart_sustained hclient _ service h).bind fun _ _ _ hv => ih hv

theorem invoke_sustained (hclient : client.Regular P) (callable : Callable) (h : w.Regular P) :
    Sustained P ((invoke client callable).outcome w) := by
  simp only [invoke, Action.outcome_bind, Action.outcome_get]
  split
  · rw [Action.outcome_bind, Action.outcome_freshIdentity]
    have hv : World.Regular P { w with nextIdentity := w.nextIdentity + 1 } :=
      ⟨h.storage, h.moments⟩
    exact (call_sustained hclient _ hv).bind fun components _ _ hu =>
      startOutputs_sustained hclient components hu
  · exact .error h id

theorem stopRecords_maintains (hclient : client.Regular P) (records : List Record) :
    World.Maintains P (stopRecords client records) := by
  induction records with
  | nil => exact fun _ h => h
  | cons record rest ih =>
    intro w h
    have hdown := hclient.down record.service h
    simp only [stopRecords, bind, StateT.bind]
    generalize client.down record.service w = out at hdown
    obtain ⟨fault | _, v⟩ := out
    · exact ih (w := { v with notices := v.notices ++ [.downFailed record.label fault] })
        ⟨hdown.storage, hdown.moments⟩
    · exact ih hdown

theorem stop_sustained (hclient : client.Regular P) (h : w.Regular P) :
    Sustained P ((stop client).outcome w) := by
  by_cases hon : w.container.history.switch = .on
  · obtain ⟨notices, hout⟩ := stop_of_on client hon
    rw [hout]
    dsimp only
    have hstopped := stopRecords_maintains hclient w.container.history.live.reverse (w := { w with
      notices
      container := { w.container with
        running := false
        history := { w.container.history.rewindToLatest with
          floor := w.container.history.records.length
          switch := .off } } }) ⟨h.storage, h.moments⟩
    refine ⟨⟨hstopped.storage.resetRunning, hstopped.moments⟩, fun err herr => ?_⟩
    generalize stopRecords client _ _ = stopped at herr
    obtain ⟨_ | ⟨failure, failures⟩, _⟩ := stopped <;> cases herr
    exact id
  · rw [stop_of_not_on client hon]
    exact ⟨⟨h.storage, h.moments⟩, nofun⟩

end Container

/-! ## Runs -/

section

variable {P : Moment → Prop} {w : World (Logged σ)}

theorem Container.answer_external {k : Container} {t : ComponentType} {err : Error}
    (h : k.answer t = .error err) : ¬ err.Internal := by
  unfold answer at h
  split at h
  · cases hlookup : k.storage.lookup t with
    | error e =>
      rw [hlookup] at h
      exact Except.error.inj h ▸ Storage.lookup_external hlookup
    | ok found =>
      rw [hlookup] at h
      simp only [bind, Except.bind, Component.answer] at h
      split at h <;> cases h
      exact id
  · exact Except.error.inj h ▸ id

/-- An operation that registers items of named types only keeps a world regular. -/
theorem Operation.act_sustained {client : Client (World (Logged σ))} (hclient : client.Regular P)
    {op : Operation} (hop : op.Named) (h : w.Regular P) :
    Sustained P ((op.act client).outcome w) := by
  cases op with
  | register items =>
    rw [register_outcome]
    cases hrunning : w.container.running with
    | true =>
      rw [Container.registering, if_pos hrunning]
      exact .error h id
    | false =>
      rw [Container.registering_stopped hrunning]
      refine .map ?_ _ fun _ => Storage.addAll_external
      exact ⟨h.storage.addAll hop, h.moments⟩
  | start => exact (Container.start_sustained hclient h).bind fun _ _ _ hv => .ok hv none
  | invoke callable =>
    exact (Container.invoke_sustained hclient callable h).bind fun _ _ _ hv => .ok hv none
  | resolve t =>
    rw [resolve_outcome]
    exact .map h some fun _ => Container.answer_external
  | stop => exact (Container.stop_sustained hclient h).bind fun _ _ _ hv => .ok hv none

/-- The callbacks of the program perform only operations that are allowed. -/
structure Program.Performs (program : Program σ) (allowed : Operation → Prop) : Prop where
  construct : ∀ c args, (program.construct c args).Performs allowed
  supply : ∀ c position, (program.supply c position).Performs allowed
  assemble : ∀ t values, (program.assemble t values).Performs allowed
  up : ∀ service signal, (program.up service signal).Performs allowed
  down : ∀ service, (program.down service).Performs allowed

/-- Named operations that are performed so keep a world regular. -/
def Performer.Regular (P : Moment → Prop) (perform : Performer σ) : Prop :=
  ∀ ⦃op : Operation⦄, op.Named → World.Maintains P (perform op)

theorem Script.run_maintains {perform : Performer σ} (hperform : perform.Regular P)
    {script : Script σ α} (hscript : script.Performs Operation.Named) :
    World.Maintains P (script.run perform) := by
  induction script with
  | finish state answer => exact fun _ h => ⟨h.storage, h.moments⟩
  | look next ih => exact fun w h => ih w.host.state w.container (hscript _ _) h
  | perform state op next ih =>
    intro w h
    exact ih _ (hscript.2 _) (hperform hscript.1 (w := { w with host := { w.host with state } })
      ⟨h.storage, h.moments⟩)

variable (hP : ∀ m : Moment, m.Regular → P m)

include hP

/-- A call is logged with the storage as the callback finds it. -/
theorem World.logging_maintains {callback : StateM (World (Logged σ)) α}
    {call : Container → α → Call} (hcallback : World.Maintains P callback) :
    World.Maintains P (World.logging callback call) := by
  intro w h
  have hafter := hcallback (w := { w with host := ⟨w.host.state, []⟩ }) ⟨h.storage, nofun⟩
  refine ⟨hafter.storage, fun m hmem => ?_⟩
  rcases List.mem_append.1 hmem with hbefore | hmem
  · exact h.moments m hbefore
  · rcases List.mem_cons.1 hmem with rfl | hmem
    · exact hP _ ⟨h.storage, nofun⟩
    · exact hafter.moments m hmem

theorem Program.client_regular {program : Program σ} (hprogram : program.Performs Operation.Named)
    {perform : Performer σ} (hperform : perform.Regular P)
    (haccrues : ∀ op (w : World (Logged σ)),
      w.Unfolds (fun k ms k' => Timeline k.storage ms k'.storage) (perform op w).2) :
    (program.client perform).Regular P where
  construct c args :=
    logging_maintains hP (Script.run_maintains hperform (hprogram.construct c args))
  supply c position :=
    logging_maintains hP (Script.run_maintains hperform (hprogram.supply c position))
  assemble t values :=
    logging_maintains hP (Script.run_maintains hperform (hprogram.assemble t values))
  up service signal :=
    logging_maintains hP (Script.run_maintains hperform (hprogram.up service signal))
  down service := logging_maintains hP (Script.run_maintains hperform (hprogram.down service))
  accrues service signal w := by
    obtain ⟨new, -, htime⟩ := Timeline.course.script haccrues (program.up service signal)
      { w with host := ⟨w.host.state, []⟩ }
    exact htime.accrues

theorem Operation.conclude_regular {client : Client (World (Logged σ))}
    (hclient : client.Regular P) : Performer.Regular P (Operation.conclude client) := by
  intro op hop w h
  have hact := act_sustained hclient hop h
  refine ⟨hact.regular.storage, fun m hmem => ?_⟩
  rcases List.mem_append.1 hmem with hbefore | hmem
  · exact hact.regular.moments m hbefore
  · obtain rfl := List.mem_singleton.1 hmem
    refine hP _ ⟨hact.regular.storage, fun op err hends => ?_⟩
    exact hact.external (Event.ends.inj hends).2

end

/-- The callbacks with which operations are performed, by the depth to which they may nest. -/
def Program.nested (program : Program σ) : Nat → Client (World (Logged σ))
  | 0 => program.client fun _ => pure (.error (.trackerState "nested too deeply"))
  | depth + 1 => program.client (program.perform depth)

theorem Program.perform_eq (program : Program σ) (depth : Nat) :
    program.perform depth = Operation.conclude (program.nested depth) := by
  cases depth <;> rfl

section

variable {P : Moment → Prop} (hP : ∀ m : Moment, m.Regular → P m) {program : Program σ}
  (hprogram : program.Performs Operation.Named)

include hP hprogram

theorem Program.nested_regular (depth : Nat) : (program.nested depth).Regular P := by
  induction depth with
  | zero => exact client_regular hP hprogram (fun _ _ _ h => h) fun _ => Timeline.course.refl
  | succ depth ih =>
    refine client_regular hP hprogram ?_ (Timeline.course.perform program depth)
    rw [perform_eq]
    exact Operation.conclude_regular hP ih

/-- A run of named operations keeps a world regular. -/
theorem Program.playOut_regular (depth : Nat) {ops : List Operation}
    (hops : ∀ op ∈ ops, op.Named) {w : World (Logged σ)} (h : w.Regular P) :
    (program.playOut depth w ops).Regular P := by
  induction ops generalizing w with
  | nil => exact h
  | cons op ops ih =>
    refine ih (fun op hmem => hops op (List.mem_cons_of_mem _ hmem)) ?_
    rw [perform_eq]
    exact Operation.conclude_regular hP (nested_regular hP hprogram depth)
      (hops op List.mem_cons_self) h

end

/-- At this moment everything in the container is as those who read it expect it to be. -/
structure Moment.Represented (program : Program σ) (m : Moment) : Prop where
  storage : m.container.storage.Represented
  /-- An operation that ends does not report that data of the container disagree. -/
  external : ∀ ⦃op err⦄, m.event = .ends op (.error err) → ¬ err.Internal
  /-- A walk that begins with this storage meets no value that is not resolved. -/
  silent : ∀ (alarm : Error) (depth : Nat) (order : List Address) (w : World (Logged σ)),
    w.container.storage = m.container.storage →
      (Container.settleAllStrictly alarm (program.nested depth) order).outcome w =
        (Container.settleAll (program.nested depth) order).outcome w

/-- At every moment of every run the container is represented as its parts expect it, whatever the
callbacks answer and whichever operations they perform in turn. No type of a value or template that
is registered bears a name that ends like the address of a constructor. -/
theorem Program.moments_represented {program : Program σ}
    (hprogram : program.Performs Operation.Named) (depth : Nat) (config : ContainerConfig)
    (context : Context) (token : Token) (nextIdentity : Identity) (host : σ) {ops : List Operation}
    (hops : ∀ op ∈ ops, op.Named) :
    ∀ m ∈ program.moments depth (.fresh config context token nextIdentity host) ops,
      m.Represented program := by
  have hnew : (World.fresh config context token nextIdentity host).container.storage.Regular :=
    Container.new_regular config context token
  have hrun := playOut_regular (fun _ => id) hprogram depth hops
    (w := (World.fresh config context token nextIdentity host).unlogged) ⟨hnew, nofun⟩
  have hregular : ∀ m ∈ program.moments depth (.fresh config context token nextIdentity host) ops,
      m.Regular := List.forall_mem_cons.2 ⟨⟨hnew, nofun⟩, hrun.moments⟩
  intro m hmem
  have hm := hregular m hmem
  refine ⟨hm.storage.represented, hm.external, fun alarm depth order w hw => ?_⟩
  exact Container.settleAllStrictly_outcome alarm
    (nested_regular (P := fun _ => True) (fun _ _ => trivial) hprogram depth) order
    ⟨hw ▸ hm.storage, fun _ _ => trivial⟩

/-- The stop hook of the pool registers another pool while the container is being stopped. -/
theorem Program.moments_represented_refilled :
    refilling.Performs Operation.Named ∧ ∀ m ∈ refilled, m.Represented refilling := by
  have hpool (made : Object) (service? : Option Service) :
      Item.Named (.value ⟨.ofName "app::Pool", made, service?⟩) :=
    ComponentType.named_ofName (by decide)
  have hprogram : refilling.Performs Operation.Named :=
    ⟨fun _ _ => trivial, fun _ _ => trivial, fun _ _ => trivial, fun _ _ => trivial, fun _ =>
      ⟨List.forall_mem_singleton.2 (hpool _ _), fun _ => trivial⟩⟩
  refine ⟨hprogram, moments_represented hprogram 1 default (.root 0) ⟨1⟩ 1 () ?_⟩
  simp only [List.forall_mem_cons]
  exact ⟨List.forall_mem_singleton.2 (hpool _ _), trivial, trivial, trivial, nofun⟩

end Wiring
