import Wiring.Proofs.Reentry

/-!
# Frame of an invocation

An invocation reads the storage and never writes it, and it leaves alone whether the container runs.
What it adds are records: none if it is turned away, if a parameter is not delivered or if the
callable fails, otherwise those of the services among the outputs, up to and including the first
whose start hook fails (`StartsUpTo`). `Turn.Invoked` has one constructor for each of these four ways
through, and `Client.invoke_framed` says that every invocation takes one of them.
-/

namespace Wiring

open World

/-! ## What an invocation does -/

/-- A parameter of the type receives the object: a handle on the component in its slot. -/
def Storage.Serves (s : Storage) (t : ComponentType) (object : Object) : Prop :=
  ∃ a c, s.lookup t = .ok (a, c) ∧ c.share? t = some object

/-- The record that is made of an output if it is a service. The label is the address derived from
its type, whether something may be stored there or not. -/
def Component.record? (c : Component) : Option Record :=
  c.service?.map (⟨c.type.descriptor.address.text, ·⟩)

/-- Services are started in turn, up to and including the first whose start hook fails. -/
inductive StartsUpTo : List Record → List HookResult → Except Error Unit → Prop
  | all (services : List Record) : StartsUpTo services (services.map (·, .ok ())) (.ok ())
  | fault (earlier : List Record) (r : Record) (later : List Record) (f : Fault) :
      StartsUpTo (earlier ++ r :: later) (earlier.map (·, .ok ()) ++ [(r, .error f)])
        (.error (.serviceStart r.label f))

/-- The ways through an invocation. In the calls the callable stands as a constructor. -/
inductive Turn.Invoked (turn : Turn) (callable : Callable) : Prop
  /-- The container does not run. -/
  | notStarted : turn.before.running = false → turn.calls = [] →
      turn.result = .error .notStarted → turn.after = turn.before → Invoked turn callable
  /-- A parameter receives nothing. -/
  | unserved (t : ComponentType) : turn.before.running = true → t ∈ callable.params →
      (∀ object, ¬ turn.before.storage.Serves t object) → turn.calls = [] →
      turn.before.storage.arguments callable.params = .error err → turn.result = .error err →
      turn.after = turn.before → Invoked turn callable
  /-- The callable is called and fails. -/
  | failed (identity : Identity) (f : Fault) : turn.before.running = true →
      List.Forall₂ turn.before.storage.Serves callable.params args →
      turn.calls = [.construct ⟨identity, callable⟩ args (.error f)] →
      turn.result = .error (.constructorFailed (Constructor.address ⟨identity, callable⟩) f) →
      turn.after = turn.before → Invoked turn callable
  /-- The callable is called, and the services among its outputs are started. -/
  | called (identity : Identity) (products : List Product) (ups : List HookResult) :
      turn.before.running = true →
      List.Forall₂ turn.before.storage.Serves callable.params args →
      products.length = callable.outputs.length →
      StartsUpTo ((Constructor.components ⟨identity, callable⟩ products).filterMap Component.record?)
        ups r →
      turn.calls = .construct ⟨identity, callable⟩ args (.ok ()) ::
        suppliesFrom ⟨identity, callable⟩ 0 products ++ ups.map HookResult.up →
      turn.result = r.map (fun _ => none) →
      turn.after = (ups.map Prod.fst).foldl Container.withRecord turn.before →
      Invoked turn callable

/-! ## Arguments -/

/-- If there are no arguments, some parameter receives nothing. -/
theorem Storage.exists_unserved {s : Storage} {params : List ComponentType} {err : Error}
    (h : s.arguments params = .error err) :
    ∃ t ∈ params, ∀ object, ¬ s.Serves t object := by
  obtain ⟨t, hmem, hlookup | ⟨a, c, hslot, hc, hshare, -⟩⟩ := arguments_eq_error h
  · refine ⟨t, hmem, ?_⟩
    rintro object ⟨a, c, hfound, -⟩
    cases hlookup.symm.trans hfound
  · refine ⟨t, hmem, ?_⟩
    rintro object ⟨b, c', hfound, hshare'⟩
    cases (lookup_eq_ok.2 ⟨hslot, hc⟩).symm.trans hfound
    cases hshare.symm.trans hshare'

/-! ## Services among outputs -/

/-- A service in front of the others that is started with success. -/
theorem StartsUpTo.cons {services : List Record} {ups : List HookResult} {result : Except Error Unit}
    (h : StartsUpTo services ups result) (r : Record) :
    StartsUpTo (r :: services) ((r, .ok ()) :: ups) result := by
  cases h with
  | all => exact .all (r :: services)
  | fault earlier r' later f => exact .fault (r :: earlier) r' later f

namespace Container

variable {σ : Type} (client : Client σ)

/-- Records do not touch the storage, nor whether the container runs. -/
theorem foldl_withRecord (services : List Record) (c : Container) :
    (services.foldl withRecord c).storage = c.storage ∧
      (services.foldl withRecord c).running = c.running ∧
      (services.foldl withRecord c).history.records = c.history.records ++ services := by
  induction services generalizing c with
  | nil => exact ⟨rfl, rfl, (List.append_nil _).symm⟩
  | cons r services ih =>
    obtain ⟨hstorage, hrunning, hrecords⟩ := ih (c.withRecord r)
    refine ⟨hstorage, hrunning, hrecords.trans ?_⟩
    simp [withRecord, History.rewindToLatest]

/-- The start of the outputs attempts the services among them and adds the records of the attempts,
and nothing else, to the container. -/
theorem startOutputs_outcome (components : List Component) {w : World (Recorded σ)}
    (hon : w.container.history.switch = .on) : ∃ ups result state,
      StartsUpTo (components.filterMap Component.record?) ups result ∧
      (startOutputs client.recorded components).outcome w = (result, { w with
        container := (ups.map Prod.fst).foldl withRecord w.container
        host := ⟨state, w.host.calls ++ ups.map HookResult.up⟩ }) := by
  induction components generalizing w with
  | nil => exact ⟨[], .ok (), w.host.state, .all [], by simp [startOutputs]⟩
  | cons component rest ih =>
    unfold startOutputs
    cases hservice : component.service? with
    | none =>
      obtain ⟨ups, result, state, hstarts, hout⟩ := ih hon
      refine ⟨ups, result, state, ?_, hout⟩
      rwa [List.filterMap_cons_none (by simp [Component.record?, hservice])]
    | some service =>
      let r : Record := ⟨component.type.descriptor.address.text, service⟩
      have hrecord : component.record? = some r := by simp [Component.record?, hservice, r]
      rw [List.filterMap_cons_some hrecord]
      simp only [Action.outcome_bind, recordAndStart_recorded client hon]
      obtain ⟨answer, state⟩ := client.up service (w.container.signal service.shape) w.host.state
      cases answer with
      | error f => exact ⟨[(r, .error f)], _, state, .fault [] r _ f, rfl⟩
      | ok =>
        obtain ⟨ups, result, state', hstarts, hout⟩ := ih
          (w := { w with
            container := w.container.withRecord r
            host := ⟨state, w.host.calls ++ [.up r.label service (.ok ())]⟩ }) hon
        refine ⟨(r, .ok ()) :: ups, result, state', hstarts.cons r, hout.trans ?_⟩
        simp only [List.append_assoc]
        rfl

end Container

/-! ## Invocations -/

variable {σ : Type} (client : Client σ)

/-- The callbacks of a program that cannot reach the container leave it alone. -/
theorem Client.recorded_spares : Client.Spares (fun _ => False) client.recorded where
  construct _ _ _ := ⟨rfl, id⟩
  supply _ _ _ := ⟨rfl, id⟩
  assemble _ _ _ := ⟨rfl, id⟩

/-- The turn of an invocation, by what the invocation comes to. -/
theorem Client.perform_of_invoke {callable : Callable} {w : World σ} {result : Except Error Unit}
    {w' : World (Recorded σ)}
    (h : (Container.invoke client.recorded callable).outcome w.unrecorded = (result, w')) :
    (client.perform w (.invoke callable)).1 =
      ⟨.invoke callable, w.container, w'.host.calls, result.map fun _ => none, w'.container⟩ := by
  have hact : ((Operation.invoke callable).act client.recorded).outcome w.unrecorded =
      (result.map fun _ => none, w') := by
    rw [Operation.act, Action.outcome_bind_pure, h]
  rw [perform, hact]

/-- An invocation in a container whose history is on while it runs takes one of the ways through. -/
theorem Client.invoke_invoked (callable : Callable) {w : World σ}
    (h : w.container.running = true → w.container.history.switch = .on) :
    (client.perform w (.invoke callable)).1.Invoked callable := by
  cases hrunning : w.container.running with
  | false =>
    have hout : (Container.invoke client.recorded callable).outcome w.unrecorded =
        (.error .notStarted, w.unrecorded) := by
      have hrunning : w.unrecorded.container.running = false := hrunning
      simp [Container.invoke, hrunning]
    rw [client.perform_of_invoke hout]
    exact .notStarted hrunning rfl rfl rfl
  | true =>
    let c : Constructor := ⟨w.nextIdentity, callable⟩
    let w₁ : World (Recorded σ) := { w.unrecorded with nextIdentity := w.nextIdentity + 1 }
    have hon : w₁.container.history.switch = .on := h hrunning
    have hinvoke : (Container.invoke client.recorded callable).outcome w.unrecorded =
        (Container.call client.recorded c >>= Container.startOutputs client.recorded).outcome
          w₁ := by
      have hrunning : w.unrecorded.container.running = true := hrunning
      simp only [Container.invoke, Action.outcome_bind, Action.outcome_get, if_pos hrunning,
        Action.outcome_freshIdentity]
      rfl
    have hcontainer : ((Container.call client.recorded c).outcome w₁).2.container = w.container :=
      (Container.call_spares client.recorded_spares c w₁).container
    have hcalls := (call_obeys client c w₁ hon).1
    rw [Action.outcome_bind] at hinvoke
    generalize (Container.call client.recorded c).outcome w₁ = out at hcontainer hcalls hinvoke
    obtain ⟨result, w₂⟩ := out
    change w₂.container = w.container at hcontainer
    change Calls c ⟨w.container.storage, []⟩ result w₂.scene at hcalls
    generalize hscene : w₂.scene = called at hcalls
    cases hcalls with
    | unsupplied hargs =>
      have hcalls : w₂.host.calls = [] := congrArg Scene.calls hscene
      obtain ⟨t, hmem, hnot⟩ := Storage.exists_unserved hargs
      rw [client.perform_of_invoke hinvoke]
      exact .unserved t hrunning hmem hnot hcalls hargs rfl hcontainer
    | @failed args f hargs =>
      have hcalls : w₂.host.calls = [.construct c args (.error f)] := congrArg Scene.calls hscene
      rw [client.perform_of_invoke hinvoke]
      exact .failed w.nextIdentity f hrunning (Storage.forall_of_arguments hargs) hcalls rfl
        hcontainer
    | @supplied args products hargs hlength =>
      have hcalls : w₂.host.calls = .construct c args (.ok ()) :: suppliesFrom c 0 products :=
        congrArg Scene.calls hscene
      obtain ⟨ups, result, state, hstarts, hout⟩ :=
        Container.startOutputs_outcome client (c.components products) (w := w₂) (hcontainer ▸ hon)
      rw [client.perform_of_invoke (hinvoke.trans hout), hcontainer, hcalls]
      exact .called w.nextIdentity products ups hrunning (Storage.forall_of_arguments hargs) hlength
        hstarts rfl rfl rfl

/-- Each way through leaves the storage as it is, and whether the container runs. -/
theorem Turn.Invoked.frame {turn : Turn} {callable : Callable} (h : turn.Invoked callable) :
    turn.after.storage = turn.before.storage ∧ turn.after.running = turn.before.running := by
  cases h with
  | notStarted _ _ _ hafter => exact hafter ▸ ⟨rfl, rfl⟩
  | unserved _ _ _ _ _ _ _ hafter => exact hafter ▸ ⟨rfl, rfl⟩
  | failed _ _ _ _ _ _ hafter => exact hafter ▸ ⟨rfl, rfl⟩
  | called _ _ ups _ _ _ _ _ _ hafter =>
    have hframe := Container.foldl_withRecord (ups.map Prod.fst) turn.before
    exact hafter ▸ ⟨hframe.1, hframe.2.1⟩

/-- Whatever happened before, an invocation leaves the storage as it is and whether the container
runs, and takes one of the ways through. -/
theorem Client.invoke_framed (config : ContainerConfig) (context : Context) (token : Token)
    (nextIdentity : Identity) (host : σ) (ops : List Operation) (callable : Callable) :
    let w := client.playOut (.fresh config context token nextIdentity host) ops
    let turn := (client.perform w (.invoke callable)).1
    turn.after.storage = turn.before.storage ∧ turn.after.running = turn.before.running ∧
      turn.Invoked callable := by
  intro w turn
  have ho : w.container.InOrder :=
    Client.playOut_inOrder (Container.new_inOrder config context token) ops
  have hinvoked := client.invoke_invoked callable ho.tidy.on_of_running
  obtain ⟨hstorage, hrunning⟩ := hinvoked.frame
  exact ⟨hstorage, hrunning, hinvoked⟩

end Wiring
