import Wiring.Proofs.Agreement
import Wiring.Proofs.Collisions

/-!
# Causes of failed starts

A start that is turned away, or whose graph has a cycle, calls nothing and stores nothing. Any other
failure ends a walk that kept pace until then, so its error names something that can be found in
what it left (`Scene.Explains`): a provider that has not run and what it asked for, a service that
waits because its start hook failed, or an occupied slot. What a provider asks for comes before it
in the order, so it is never missed only because its turn is still to come: it is not there at all
(`Paced.absent`). Only in the slot that a constructor has for itself there would be something else,
the constructor, but no type is declared under a name that leads there (`ComponentType.Named`). So
every failed start is diagnosed by its error (`Client.start_diagnosed`).
-/

namespace Wiring

/-- The address ends in `#` and a serial number: it is one that a constructor is given for itself. No
type is declared under a name that ends so. -/
def Address.Serial (a : Address) : Prop :=
  ∃ (signature : String) (identity : Identity), a.text = signature ++ "#" ++ toString identity

theorem Address.not_serial {a : Address} (h : '#' ∉ a.text.toList) : ¬ a.Serial := by
  rintro ⟨signature, identity, htext⟩
  refine h ?_
  rw [htext, String.toList_append, String.toList_append]
  exact List.mem_append_left _ (List.mem_append_right _ (List.mem_singleton_self _))

theorem Constructor.serial_address (c : Constructor) : c.address.Serial :=
  ⟨c.signature, c.identity, rfl⟩

/-- The slot of the type is not one that a constructor has for itself, a signature with `#` and a
serial number. Names that declarations give are of this kind: they end in an identifier or in a
bracket, and no identifier begins with a digit. -/
def ComponentType.Named (t : ComponentType) : Prop := ∀ a, t.slot? = some a → ¬ a.Serial

/-- A provider that has not run yet asks for a component of the type. -/
def Storage.Seeks (s : Storage) (t : ComponentType) : Prop :=
  ∃ a e, s.get? a = some e ∧ e.isResolved = false ∧ t ∈ e.requirements

/-- What an error at which a walk ended says of the scene that it left and of the labels of the
started services. -/
inductive Scene.Explains (s : Scene) (labels : List String) : Error → Prop
  /-- A provider that has not run asks for something at an address where there is nothing, if it asks
  for it by the name of a type. -/
  | notInitiated : s.storage.Seeks t → t.shared.slot? = some a →
      (t.Named → s.storage.get? a = none) → Explains s labels (.notInitiated a)
  /-- A provider that has not run asks for something that has no slot. -/
  | unsupported : s.storage.Seeks t → t.shared.slot? = none →
      Explains s labels (.unsupported t.request.name)
  /-- A constructor that has not run asks for something at an address where there is a component of
  another type. -/
  | typeMismatch : s.storage.get? c.address = some (.provider c.address (.constructor c)) →
      t ∈ c.callable.params → t.shared.slot? = some a → s.storage.component? a = some component →
      component.share? t = none → Explains s labels (.typeMismatch a t.shared.name)
  /-- A constructor was called last, which failed and still has not run. -/
  | constructorFailed (f : Fault) : s.calls.getLast? = some (.construct c args (.error f)) →
      s.storage.get? a = some (.provider a (.constructor c)) →
      Explains s labels (.constructorFailed a f)
  /-- The assembly of a template was called last and failed. The template is not assembled. -/
  | assemblyFailed : s.calls.getLast? = some (.assemble t values (.error err)) →
      s.storage.get? a = some (.provider a (.template t)) →
      Explains s labels (.assemblyFailed a err)
  /-- The assembly of a template was called last and missed a field. It is not assembled. -/
  | missingField : s.calls.getLast? = some (.assemble t values (.error (.missingField a field))) →
      s.storage.get? b = some (.provider b (.template t)) →
      Explains s labels (.missingField a field)
  /-- A start hook was called last and failed. Its service was recorded last, and waits in its
  slot. -/
  | serviceStart : s.calls.getLast? = some (.up a.text service (.error f)) →
      labels.getLast? = some a.text → s.storage.get? a = some e →
      e.component? = some component → component.service? = some service →
      e.service = .pendingUp → Explains s labels (.serviceStart a.text f)
  /-- The slot is occupied, and a second value was registered for it, or a constructor has an output
  there. -/
  | alreadyInitiated : s.storage.get? a = some e → e.isResolved = true →
      (e.shadowed ≠ 0 ∨ ∃ c t, s.storage.Lists c ∧ t ∈ c.callable.outputs ∧ t.slot? = some a) →
      Explains s labels (.alreadyInitiated a)

namespace Turn

/-- Nothing was called and nothing was stored. -/
def Idle (turn : Turn) : Prop := turn.calls = [] ∧ turn.after.storage = turn.before.storage

/-- What the error of a start says of how the start ended. Only one that is turned away because the
container runs does not leave it stalled. -/
inductive Diagnosed (turn : Turn) : Error → Prop
  | alreadyStarted : turn.Idle → turn.before.running = true → turn.after.running = true →
      Diagnosed turn .alreadyStarted
  | trackerState : turn.Idle → turn.before.Stalled → turn.after.Stalled →
      Diagnosed turn (.trackerState reason)
  | cycle : turn.Idle → turn.before.graph.order = .error (.cycle path) → turn.after.Stalled →
      Diagnosed turn (.cycle path)
  | walk : Scene.Explains ⟨turn.after.storage, turn.calls⟩ turn.after.started err →
      turn.after.Stalled → Diagnosed turn err

end Turn

/-- The labels under which services were recorded in the calls. -/
def Scene.labels (s : Scene) : List String := (s.calls.filterMap Call.record?).map Record.label

variable {s₀ : Storage} {s s' : Scene} {err : Error} {a b : Address} {e : Entry}
  {t : ComponentType} {component : Component} {labels : List String} {passed rest : List Address}

/-! ## Start hooks that fail -/

/-- A start hook of the service in a slot fails last: the service was recorded, and waits. -/
theorem Starts.explains {service : Service} (h : Starts a service s (.error err) s')
    (hget : s.storage.get? a = some e) (hcomponent : e.component? = some component)
    (hservice : component.service? = some service) (hpending : e.service = .pendingUp) :
    s'.Explains s'.labels err := by
  cases h with
  | fault f =>
    refine .serviceStart List.getLast?_concat ?_ hget hcomponent hservice hpending
    simp [Scene.labels, Call.record?]

/-- An absorption fails because the slot is occupied, or at the start hook of what it has stored. -/
theorem Absorbs.error_cases {c : Component} (h : Absorbs c s (.error err) s') :
    (∃ a, c.type.slot? = some a ∧ err = .alreadyInitiated a ∧ ¬ s.storage.Free a ∧ s' = s) ∨
      s'.Explains s'.labels err := by
  cases h with
  | refused hslot hnot => exact .inl ⟨_, hslot, rfl, hnot, rfl⟩
  | @started a service _ _ hslot hfree hservice hstarts =>
    refine .inr (hstarts.explains (e := .resolved a c) ?_ rfl hservice ?_)
    · exact (Storage.get?_put _ _ _).trans (if_pos rfl)
    · simp [Entry.resolved, hservice]

/-! ## Requests that are not answered -/

/-- In a slot that the walk has passed, either there is a component or there is no entry, unless the
slot is that of a constructor. -/
theorem Paced.absent (hp : Paced s₀ passed s) (hmem : b ∈ passed) (hb : ¬ b.Serial)
    (hnone : s.storage.component? b = none) : s.storage.get? b = none := by
  cases hget : s.storage.get? b with
  | none => rfl
  | some e =>
    have hres := hp.resolved_of_mem hmem hget
    rw [Storage.component?, hget] at hnone
    cases hp.progress.sound.fits hget with
    | value => cases hnone
    | constructor c _ _ haddr => exact absurd (haddr ▸ c.serial_address) hb
    | template => cases hres

/-- A provider that the walk has come to asks for something that is not there. -/
theorem Paced.explains_lookup (hp : Paced s₀ passed s) (hs : s₀.Sound)
    (horder : s₀.graph.order = .ok (passed ++ a :: rest)) (hget : s.storage.get? a = some e)
    (hres : e.isResolved = false) (ht : t ∈ e.requirements)
    (hlookup : s.storage.lookup t = .error err) : s.Explains labels err := by
  have hseeks : s.storage.Seeks t := ⟨a, e, hget, hres, ht⟩
  rcases Storage.lookup_eq_error hlookup with ⟨hslot, rfl⟩ | ⟨b, hslot, hnone, rfl⟩
  · exact .unsupported hseeks hslot
  · have hpassed := hs.requests_passed horder (hp.progress.unresolved hget hres) ht
    rw [Storage.slot?_shared hslot] at hpassed
    refine .notInitiated hseeks hslot fun hnamed => hp.absent hpassed (hnamed b ?_) hnone
    rw [← Storage.slot?_shared_eq, hslot]

/-! ## Steps -/

/-- A constructor that has run fails at an output: the slot is occupied, or its service fails. -/
theorem AbsorbsAll.explains {c : Constructor} {products : List Product}
    (h : AbsorbsAll (c.components products) s (.error err) s')
    (hlength : products.length = c.callable.outputs.length) (hlists : s'.storage.Lists c) :
    s'.Explains s'.labels err := by
  obtain ⟨_, output, _, s₁, hsplit, _, hfails⟩ := h.exists_of_error
  have hmem : output ∈ c.components products := by
    rw [hsplit]
    exact List.mem_append_right _ List.mem_cons_self
  rcases hfails.error_cases with ⟨b, hslot, rfl, hnot, rfl⟩ | hexplains
  · obtain ⟨e, hget, hres⟩ := Storage.not_free hnot
    have houtput := Constructor.type_mem_outputs hlength hmem
    exact .alreadyInitiated hget hres (.inr ⟨c, output.type, hlists, houtput, hslot⟩)
  · exact hexplains

/-- A step that fails after the walk kept pace is explained by its error. -/
theorem Paced.explains (hp : Paced s₀ passed s) (hs : s₀.Sound)
    (horder : s₀.graph.order = .ok (passed ++ a :: rest)) (hget : s.storage.get? a = some e)
    (h : Settles e s (.error err) s') : s'.Explains s'.labels err := by
  have hfits := hp.progress.sound.fits hget
  have hend := h.progress hp.progress hget
  have haddr := hfits.address_eq
  cases h with
  | shadowed hne =>
    rw [haddr]
    refine .alreadyInitiated hget ?_ (.inl hne)
    cases hres : e.isResolved with
    | true => rfl
    | false => exact absurd (hfits.shadowed_of_unresolved hres) hne
  | waited _ hres hpending hservice hstarts =>
    rw [haddr] at hstarts
    cases hfits with
    | value => exact hstarts.explains hget rfl hservice hpending
    | constructor => cases hservice
    | template => cases hservice
  | shapeless _ _ hpending hservice =>
    refine absurd hservice (hfits.service?_ne_none ?_)
    rw [hpending]
    exact ServiceState.noConfusion
  | uncalled _ hres hpayload hcalls =>
    obtain ⟨rfl, rfl⟩ := hfits.eq_constructor hres hpayload
    cases hcalls with
    | unsupplied hargs =>
      obtain ⟨t, ht, hlookup | ⟨b, component, hslot, hc, hshare, rfl⟩⟩ :=
        Storage.arguments_eq_error hargs
      · exact hp.explains_lookup hs horder hget rfl ht hlookup
      · exact .typeMismatch hget ht hslot hc hshare
    | failed f => exact .constructorFailed f List.getLast?_concat hget
  | @called c _ _ _ _ _ hres hpayload hcalls habsorbs =>
    cases hcalls with
    | @supplied args products hargs hlength =>
      have hrun : .construct c args (.ok ()) ∈ s'.calls := by
        obtain ⟨new, hnew, _⟩ := habsorbs.grows
        rw [hnew]
        exact List.mem_append_left _ (List.mem_append_right _ List.mem_cons_self)
      exact habsorbs.explains hlength ⟨_, (hend.of_run hrun).2.1, rfl⟩
  | unassembled _ hres hpayload hassembles =>
    obtain ⟨_, rfl⟩ := hfits.eq_template hres hpayload
    cases hassembles with
    | unfilled hvalues =>
      obtain ⟨field, hfield, hlookup⟩ := Storage.fillFields_eq_error hvalues
      exact hp.explains_lookup hs horder hget rfl (List.mem_map_of_mem hfield) hlookup
    | failed err =>
      cases err with
      | missingField => exact .missingField List.getLast?_concat hget
      | _ => exact .assemblyFailed List.getLast?_concat hget
  | assembled _ hres hpayload hassembles habsorbs =>
    obtain ⟨hslot, rfl⟩ := hfits.eq_template hres hpayload
    cases hassembles with
    | assembled product =>
      refine habsorbs.error_cases.resolve_left ?_
      rintro ⟨b, hslot', -, hnot, -⟩
      obtain rfl := Option.some.inj (hslot.symm.trans hslot')
      exact hnot (Storage.free_of_unresolved hget rfl)

/-! ## Walks -/

/-- A walk along an order of all slots that fails is explained by its error. -/
theorem SettlesAll.explains {order : List Address} (h : SettlesAll order ⟨s₀, []⟩ (.error err) s')
    (hs : s₀.Sound) (hrest : s₀.Resting) (horder : s₀.graph.order = .ok order) :
    s'.Explains s'.labels err := by
  rcases h.paced (.start hs hrest) with
    ⟨hr, _⟩ | ⟨passed, a, rest, e, s₁, _, rfl, hr, hp, hget, hsettles⟩
  · cases hr
  · cases hr
    exact hp.explains hs horder hget hsettles

/-! ## Starts -/

/-- How a start fails: it is turned away, its graph has a cycle, or its walk fails. -/
theorem Step.start_error {st st' : Status} {made : List Call}
    (h : Step st .start made (.error err) st') (ho : st.InOrder) :
    (made = [] ∧ st' = st ∧ (err = .alreadyStarted ∧ st.running = true ∨
        (∃ reason, err = .trackerState reason) ∧ st.on = true ∧ st.running = false)) ∨
      st'.on = true ∧ st'.running = false ∧
        (made = [] ∧ st'.storage = st.storage ∧ st.storage.graph.order = .error err ∨
          Scene.Explains ⟨st'.storage, made⟩ (st'.live.map Record.label) err) := by
  cases h with
  | alreadyStarted hrunning => exact .inl ⟨rfl, rfl, .inl ⟨rfl, hrunning⟩⟩
  | stopRequired hrunning hon => exact .inl ⟨rfl, rfl, .inr ⟨⟨_, rfl⟩, hon, hrunning⟩⟩
  | unordered _ _ horder => exact .inr ⟨rfl, rfl, .inl ⟨rfl, rfl, horder⟩⟩
  | @startFailed _ _ after _ hoff horder hwalk =>
    refine .inr ⟨rfl, rfl, .inr ?_⟩
    have hlive : (st.gained after).live = after.calls.filterMap Call.record? := by
      rw [Status.gained, ho.live_of_off hoff, List.nil_append]
    have hexplains := hwalk.explains ho.sound (ho.resting_of_off hoff) horder
    rw [Scene.labels, ← hlive] at hexplains
    exact hexplains

/-- Where nothing is initiated, there is no entry, unless the slot is one that a constructor has for
itself. -/
theorem Turn.Diagnosed.absent {turn : Turn} (h : turn.Diagnosed (.notInitiated a))
    (ha : ¬ a.Serial) : turn.after.storage.get? a = none := by
  cases h with
  | walk hexplains =>
    cases hexplains with
    | notInitiated _ hslot habsent =>
      refine habsent fun b hb => ?_
      rw [← Storage.slot?_shared_eq, hslot] at hb
      exact Option.some.inj hb ▸ ha

/-- Whatever was done to a container before, a start that fails is diagnosed by its error. Where the
error is `notInitiated` there is no entry at its address, under one hypothesis on the type that was
asked for, `ComponentType.Named`: without it the address may be the one that a constructor has for
itself. -/
theorem Client.start_diagnosed {σ : Type} (client : Client σ) (config : ContainerConfig)
    (context : Context) (token : Token) (nextIdentity : Identity) (host : σ)
    (ops : List Operation) (err : Error) :
    let w := client.playOut (.fresh config context token nextIdentity host) ops
    let turn := (client.perform w .start).1
    turn.result = .error err → turn.Diagnosed err := by
  intro w turn hresult
  have ho : w.container.InOrder :=
    Client.playOut_inOrder (Container.new_inOrder config context token) ops
  obtain ⟨hstep, _, _⟩ := client.perform_step .start ho
  have hstep : Step turn.before.status .start turn.calls (.error err) turn.after.status :=
    hresult ▸ hstep
  rcases hstep.start_error ho.status with
    ⟨hcalls, hsame, ⟨rfl, hrunning⟩ | ⟨⟨_, rfl⟩, hon, hrunning⟩⟩ |
      ⟨hon, hrunning, ⟨hcalls, hstorage, horder⟩ | hexplains⟩
  · have hidle : turn.Idle := ⟨hcalls, congrArg Status.storage hsame⟩
    exact .alreadyStarted hidle hrunning ((congrArg Status.running hsame).trans hrunning)
  · have hidle : turn.Idle := ⟨hcalls, congrArg Status.storage hsame⟩
    have hbefore : turn.before.Stalled := ⟨Container.on_iff.1 hon, hrunning⟩
    rw [← hsame] at hon hrunning
    exact .trackerState hidle hbefore ⟨Container.on_iff.1 hon, hrunning⟩
  · obtain ⟨path, rfl⟩ := Graph.order_eq_error (Storage.graph_proper _) horder
    exact .cycle ⟨hcalls, hstorage⟩ horder ⟨Container.on_iff.1 hon, hrunning⟩
  · exact .walk hexplains ⟨Container.on_iff.1 hon, hrunning⟩

/-- A service, and a constructor that needs it and a clock, which nothing provides. -/
def Item.clockless : List Item :=
  let pool := ComponentType.ofName "app::Pool"
  [.value ⟨pool, .made 0, some ⟨.plain, .made 0⟩⟩,
    .constructor ⟨0, ⟨[pool, .ofName "app::Clock"], [.ofName "app::Store"], 1⟩⟩]

/-- The first start after items were registered into a new container. -/
def Turn.firstStart (items : List Item) : Turn :=
  (Client.serving.perform (Client.serving.playOut (.fresh default (.root 0) ⟨1⟩ 1 ())
    [.register items]) .start).1

/-- The turn failed because nothing is at an address. -/
def Turn.lacks (turn : Turn) (a : Address) : Bool :=
  match turn.result with
  | .error (.notInitiated b) => decide (b = a)
  | _ => false

theorem Turn.result_of_lacks {turn : Turn} {a : Address} (h : turn.lacks a = true) :
    turn.result = .error (.notInitiated a) := by
  unfold Turn.lacks at h
  split at h
  · next b heq => rw [heq, of_decide_eq_true h]
  · cases h

/-- The constructor is not called, since there is no clock; the service was started before. -/
theorem Client.start_diagnosed_clockless :
    (Turn.firstStart Item.clockless).result = .error (.notInitiated ⟨"app.Clock"⟩) ∧
      (Turn.firstStart Item.clockless).after.started = ["app.Pool"] ∧
      (Turn.firstStart Item.clockless).Diagnosed (.notInitiated ⟨"app.Clock"⟩) ∧
      (Turn.firstStart Item.clockless).after.storage.get? ⟨"app.Clock"⟩ = none := by
  have hresult : (Turn.firstStart Item.clockless).result =
      .error (.notInitiated ⟨"app.Clock"⟩) := Turn.result_of_lacks (by decide +kernel)
  have hdiagnosed := Client.start_diagnosed .serving default (.root 0) ⟨1⟩ 1 ()
    [.register Item.clockless] _ hresult
  have hserial : ¬ (⟨"app.Clock"⟩ : Address).Serial := Address.not_serial (by decide)
  exact ⟨hresult, by decide +kernel, hdiagnosed, hdiagnosed.absent hserial⟩

/-- A type whose name leads to the slot of a constructor is missed although there is an entry. -/
example :
    let c : Constructor := ⟨0, ⟨[], [], 1⟩⟩
    let turn := Turn.firstStart
      [.constructor c, .constructor ⟨1, ⟨[.ofName "fn()#0"], [], 1⟩⟩]
    turn.lacks c.address = true ∧ (turn.after.storage.get? c.address).isSome = true := by
  decide +kernel

end Wiring
