import Wiring.Proofs.Readiness

/-!
# Completeness of a start

A container into which wired items were registered starts, provided that the program is not at
fault: each constructor is called once and each template assembled once, every provided slot holds
the component that its provider gave, and every service among those is started once
(`Client.start_complete`).
-/

namespace Wiring

namespace Call

/-- Whether the call asks a provider for what it provides. -/
def isOf : Item → Call → Bool
  | .constructor c, construct c' _ _ | .constructor c, supply c' _ _ => c' = c
  | .template t, assemble t' _ _ => t' = t
  | _, _ => false

/-- Whether the call is one of the start hook of the service in a slot. -/
def isUpOf (a : Address) : Call → Bool
  | up label _ _ => label = a.text
  | _ => false

theorem isOf_constructor {c : Constructor} {call : Call} (h : call.isFailure = false) :
    call.isOf (.constructor c) = call.isRunOf c := by
  cases call with
  | construct c' args result => cases result <;> first | rfl | cases h
  | _ => rfl

theorem isOf_template {t : Template} {call : Call} (h : call.isFailure = false) :
    call.isOf (.template t) = call.isAssemblyOf t := by
  cases call with
  | assemble t' values result => cases result <;> first | rfl | cases h
  | _ => rfl

theorem isUpOf_eq {a : Address} {call : Call} (h : call.isFailure = false) :
    call.isUpOf a = call.isStartOf a := by
  cases call with
  | up label service result => cases result <;> first | rfl | cases h
  | _ => rfl

/-- A program that answers every call with success is not at fault. -/
theorem faultless_of_success {call : Call} (h : call.isFailure = false) : call.Faultless := by
  cases call with
  | construct c args result => cases result <;> first | rfl | cases h
  | supply => trivial
  | assemble t values result =>
    cases result with
    | ok product => exact fun _ herror => nomatch herror
    | error => cases h
  | up label service result => cases result <;> first | rfl | cases h
  | down service result => cases result <;> first | rfl | cases h

end Call

/-- How a component of the type that an item provides came from it, by some calls. -/
inductive Item.Gives (calls : List Call) (t : ComponentType) : Item → Component → Prop
  | value : c.type = t → Gives calls t (.value c) c
  | output : c.callable.outputs[i]? = some t → .supply c i product ∈ calls →
      Gives calls t (.constructor c) (.ofProduct t product)
  | template : k.type = t → .assemble k values (.ok product) ∈ calls →
      Gives calls t (.template k) (.ofProduct t product)

/-- What a start achieves: all that the items provide is resolved, by one call of each provider, and
started, by one call of each start hook. -/
structure Complete (items : List Item) (calls : List Call) (s : Storage) : Prop where
  /-- Every provided slot holds the component that its provider gave. -/
  provided : ∀ item ∈ items, ∀ a t, (a, t) ∈ item.provisions →
    ∃ c, s.component? a = some c ∧ item.Gives calls t c
  /-- Each constructor is called once, with success, and its outputs are taken once each. -/
  constructed : ∀ c, .constructor c ∈ items → ∃ args products,
    products.length = c.callable.outputs.length ∧
      calls.filter (Call.isOf (.constructor c)) =
        .construct c args (.ok ()) :: suppliesFrom c 0 products
  /-- Each template with a slot is assembled once, with success. -/
  assembled : ∀ t, .template t ∈ items → t.type.slot? ≠ none → ∃ values product,
    calls.filter (Call.isOf (.template t)) = [.assemble t values (.ok product)]
  /-- Each service in a provided slot is started once, with success. -/
  started : ∀ item ∈ items, ∀ a t, (a, t) ∈ item.provisions → ∀ c service,
    s.component? a = some c → c.service? = some service →
      calls.filter (Call.isUpOf a) = [.up a.text service (.ok ())]

variable {items : List Item} {calls : List Call} {s₀ : Storage} {s s' : Scene} {a : Address}
  {t : ComponentType} {item : Item} {c : Component} {order : List Address}

/-! ## The end of a walk -/

/-- What a provided slot holds came from its provider. -/
theorem Laid.gives (hl : Laid items calls s₀) (hw : Wired items) (hitem : item ∈ items)
    (hprovides : (a, t) ∈ item.provisions) (hc : s₀.component? a = some c) :
    item.Gives calls t c := by
  obtain ⟨e, hget, hcomponent⟩ := Storage.component?_eq_some.1 hc
  rcases hl.provided_cases hw hitem hprovides hget with ⟨k, _, rfl⟩ |
    ⟨c', hc', htype, rfl | ⟨k, i, product, rfl, _, houtput, hsupply, rfl⟩ |
      ⟨k, values, product, rfl, hassemble, rfl⟩⟩
  · cases hcomponent
  · cases hcomponent.symm.trans hc'
    exact .value htype
  · cases hcomponent.symm.trans hc'
    exact .output houtput hsupply
  · cases hcomponent.symm.trans hc'
    obtain ⟨ht, _⟩ := Item.mem_provisions.1 hprovides
    exact .template (List.mem_singleton.1 ht).symm hassemble

theorem Item.slot?_seat (h : (a, t) ∈ item.provisions) : item.slot? = some (item.seat a) := by
  obtain ⟨ht, hslot⟩ := mem_provisions.1 h
  cases item with
  | constructor c => rfl
  | value c =>
    obtain rfl := List.mem_singleton.1 ht
    exact hslot
  | template k =>
    obtain rfl := List.mem_singleton.1 ht
    exact hslot

/-- Every slot with an entry is part of the order. -/
theorem Storage.Sound.mem_order {e : Entry} (hs : s₀.Sound) (horder : s₀.graph.order = .ok order)
    (hget : s₀.get? a = some e) : a ∈ order := by
  obtain ⟨_, hmem, _⟩ := Graph.order_topological s₀.graph_proper horder
  exact (hmem a).2 (hs.key_mem_nodes hget)

/-- What an entry requests stands before it in the order. -/
theorem Storage.Sound.requests_passed {e : Entry} {before after : List Address}
    {t : ComponentType} (hs : s₀.Sound) (horder : s₀.graph.order = .ok (before ++ a :: after))
    (hget : s₀.get? a = some e) (ht : t ∈ e.requirements) : t.request.address ∈ before := by
  obtain ⟨_, _, hbefore⟩ := Graph.order_topological s₀.graph_proper horder
  exact hbefore rfl _ (hs.edge_graph.2 (.inl ⟨e, hget, t, ht, rfl⟩))

/-- At the end of a walk that kept pace every provided slot is held. -/
theorem Laid.provided (hl : Laid items calls s₀) (hw : Wired items) (hwhole : s₀.Whole items)
    (horder : s₀.graph.order = .ok order) (hp : Paced s₀ order s) (hitem : item ∈ items)
    (hprovides : (a, t) ∈ item.provisions) :
    ∃ c, s.storage.component? a = some c ∧ item.Gives (calls ++ s.calls) t c := by
  obtain ⟨e, hget⟩ := hl.present item hitem _ (Item.slot?_seat hprovides)
  have hseat := hl.sound.mem_order horder hget
  obtain ⟨c, hc⟩ := Option.isSome_iff_exists.1
    (hl.held_of_passed hw hwhole hp hitem hprovides hseat)
  exact ⟨c, hc, (hl.progress hp.progress).gives hw hitem hprovides hc⟩

/-- In a walk that kept pace every call of a start hook succeeded. -/
theorem Paced.filter_isUpOf (hp : Paced s₀ order s) (a : Address) :
    s.calls.filter (Call.isUpOf a) = s.calls.filter (Call.isStartOf a) :=
  List.filter_congr fun call hmem => Call.isUpOf_eq (hp.succeeded call hmem)

/-- At the end of a walk that kept pace every service was started once. -/
theorem Paced.started {service : Service} (hp : Paced s₀ order s) (hs : s₀.Sound)
    (horder : s₀.graph.order = .ok order) (hc : s.storage.component? a = some c)
    (hservice : c.service? = some service) :
    s.calls.filter (Call.isUpOf a) = [.up a.text service (.ok ())] := by
  rw [hp.filter_isUpOf]
  refine hp.progress.started hc hservice fun e hget hpending => ?_
  obtain ⟨hget₀, hnot⟩ := hp.pending hget hpending
  exact hnot (hs.mem_order horder hget₀)

/-- Where no constructor has run yet nothing is missing. -/
theorem Storage.Registers.whole (h : s₀.Registers items) : s₀.Whole items := by
  intro c hc hran
  have hget : s₀.get? c.address = some (.provider c.address (.constructor c)) :=
    (h _ _).2 ⟨_, hc, rfl, rfl⟩
  cases congrArg Entry.relation (Option.some.inj (hget.symm.trans hran))

/-- A walk that kept pace to its end called each registered constructor once. -/
theorem Paced.constructed {c : Constructor} (hp : Paced s₀ order s)
    (hregisters : s₀.Registers items) (hl : Laid items calls s₀) (hw : Wired items)
    (horder : s₀.graph.order = .ok order) (hc : .constructor c ∈ items) : ∃ args products,
      products.length = c.callable.outputs.length ∧ s.calls.filter (Call.isOf (.constructor c)) =
        .construct c args (.ok ()) :: suppliesFrom c 0 products := by
  have hsame : s.calls.filter (Call.isOf (.constructor c)) = s.calls.filter (Call.isRunOf c) :=
    List.filter_congr fun call hmem => Call.isOf_constructor (hp.succeeded call hmem)
  have hget₀ : s₀.get? c.address = some (.provider c.address (.constructor c)) :=
    (hregisters _ _).2 ⟨_, hc, rfl, rfl⟩
  have hsettled := hp.settled (hl.sound.mem_order horder hget₀) hget₀
  have hran : s.storage.get? c.address = some (.ran c) := by
    refine ((hl.progress hp.progress).constructor_cases hw hc).resolve_left fun hget => ?_
    refine hsettled fun e hget' => ?_
    obtain rfl := Option.some.inj (hget.symm.trans hget')
    rfl
  obtain ⟨args, hrun⟩ := (hp.progress.ran_cases hl.sound hran).resolve_left fun hran₀ => by
    cases congrArg Entry.relation (Option.some.inj (hget₀.symm.trans hran₀))
  rw [hsame]
  rcases hp.progress.runs c with hnone | ⟨hruns, _⟩
  · have hmem := List.mem_filter.2 ⟨hrun, show Call.isRunOf c _ = true by simp [Call.isRunOf]⟩
    rw [hnone] at hmem
    cases hmem
  · exact hruns

/-- A walk that kept pace to its end assembled each registered template once. -/
theorem Paced.assembled {k : Template} (hp : Paced s₀ order s) (hregisters : s₀.Registers items)
    (hl : Laid items [] s₀) (hw : Wired items) (horder : s₀.graph.order = .ok order)
    (hk : .template k ∈ items) (hslot : k.type.slot? = some a) : ∃ values product,
      s.calls.filter (Call.isOf (.template k)) = [.assemble k values (.ok product)] := by
  have hsame : s.calls.filter (Call.isOf (.template k)) = s.calls.filter (Call.isAssemblyOf k) :=
    List.filter_congr fun call hmem => Call.isOf_template (hp.succeeded call hmem)
  have hget₀ : s₀.get? a = some (.provider a (.template k)) :=
    (hregisters _ _).2 ⟨_, hk, hslot, rfl⟩
  have hsettled := hp.settled (hl.sound.mem_order horder hget₀) hget₀
  have hl' := hl.progress hp.progress
  have hheld : s.storage.Held a := by
    refine (hl'.template_cases hw hk hslot).resolve_left fun hget => ?_
    refine hsettled fun e hget' => ?_
    obtain rfl := Option.some.inj (hget.symm.trans hget')
    rfl
  obtain ⟨c, hc⟩ := Option.isSome_iff_exists.1 hheld
  have hprovides : (a, k.type) ∈ (Item.template k).provisions :=
    Item.mem_provisions.2 ⟨List.mem_singleton.2 rfl, hslot⟩
  rw [hsame]
  cases hl'.gives hw hk hprovides hc with
  | template _ hassemble =>
    rcases hp.progress.assemblies k with hnone | ⟨_, hassemblies, _⟩
    · have hmem := List.mem_filter.2
        ⟨hassemble, show Call.isAssemblyOf k _ = true by simp [Call.isAssemblyOf]⟩
      rw [List.nil_append, hnone] at hmem
      cases hmem
    · exact hassemblies

/-- A walk that kept pace to its end, in a storage into which wired items were registered, is
complete. -/
theorem Paced.complete (hp : Paced s₀ order s) (hregisters : s₀.Registers items)
    (hl : Laid items [] s₀) (hw : Wired items) (horder : s₀.graph.order = .ok order) :
    Complete items s.calls s.storage where
  provided item hitem a t hprovides :=
    hl.provided hw hregisters.whole horder hp hitem hprovides
  constructed c hc := hp.constructed hregisters hl hw horder hc
  assembled k hk hslot := by
    obtain ⟨a, hslot⟩ := Option.ne_none_iff_exists'.1 hslot
    exact hp.assembled hregisters hl hw horder hk hslot
  started item hitem a t hprovides c service hc hservice :=
    hp.started hl.sound horder hc hservice

/-! ## Starts -/

/-- A start of a container that is off, laid out by wired items from which nothing is lost, succeeds
unless the program is at fault. -/
theorem Step.start_paced {st st' : Status} {r : Except Error (Option Object)}
    {made : List Call} (h : Step st .start made r st') (hoff : st.on = false) (ho : st.InOrder)
    (hl : Laid items calls st.storage) (hw : Wired items) (hwhole : st.storage.Whole items)
    (hf : ∀ call ∈ made, call.Faultless) : r = .ok none ∧
      ∃ order, st.storage.graph.order = .ok order ∧ Paced st.storage order ⟨st'.storage, made⟩ := by
  obtain ⟨order, horder⟩ := Graph.exists_order st.storage.graph_proper (hl.acyclic hw)
  have hrest := ho.resting_of_off hoff
  cases h with
  | alreadyStarted hrunning =>
    exact Bool.noConfusion (hoff.symm.trans (ho.on_of_running hrunning))
  | stopRequired _ hon => exact Bool.noConfusion (hoff.symm.trans hon)
  | unordered _ _ herror => cases horder.symm.trans herror
  | startFailed _ _ horder' hwalk =>
    cases horder.symm.trans horder'
    cases (hl.settlesAll_ok hw hwhole hrest horder hwalk hf).1
  | started _ _ horder' hwalk =>
    cases horder.symm.trans horder'
    exact ⟨rfl, order, horder, (hl.settlesAll_ok hw hwhole hrest horder hwalk hf).2⟩

/-- A container that does not run accepts items that its storage accepts. -/
theorem Step.register_ok {st st' : Status} {r : Except Error (Option Object)} {made : List Call}
    (h : Step st (.register items) made r st') (hoff : st.running = false)
    (hadd : (st.storage.addAll items).1 = .ok ()) :
    r = .ok none ∧ st' = { st with storage := (st.storage.addAll items).2 } := by
  cases h with
  | registerRunning hrunning => exact Bool.noConfusion (hoff.symm.trans hrunning)
  | registered _ hadd' =>
    rw [hadd'] at hadd ⊢
    cases hadd
    exact ⟨rfl, rfl⟩

variable {σ : Type} (client : Client σ)

/-- Registering wired items, in one call or several, is accepted and adds them all. -/
theorem Client.play_register {w : World σ} {done : List Item} (batches : List (List Item))
    (ho : w.container.InOrder) (hoff : w.container.running = false)
    (hadded : (Storage.empty.addAll done).1 = .ok ())
    (hstorage : w.container.storage = (Storage.empty.addAll done).2)
    (hdistinct : ((done ++ batches.flatten).flatMap Item.slots).Nodup) :
    (∀ turn ∈ client.play w (batches.map .register), turn.result = .ok none) ∧
      (client.playOut w (batches.map .register)).container.status = { w.container.status with
        storage := (Storage.empty.addAll (done ++ batches.flatten)).2 } := by
  induction batches generalizing w done with
  | nil =>
    refine ⟨by simp [Client.play], ?_⟩
    rw [List.flatten_nil, List.append_nil, ← hstorage]
    rfl
  | cons batch batches ih =>
    rw [List.flatten_cons, ← List.append_assoc] at hdistinct ⊢
    have hbatch : ((done ++ batch).flatMap Item.slots).Nodup := by
      rw [List.flatMap_append] at hdistinct
      exact (List.nodup_append.1 hdistinct).1
    have hadd := Storage.addAll_append batch hadded
    rw [← hstorage] at hadd
    have hadded' := (Storage.registers_addAll hbatch).1
    obtain ⟨hstep, hafter, ho'⟩ := client.perform_step (.register batch) ho
    obtain ⟨hresult, hstatus⟩ := hstep.register_ok hoff (hadd ▸ hadded')
    rw [← hafter] at hstatus ho'
    have hoff' := (congrArg Status.running hstatus).trans hoff
    have hstorage' := (congrArg Status.storage hstatus).trans (congrArg Prod.snd hadd.symm)
    obtain ⟨hresults, hend⟩ := ih ho' hoff' hadded' hstorage' hdistinct
    refine ⟨fun turn hmem => ?_, ?_⟩
    · rcases List.mem_cons.1 hmem with rfl | hmem
      · exact hresult
      · exact hresults turn hmem
    · exact hend.trans (by rw [hstatus])

/-- A start after wired items were registered into a new container, in one call or several, succeeds
and is complete, provided that the program is not at fault in it. -/
theorem Client.start_complete (client : Client σ) (config : ContainerConfig) (context : Context)
    (token : Token) (nextIdentity : Identity) (host : σ) (batches : List (List Item))
    (hw : Wired (Container.seeds context token ++ batches.flatten)) :
    let w₀ := World.fresh config context token nextIdentity host
    let turn := (client.perform (client.playOut w₀ (batches.map .register)) .start).1
    (∀ call ∈ turn.calls, call.Faultless) →
      (∀ turn ∈ client.play w₀ (batches.map .register), turn.result = .ok none) ∧
        turn.result = .ok none ∧
        Complete (Container.seeds context token ++ batches.flatten) turn.calls
          turn.after.storage := by
  intro w₀ turn hfaultless
  have ho : w₀.container.InOrder := Container.new_inOrder config context token
  have hseeds := Container.storage_new config context token
  obtain ⟨hregistered, hstatus⟩ := client.play_register batches ho rfl
    (congrArg Prod.fst hseeds) (congrArg Prod.snd hseeds).symm hw.distinct
  have ho' : (client.playOut w₀ (batches.map .register)).container.InOrder :=
    Client.playOut_inOrder ho (batches.map .register)
  obtain ⟨hstep, _, _⟩ := client.perform_step .start ho'
  obtain ⟨_, hregisters⟩ := Storage.registers_addAll hw.distinct
  obtain ⟨_, hl⟩ := Laid.registered hw.distinct
  have hstorage : (client.playOut w₀ (batches.map .register)).container.status.storage =
      (Storage.empty.addAll (Container.seeds context token ++ batches.flatten)).2 :=
    congrArg Status.storage hstatus
  have hoff : (client.playOut w₀ (batches.map .register)).container.status.on = false :=
    congrArg Status.on hstatus
  rw [← hstorage] at hregisters hl
  obtain ⟨hresult, order, horder, hp⟩ :=
    hstep.start_paced hoff ho'.status hl hw hregisters.whole hfaultless
  exact ⟨hregistered, hresult, hp.complete hregisters hl hw horder⟩

/-- A service, a constructor that needs it, and a template that needs both. -/
def Item.samples : List Item :=
  let pool := ComponentType.ofName "app::Pool"
  let store := ComponentType.ofName "app::Store"
  [.template ⟨.ofName "app::App", [⟨"pool", pool⟩, ⟨"store", store⟩], 2⟩,
    .constructor ⟨0, ⟨[pool], [store], 1⟩⟩,
    .value ⟨pool, .made 0, some ⟨.plain, .made 0⟩⟩]

/-- The start of a new container into which the samples were registered. -/
def Turn.sampleStart : Turn :=
  let client := Client.steady ⟨.made 3, some ⟨.token, .made 3⟩⟩
  let w₀ := World.fresh default (.root 0) ⟨1⟩ 1 ()
  (client.perform (client.playOut w₀ ([Item.samples].map .register)) .start).1

theorem Client.start_complete_samples :
    Wired (Container.seeds (.root 0) ⟨1⟩ ++ [Item.samples].flatten) ∧
      (∀ call ∈ Turn.sampleStart.calls, call.Faultless) ∧
      Turn.sampleStart.result = .ok none ∧
      Complete (Container.seeds (.root 0) ⟨1⟩ ++ [Item.samples].flatten) Turn.sampleStart.calls
        Turn.sampleStart.after.storage := by
  have hw : Wired (Container.seeds (.root 0) ⟨1⟩ ++ [Item.samples].flatten) := by decide +kernel
  have hsuccess : ∀ call ∈ Turn.sampleStart.calls, call.isFailure = false := by decide +kernel
  have hfaultless : ∀ call ∈ Turn.sampleStart.calls, call.Faultless := fun call hmem =>
    Call.faultless_of_success (hsuccess call hmem)
  obtain ⟨_, hresult, hcomplete⟩ := Client.start_complete (.steady ⟨.made 3, some ⟨.token, .made 3⟩⟩)
    default (.root 0) ⟨1⟩ 1 () [Item.samples] hw hfaultless
  exact ⟨hw, hfaultless, hresult, hcomplete⟩

end Wiring
