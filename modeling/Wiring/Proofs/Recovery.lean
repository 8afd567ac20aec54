import Wiring.Proofs.Completeness

/-!
# Recovery after failed starts

After starts that failed, each of them stopped, a start in which the program is not at fault restores
everything that wired items provide, exactly if no earlier start lost an output
(`Client.restored_iff`). A constructor counts as run before its outputs are absorbed, so an output
behind one whose start hook failed is lost: it is not stored, and its constructor is not called
again.
-/

namespace Wiring

/-- Some calls of a start lose an output: they ran its constructor, and the start hook of an earlier
output failed. -/
inductive Loses (items : List Item) (calls : List Call) : Prop
  | output {c : Constructor} {i j : Nat} {t t' : ComponentType} {a b : Address} :
      .constructor c ∈ items → .construct c args (.ok ()) ∈ calls →
      c.callable.outputs[i]? = some t → t.slot? = some a →
      .up a.text service (.error f) ∈ calls →
      i < j → c.callable.outputs[j]? = some t' → t'.slot? = some b → Loses items calls

variable {items : List Item} {calls : List Call} {s₀ : Storage} {s s' : Scene}
  {r : Except Error Unit} {err : Error} {a b : Address} {e : Entry} {t : ComponentType}
  {order passed : List Address}

/-! ## What a walk loses -/

/-- What is missing at the beginning of a walk is missing at its end. -/
theorem Laid.whole_before (hl : Laid items calls s₀) (hw : Wired items) (hp : Progress s₀ s)
    (hwhole : s.storage.Whole items) : s₀.Whole items := by
  intro c hc hran t ht b hslot
  have hprovides := Item.provides_output ht hslot
  obtain ⟨component, hcomponent⟩ :=
    Option.isSome_iff_exists.1 (hwhole c hc (hp.kept_ran hran) t ht b hslot)
  obtain ⟨e, hget, hdelivers⟩ := Storage.component?_eq_some.1 hcomponent
  refine (hl.output_cases hw hc ht hslot).elim (fun hnone => ?_) And.right
  -- What was stored meanwhile came from another provider, but the slot has no other.
  cases hp.comes hget with
  | kept hget₀ => cases hnone.symm.trans hget₀
  | ran => cases hdelivers
  | stored _ _ hsourced =>
    cases hsourced with
    | output hrun houtput hslot' =>
      obtain ⟨hget₀, _⟩ := hp.of_run hrun
      obtain ⟨heq, _⟩ := hw.provider_unique hc (hl.constructor_mem hget₀) hprovides
        (Item.provides_output (List.mem_of_getElem? houtput) hslot')
      cases heq
      cases congrArg Entry.relation (Option.some.inj (hran.symm.trans hget₀))
    | template hassemble hslot' =>
      obtain ⟨_, _, hget₀, _⟩ := hp.of_assembly hassemble
      obtain ⟨heq, _⟩ := hw.provider_unique hc (hl.template_mem hget₀) hprovides
        (Item.provides_template hslot')
      cases heq

/-- Where the start hook of an output fails in a step, the outputs behind it are not stored. -/
theorem Laid.missing_behind {c : Constructor} {i j : Nat} {t' : ComponentType} {a' : Address}
    {service : Service} {f : Fault} (hl : Laid items calls s.storage) (hw : Wired items)
    (hget : s.storage.get? a' = some (.provider a' (.constructor c)))
    (h : Settles (.provider a' (.constructor c)) s (.error err) s')
    (hnew : .up a.text service (.error f) ∉ s.calls)
    (hfault : .up a.text service (.error f) ∈ s'.calls)
    (hi : c.callable.outputs[i]? = some t) (hslot : t.slot? = some a)
    (hlt : i < j) (hj : c.callable.outputs[j]? = some t') (hslot' : t'.slot? = some b) :
    s'.storage.get? b = none := by
  have hc := hl.constructor_mem hget
  have hnone : ∀ {t b}, t ∈ c.callable.outputs → ComponentType.slot? t = some b →
      (s.storage.markResolved a').get? b = none := hl.outputs_free_marked hw hget
  rcases h.absorbs with ⟨_, _, _, hcalls⟩ | ⟨args, products, hlength, habsorbs⟩
  · rcases hcalls _ hfault with hmem | ⟨_, _, heq⟩
    · exact absurd hmem hnew
    · cases heq
  · obtain ⟨k, _, a₁, _, _, hk, hslot₁, _, _, honly, _, hbehind⟩ :=
      hw.exists_fault hc hlength (fun t ht b hslot e' hget' => by
        cases (hnone ht hslot).symm.trans hget') habsorbs
    obtain rfl : a = a₁ := congrArg Address.mk
      ((honly _ _ _ hfault).resolve_left fun hmem => hnew (up_mem_of_run hmem))
    obtain rfl : i = k := hw.index_unique hc hi hk hslot hslot₁
    rw [hbehind j t' b hlt hj hslot', hnone (List.mem_of_getElem? hj) hslot']

/-- If nothing is missing after a step that failed, the walk lost no output. -/
theorem Laid.not_loses (hl : Laid items calls s₀) (hw : Wired items) (hp : Paced s₀ passed s)
    (hget : s.storage.get? a = some e) (h : Settles e s (.error err) s')
    (hwhole : s'.storage.Whole items) : ¬ Loses items s'.calls := by
  rintro ⟨hc, hrun, hi, hslot, hfault, hlt, hj, hslot'⟩
  obtain ⟨hget₀, hran, _⟩ := (h.progress hp.progress hget).of_run hrun
  have hl' := hl.progress hp.progress
  have hprovides := Item.provides_output (List.mem_of_getElem? hi) hslot
  have hnew : ∀ {label service f}, .up label service (.error f) ∉ s.calls :=
    fun hmem => nomatch hp.succeeded _ hmem
  obtain ⟨hasks, _⟩ := (h.asks hp.progress.sound hget hfault).resolve_left hnew
  rcases hasks.of_up with ⟨rfl, _, hpending⟩ | ⟨k, _, rfl, houtput, hslot₁, _⟩ | ⟨k, rfl, rfl⟩
  · obtain ⟨hget₁, _⟩ := hp.pending hget hpending
    cases (hl.outputs_free hw hget₀ (List.mem_of_getElem? hi) hslot).symm.trans hget₁
  · obtain ⟨heq, _⟩ := hw.provider_unique hc (hl'.constructor_mem hget) hprovides
      (Item.provides_output houtput hslot₁)
    cases heq
    have hnone := hl'.missing_behind hw hget h hnew hfault hi hslot hlt hj hslot'
    obtain ⟨component, hcomponent⟩ := Option.isSome_iff_exists.1
      (hwhole _ hc hran _ (List.mem_of_getElem? hj) _ hslot')
    obtain ⟨e', hget', _⟩ := Storage.component?_eq_some.1 hcomponent
    cases hnone.symm.trans hget'
  · obtain ⟨ht, _⟩ := (hl'.sound.fits hget).eq_template rfl rfl
    obtain ⟨heq, _⟩ := hw.provider_unique hc (hl'.template_mem hget) hprovides
      (Item.provides_template ht)
    cases heq

/-- If the walk loses no output in a step that fails, nothing is missing after it that was not
missing at the beginning. -/
theorem Laid.whole_after (hl : Laid items calls s₀) (hw : Wired items) (hp : Paced s₀ passed s)
    (hget : s.storage.get? a = some e) (h : Settles e s (.error err) s')
    (hwhole : s₀.Whole items) (hnot : ¬ Loses items s'.calls) : s'.storage.Whole items := by
  intro c hc hran t ht b hslot
  have hp' := h.progress hp.progress hget
  have hl' := hl.progress hp.progress
  have hearlier : ∀ {args}, .construct c args (.ok ()) ∈ s.calls → s'.storage.Held b := fun hmem =>
    h.keeps.held (hp.outputs hmem t ht hslot)
  rcases hp'.ran_cases hl.sound hran with hran₀ | ⟨args, hrun⟩
  · exact hp'.keeps.held (hwhole c hc hran₀ t ht b hslot)
  · rcases h.asks hp.progress.sound hget hrun with hmem | ⟨hasks, _⟩
    · exact hearlier hmem
    · cases hasks with
      | construct he =>
        subst he
        rcases h.absorbs with ⟨_, _, _, hcalls⟩ | ⟨args', products, hlength, habsorbs⟩
        · rcases hcalls _ hrun with hmem | ⟨_, _, heq⟩
          · exact hearlier hmem
          · cases heq
        · obtain ⟨i, t₁, a₁, service, f, hi, hslot₁, hfault, hheld, _, hbefore, _⟩ :=
            hw.exists_fault hc hlength (fun t ht b hslot e' hget' => by
              cases (hl'.outputs_free_marked hw hget ht hslot).symm.trans hget') habsorbs
          obtain ⟨j, hj⟩ := List.mem_iff_getElem?.1 ht
          rcases Nat.lt_trichotomy j i with hlt | rfl | hgt
          · exact hbefore j t b hlt hj hslot
          · cases hi.symm.trans hj
            cases hslot₁.symm.trans hslot
            exact hheld
          · exact absurd (.output hc hrun hi hslot₁ hfault hgt hj hslot) hnot

/-- After a walk nothing is missing exactly if nothing was missing at its beginning and it lost no
output. -/
theorem SettlesAll.whole_iff (h : SettlesAll order ⟨s₀, []⟩ r s') (hl : Laid items calls s₀)
    (hw : Wired items) (hrest : s₀.Resting) :
    s'.storage.Whole items ↔ s₀.Whole items ∧ ¬ Loses items s'.calls := by
  have hp := h.progress (.start hl.sound hrest)
  rcases h.paced (.start hl.sound hrest) with
    ⟨_, hpaced⟩ | ⟨passed, a, rest, e, s₁, err, _, rfl, hpaced, hget, hsettles⟩
  · refine ⟨fun hwhole => ⟨hl.whole_before hw hp hwhole, ?_⟩, ?_⟩
    · rintro ⟨_, _, _, _, hfault, _⟩
      exact nomatch hpaced.succeeded _ hfault
    · rintro ⟨hwhole, _⟩ c hc hran t ht b hslot
      rcases hp.ran_cases hl.sound hran with hran₀ | ⟨args, hrun⟩
      · exact hp.keeps.held (hwhole c hc hran₀ t ht b hslot)
      · exact hpaced.outputs hrun t ht hslot
  · refine ⟨fun hwhole => ⟨hl.whole_before hw hp hwhole, ?_⟩, fun ⟨hwhole, hnot⟩ => ?_⟩
    · exact hl.not_loses hw hpaced hget hsettles hwhole
    · exact hl.whole_after hw hpaced hget hsettles hwhole hnot

/-- A stop loses nothing. -/
theorem Storage.whole_resetRunning : s₀.resetRunning.Whole items ↔ s₀.Whole items := by
  have hran : ∀ c : Constructor, s₀.resetRunning.get? c.address = some (.ran c) ↔
      s₀.get? c.address = some (.ran c) := fun c => by
    rw [get?_resetRunning]
    cases s₀.get? c.address with
    | none => simp
    | some e =>
      simp only [Option.map_some, Option.some.injEq]
      unfold Entry.rested
      split
      · next hrunning =>
        constructor
        · intro he
          cases congrArg Entry.service he
        · rintro rfl
          cases hrunning
      · rfl
  simp only [Whole, Held, hran, component?_resetRunning]

/-! ## What a run loses -/

/-- A turn that is a start and lost an output. -/
def Turn.Loses (items : List Item) (turn : Turn) : Prop :=
  turn.operation = .start ∧ Wiring.Loses items turn.calls

/-- Nothing is lost by constructors that have one output at most. -/
theorem Turn.not_loses_of_single
    (h : ∀ c, .constructor c ∈ items → c.callable.outputs.length ≤ 1) (turn : Turn) :
    ¬ turn.Loses items := by
  rintro ⟨_, hc, _, _, _, _, hlt, hj, _⟩
  obtain ⟨hlength, _⟩ := List.getElem?_eq_some_iff.1 hj
  have := h _ hc
  omega

/-- What the turns of a run without registration keep: the storage stays laid out by the items, and
what is missing was lost in one of the turns. -/
structure Recovering (items : List Item) (turns : List Turn) (st : Status) : Prop where
  inOrder : st.InOrder
  laid : Laid items (turns.flatMap Turn.calls) st.storage
  whole : st.storage.Whole items ↔ ∀ turn ∈ turns, ¬ turn.Loses items

namespace Recovering

variable {turns : List Turn} {turn : Turn} {st st' : Status}

theorem mem_calls {call : Call} (h : call ∈ turns.flatMap Turn.calls) :
    call ∈ (turns ++ [turn]).flatMap Turn.calls := by
  rw [List.flatMap_append]
  exact List.mem_append_left _ h

/-- No turn loses an output if none did before and the last one does not. -/
theorem forall_concat : (∀ turn' ∈ turns ++ [turn], ¬ turn'.Loses items) ↔
    (∀ turn' ∈ turns, ¬ turn'.Loses items) ∧ ¬ turn.Loses items := by
  simp [or_imp, forall_and]

/-- A turn that stores nothing. -/
theorem of_storage_eq (h : Recovering items turns st) (ho : st'.InOrder)
    (hstorage : st'.storage = st.storage) (hnot : ¬ turn.Loses items) :
    Recovering items (turns ++ [turn]) st' where
  inOrder := ho
  laid := hstorage ▸ h.laid.mono fun _ => mem_calls
  whole := by
    rw [hstorage, h.whole, forall_concat]
    exact (and_iff_left hnot).symm

/-- A turn that is a start and walks along the order. -/
theorem of_walk {after : Scene} (h : Recovering items turns st) (hw : Wired items)
    (ho : st'.InOrder) (hop : turn.operation = .start) (hcalls : turn.calls = after.calls)
    (hrest : st.storage.Resting) (hwalk : SettlesAll order st.scene r after)
    (hstorage : st'.storage = after.storage) : Recovering items (turns ++ [turn]) st' where
  inOrder := ho
  laid := by
    rw [hstorage, List.flatMap_append, List.flatMap_singleton, hcalls]
    exact h.laid.progress (hwalk.progress (.start h.laid.sound hrest))
  whole := by
    have hloses : turn.Loses items ↔ Wiring.Loses items after.calls := by
      rw [Turn.Loses, hcalls]
      exact and_iff_right hop
    rw [hstorage, hwalk.whole_iff h.laid hw hrest, h.whole, forall_concat, hloses]

/-- Every turn but a registration. -/
theorem step (turn : Turn) (h : Recovering items turns st) (hw : Wired items)
    (hstep : Step st turn.operation turn.calls turn.result st')
    (hop : ∀ items, turn.operation ≠ .register items) : Recovering items (turns ++ [turn]) st' := by
  have ho := hstep.inOrder h.inOrder
  obtain ⟨operation, before, made, result, after⟩ := turn
  have hquiet : ∀ {op before result after}, ¬ Turn.Loses items ⟨op, before, [], result, after⟩ := by
    rintro _ _ _ _ ⟨_, _, hrun, _⟩
    cases hrun
  have hother : ∀ {op before made result after}, op ≠ .start →
      ¬ Turn.Loses items ⟨op, before, made, result, after⟩ := fun hne hloses => hne hloses.1
  cases hstep with
  | registerRunning => exact absurd rfl (hop _)
  | registered => exact absurd rfl (hop _)
  | alreadyStarted => exact h.of_storage_eq ho rfl hquiet
  | stopRequired => exact h.of_storage_eq ho rfl hquiet
  | unordered => exact h.of_storage_eq ho rfl hquiet
  | startFailed _ hoff _ hwalk => exact h.of_walk hw ho rfl rfl (h.inOrder.resting_of_off hoff) hwalk rfl
  | started _ hoff _ hwalk => exact h.of_walk hw ho rfl rfl (h.inOrder.resting_of_off hoff) hwalk rfl
  | notStarted => exact h.of_storage_eq ho rfl hquiet
  | uncalled _ _ hcalls =>
    exact h.of_storage_eq ho hcalls.storage_eq (hother Operation.noConfusion)
  | invoked _ _ hcalls hstarts =>
    exact h.of_storage_eq ho (hstarts.storage_eq.trans hcalls.storage_eq)
      (hother Operation.noConfusion)
  | resolved => exact h.of_storage_eq ho rfl hquiet
  | stopOff => exact h.of_storage_eq ho rfl hquiet
  | stopped =>
    refine ⟨ho, (h.laid.mono fun _ => mem_calls).resetRunning, ?_⟩
    rw [Storage.whole_resetRunning, h.whole, forall_concat]
    exact (and_iff_left (hother Operation.noConfusion)).symm

end Recovering

variable {σ : Type} {client : Client σ}

/-- A run without registration. -/
theorem Recovering.run {turns : List Turn} {w : World σ} {ops : List Operation}
    (h : Recovering items turns w.container.status) (ho : w.container.InOrder) (hw : Wired items)
    (hops : ∀ items, .register items ∉ ops) :
    Recovering items (turns ++ client.play w ops) (client.playOut w ops).container.status := by
  refine Client.play_induction (p := fun turns c => Recovering items turns c.status)
    (fun op hop turns w ho h => ?_) h ho
  obtain ⟨hstep, _, _⟩ := client.perform_step op ho
  exact Recovering.step (client.perform w op).1 h hw hstep fun items heq => hops items (heq ▸ hop)

/-- Registration loses nothing. -/
theorem Recovering.registered {st : Status} (ho : st.InOrder)
    (hdistinct : (items.flatMap Item.slots).Nodup)
    (hstorage : st.storage = (Storage.empty.addAll items).2) : Recovering items [] st := by
  obtain ⟨_, hregisters⟩ := Storage.registers_addAll hdistinct
  obtain ⟨_, hl⟩ := Laid.registered hdistinct
  rw [← hstorage] at hregisters hl
  exact ⟨ho, hl, iff_of_true hregisters.whole (by simp)⟩

/-- What a start achieves after earlier turns: all that the items provide is resolved, and every
service among it is started once. -/
structure Restored (items : List Item) (earlier : List Turn) (turn : Turn) : Prop where
  ok : turn.result = .ok none
  /-- Every provided slot holds the component that its provider gave, now or in an earlier turn. -/
  provided : ∀ item ∈ items, ∀ a t, (a, t) ∈ item.provisions →
    ∃ c, turn.after.storage.component? a = some c ∧
      item.Gives (earlier.flatMap Turn.calls ++ turn.calls) t c
  /-- Each service in a provided slot is started once, with success. -/
  started : ∀ item ∈ items, ∀ a t, (a, t) ∈ item.provisions → ∀ c service,
    turn.after.storage.component? a = some c → c.service? = some service →
      turn.calls.filter (Call.isUpOf a) = [.up a.text service (.ok ())]

/-- After any starts, failed or not, that end with a stop, a start in which the program is not at
fault restores all that wired items provide exactly if no earlier start lost an output. -/
theorem Client.start_restores_iff (client : Client σ) (config : ContainerConfig) (context : Context)
    (token : Token) (nextIdentity : Identity) (host : σ) (batches : List (List Item))
    (ops : List Operation) (hw : Wired (Container.seeds context token ++ batches.flatten))
    (hops : ∀ items, .register items ∉ ops) (hstopped : ops = [] ∨ ops.getLast? = some .stop) :
    let w₀ := client.playOut (.fresh config context token nextIdentity host)
      (batches.map .register)
    let earlier := client.play w₀ ops
    let turn := (client.perform (client.playOut w₀ ops) .start).1
    (∀ call ∈ turn.calls, call.Faultless) →
      (Restored (Container.seeds context token ++ batches.flatten) earlier turn ↔
        ∀ turn ∈ earlier, ¬ turn.Loses (Container.seeds context token ++ batches.flatten)) := by
  intro w₀ earlier turn hfaultless
  have hnew : (World.fresh config context token nextIdentity host).container.InOrder :=
    Container.new_inOrder config context token
  have hseeds := Container.storage_new config context token
  obtain ⟨_, hstatus⟩ := client.play_register batches hnew rfl (congrArg Prod.fst hseeds)
    (congrArg Prod.snd hseeds).symm hw.distinct
  have ho : w₀.container.InOrder := Client.playOut_inOrder hnew (batches.map .register)
  have hrecovering : Recovering _ earlier (client.playOut w₀ ops).container.status :=
    (Recovering.registered ho.status hw.distinct (congrArg Status.storage hstatus)).run ho hw hops
  have hend : (client.playOut w₀ ops).container.InOrder := Client.playOut_inOrder ho ops
  have hoff : (client.playOut w₀ ops).container.status.on = false :=
    Client.playOut_off ho (congrArg Status.on hstatus) hstopped
  obtain ⟨hstep, _, _⟩ := client.perform_step .start hend
  have hafter := Recovering.step turn hrecovering hw hstep fun _ => Operation.noConfusion
  constructor
  · rintro ⟨_, hprovided, _⟩
    refine (Recovering.forall_concat.1 (hafter.whole.1 fun c hc _ t ht a hslot => ?_)).1
    obtain ⟨component, hcomponent, _⟩ := hprovided _ hc a t (Item.provides_output ht hslot)
    exact Option.isSome_iff_exists.2 ⟨component, hcomponent⟩
  · intro hnone
    have hwhole := hrecovering.whole.2 hnone
    obtain ⟨hresult, order, horder, hp⟩ := hstep.start_paced hoff hrecovering.inOrder
      hrecovering.laid hw hwhole hfaultless
    refine ⟨hresult, fun item hitem a t hprovides => ?_, fun item hitem a t hprovides c service => ?_⟩
    · exact hrecovering.laid.provided hw hwhole horder hp hitem hprovides
    · exact hp.started hrecovering.laid.sound horder

/-- A program whose start hooks fail as long as its state says so; the first call clears it. The
first output of a constructor is a service. -/
def Client.stumbling : Client Bool where
  construct _ _ := pure (.ok ())
  supply _ position := pure
    (if position = 0 then ⟨.made 0, some ⟨.plain, .made 0⟩⟩ else ⟨.made position, none⟩)
  assemble _ _ := pure (.ok ⟨.made 0, none⟩)
  up _ _ := fun stumbles => (if stumbles then .error (.message "down") else .ok (), false)
  down _ := pure (.ok ())

/-- A start that fails because the program stumbles, and its stop. -/
def Turn.stumbles (items : List Item) : List Turn :=
  Client.stumbling.play (Client.stumbling.playOut (.fresh default (.root 0) ⟨1⟩ 1 true)
    ([items].map .register)) [.start, .stop]

/-- The start after that. -/
def Turn.restart (items : List Item) : Turn :=
  (Client.stumbling.perform (Client.stumbling.playOut (Client.stumbling.playOut
    (.fresh default (.root 0) ⟨1⟩ 1 true) ([items].map .register)) [.start, .stop]) .start).1

theorem Client.start_restores_samples :
    (Turn.stumbles Item.samples).map (·.result.isOk) = [false, true] ∧
      (∀ call ∈ (Turn.restart Item.samples).calls, call.Faultless) ∧
      Restored (Container.seeds (.root 0) ⟨1⟩ ++ [Item.samples].flatten)
        (Turn.stumbles Item.samples) (Turn.restart Item.samples) := by
  have hw : Wired (Container.seeds (.root 0) ⟨1⟩ ++ [Item.samples].flatten) := by decide +kernel
  have hsuccess : ∀ call ∈ (Turn.restart Item.samples).calls, call.isFailure = false := by
    decide +kernel
  have hfaultless : ∀ call ∈ (Turn.restart Item.samples).calls, call.Faultless :=
    fun call hmem => Call.faultless_of_success (hsuccess call hmem)
  have hsingle : ∀ c, .constructor c ∈ Container.seeds (.root 0) ⟨1⟩ ++ [Item.samples].flatten →
      c.callable.outputs.length ≤ 1 := by
    simp [Container.seeds, Item.samples]
  refine ⟨by decide +kernel, hfaultless, ?_⟩
  exact (Client.start_restores_iff .stumbling default (.root 0) ⟨1⟩ 1 true [Item.samples]
    [.start, .stop] hw (by simp) (.inr rfl) hfaultless).2 fun turn _ =>
      turn.not_loses_of_single hsingle

/-- One constructor with two outputs. -/
def Item.twins : List Item :=
  [.constructor ⟨0, ⟨[], [.ofName "app::A", .ofName "app::B"], 0⟩⟩]

/-- The second output is lost for good, because the start hook of the first one failed once. -/
theorem Client.start_not_restores_twins :
    Wired (Container.seeds (.root 0) ⟨1⟩ ++ [Item.twins].flatten) ∧
      (Turn.stumbles Item.twins).map (·.result.isOk) = [false, true] ∧
      (∀ call ∈ (Turn.restart Item.twins).calls, call.Faultless) ∧
      (⟨"app.B"⟩, .ofName "app::B") ∈ Item.twins.flatMap Item.provisions ∧
      (Turn.restart Item.twins).after.storage.component? ⟨"app.B"⟩ = none := by
  have hsuccess : ∀ call ∈ (Turn.restart Item.twins).calls, call.isFailure = false := by
    decide +kernel
  refine ⟨by decide +kernel, by decide +kernel, fun call hmem => ?_, by decide +kernel,
    by decide +kernel⟩
  exact Call.faultless_of_success (hsuccess call hmem)

end Wiring
