import Wiring.Proofs.Precedence
import Wiring.Proofs.Settled

/-!
# Colliding outputs

An output whose slot is occupied is refused, and so is the start. But the constructor counts as run
from before its outputs are absorbed, so that no later start calls it again: the collision is noticed
once. A constructor that has run either provided the slots of all its outputs, or in the start that
ran it one of them was refused or could not be started (`Provided`). So a start whose constructors
collide, with one another or with a plain value, succeeds only after an earlier start has failed at an
output of theirs (`Client.collisions_refused`).
-/

namespace Wiring

/-- An error at an output of a constructor: its slot is occupied, or its start hook has failed. -/
inductive Constructor.FailsAt (c : Constructor) : Error → Prop
  | refused : t ∈ c.callable.outputs → t.slot? = some a → FailsAt c (.alreadyInitiated a)
  | fault (f : Fault) : t ∈ c.callable.outputs → t.slot? = some a →
      FailsAt c (.serviceStart a.text f)

/-- A start that ran a constructor and then failed at one of its outputs. -/
structure Turn.Spoils (turn : Turn) (c : Constructor) : Prop where
  operation : turn.operation = .start
  run : ∃ args, .construct c args (.ok ()) ∈ turn.calls
  fails : ∃ err, turn.result = .error err ∧ c.FailsAt err

/-- The constructors that have run provided the slots of all their outputs in some turns, except those
that were spoiled in one of them. -/
def Provided (turns : List Turn) (s : Storage) : Prop :=
  ∀ ⦃c⦄, s.Ran c → (∃ turn ∈ turns, turn.Spoils c) ∨
    ∀ t ∈ c.callable.outputs, ∀ a, t.slot? = some a → provider? turns a = some (.constructor c)

variable {s₀ : Storage} {s s' : Scene} {r : Except Error Unit} {err : Error} {a : Address}
  {e : Entry} {c : Constructor} {t : ComponentType} {order : List Address}

/-! ## Constructors in storages -/

/-- A constructor is stored, whether it has run or not. -/
def Storage.Lists (s : Storage) (c : Constructor) : Prop :=
  ∃ e, s.get? c.address = some e ∧ e.payload = .constructor c

namespace Storage

variable {s s' : Storage}

theorem ran_iff (hs : s.Sound) : s.Ran c ↔
    ∃ e, s.get? c.address = some e ∧ e.payload = .constructor c ∧ e.isResolved = true := by
  refine ⟨fun ⟨n, hget⟩ => ⟨_, hget, rfl, rfl⟩, ?_⟩
  rintro ⟨e, hget, hpayload, hres⟩
  cases hs.fits hget with
  | value => cases hpayload
  | constructor c' relation n =>
    cases hpayload
    obtain rfl : relation = .resolvedValue := by simpa [Entry.isResolved] using hres
    exact ⟨n, hget⟩
  | template => cases hpayload

/-- Registration runs no constructor. -/
theorem ran_of_add {item : Item} (hs : s.Sound) (hadd : s.add item = .ok s') (hran : s'.Ran c) :
    s.Ran c := by
  obtain ⟨e, hget, hpayload, hres⟩ := (ran_iff (hs.add hadd)).1 hran
  have hput : ∀ {e' : Entry}, s' = s.put e' → e' ≠ e → s.Ran c := by
    rintro e' rfl hne
    rw [get?_put] at hget
    split at hget
    · exact absurd (Option.some.inj hget) hne
    · exact (ran_iff hs).2 ⟨e, hget, hpayload, hres⟩
  have hprovider : ∀ {a payload}, Entry.provider a payload ≠ e := by
    rintro a payload rfl
    cases hres
  cases item with
  | value component =>
    cases hadd
    cases hslot : component.type.slot? with
    | none => rwa [insertValue_of_unaddressable hslot] at hran
    | some a =>
      rcases insertValue_cases s hslot with ⟨_, heq⟩ | ⟨_, heq⟩
      · refine hput heq ?_
        rintro rfl
        cases hpayload
      · rw [heq] at hget
        have hget? := Table.get?_update s.table a Entry.shadow c.address
        rw [show (s.table.update a Entry.shadow).get? c.address = some e from hget] at hget?
        split at hget?
        · obtain ⟨e', hget', rfl⟩ := Option.map_eq_some_iff.1 hget?.symm
          exact (ran_iff hs).2 ⟨e', hget', hpayload, hres⟩
        · exact (ran_iff hs).2 ⟨e, hget?.symm, hpayload, hres⟩
  | constructor c' =>
    rcases insert_cases s (.provider c'.address (.constructor c')) with ⟨_, heq⟩ | ⟨_, heq⟩
    · cases heq.symm.trans hadd
      exact hput rfl hprovider
    · cases heq.symm.trans hadd
  | template k =>
    simp only [Storage.add] at hadd
    split at hadd
    · cases hadd
      exact hran
    · next a _ =>
      rcases insert_cases s (.provider a (.template k)) with ⟨_, heq⟩ | ⟨_, heq⟩
      · cases heq.symm.trans hadd
        exact hput rfl hprovider
      · cases heq.symm.trans hadd

theorem ran_of_addAll (items : List Item) (hs : s.Sound) (hran : (s.addAll items).2.Ran c) :
    s.Ran c := by
  have hadded := addAll_induction (p := fun s' => s'.Sound ∧ (s'.Ran c → s.Ran c))
    (fun h hadd => ⟨h.1.add hadd, fun hran => h.2 (ran_of_add h.1 hadd hran)⟩) items ⟨hs, id⟩
  exact hadded.2 hran

end Storage

/-- A constructor that has run did so before the walk or in one of its calls. -/
theorem Progress.ran_before_or_called (h : Progress s₀ s) (hs : s₀.Sound) (hran : s.storage.Ran c) :
    s₀.Ran c ∨ ∃ args, .construct c args (.ok ()) ∈ s.calls := by
  obtain ⟨n, hget⟩ := hran
  generalize he : ({ Entry.ran c with shadowed := n } : Entry) = e at hget
  have hpayload : e.payload = .constructor c := he ▸ rfl
  have hres : e.isResolved = true := he ▸ rfl
  clear he
  cases h.comes hget with
  | kept hget₀ => exact .inl ((Storage.ran_iff hs).2 ⟨_, hget₀, hpayload, hres⟩)
  | ran _ _ hrun =>
    cases hpayload
    exact .inr ⟨_, hrun⟩
  | stored => cases hpayload

/-- A constructor is run by starts only. -/
theorem Step.ran_cases {st st' : Status} {op : Operation} {made : List Call}
    {result : Except Error (Option Object)} (h : Step st op made result st') (ho : st.InOrder)
    (hran : st'.storage.Ran c) :
    st.storage.Ran c ∨ op = .start ∧ ∃ args, .construct c args (.ok ()) ∈ made := by
  have hwalk : ∀ {order r after}, st.on = false → SettlesAll order st.scene r after →
      after.storage.Ran c → st.storage.Ran c ∨
        ∃ args, .construct c args (.ok ()) ∈ after.calls := fun hoff hwalk =>
    (hwalk.progress (.start ho.sound (ho.resting_of_off hoff))).ran_before_or_called ho.sound
  cases h with
  | @registered items _ storage _ hadd =>
    refine .inl (Storage.ran_of_addAll items ho.sound ?_)
    rw [hadd]
    exact hran
  | startFailed _ hoff _ hsettles => exact (hwalk hoff hsettles hran).imp_right fun h => ⟨rfl, h⟩
  | started _ hoff _ hsettles => exact (hwalk hoff hsettles hran).imp_right fun h => ⟨rfl, h⟩
  | uncalled _ _ hcalls =>
    rw [Status.gained, hcalls.storage_eq] at hran
    exact .inl hran
  | invoked _ _ hcalls hstarts =>
    rw [Status.gained, hstarts.storage_eq, hcalls.storage_eq] at hran
    exact .inl hran
  | stopped =>
    obtain ⟨e, hget, hpayload, hres⟩ := (Storage.ran_iff ho.sound.resetRunning).1 hran
    rw [Storage.get?_resetRunning] at hget
    obtain ⟨e', hget', rfl⟩ := Option.map_eq_some_iff.1 hget
    have hrested : e'.rested.payload = e'.payload ∧ e'.rested.isResolved = e'.isResolved := by
      unfold Entry.rested
      split <;> exact ⟨rfl, rfl⟩
    exact .inl ((Storage.ran_iff ho.sound).2
      ⟨e', hget', hrested.1 ▸ hpayload, hrested.2 ▸ hres⟩)
  | _ => exact .inl hran

/-! ## Outputs -/

/-- If all components are absorbed, their slots were free. -/
theorem AbsorbsAll.free_before {cs : List Component} {component : Component}
    (h : AbsorbsAll cs s (.ok ()) s') (hmem : component ∈ cs) (hslot : component.type.slot? = some a) :
    s.storage.Free a := by
  generalize hr : Except.ok () = r at h
  induction h with
  | nil => cases hmem
  | cons habsorbs _ ih =>
    rcases List.mem_cons.1 hmem with rfl | hmem
    · cases habsorbs with
      | untracked hnone => cases hslot.symm.trans hnone
      | stored hslot' hfree =>
        obtain rfl := Option.some.inj (hslot.symm.trans hslot')
        exact hfree
      | started hslot' hfree =>
        obtain rfl := Option.some.inj (hslot.symm.trans hslot')
        exact hfree
    · exact habsorbs.free (ih hmem hr)
  | fail => cases hr

/-- The outputs of a constructor are absorbed, up to one that fails. -/
theorem AbsorbsAll.failsAt {products : List Product}
    (h : AbsorbsAll (c.components products) s (.error err) s')
    (hlength : products.length = c.callable.outputs.length) : c.FailsAt err := by
  obtain ⟨before, component, after, s₁, hsplit, _, habsorbs⟩ := h.exists_of_error
  have hmem : component ∈ c.components products := by
    rw [hsplit]
    exact List.mem_append_right _ List.mem_cons_self
  have houtput := Constructor.type_mem_outputs hlength hmem
  cases habsorbs with
  | refused hslot => exact .refused houtput hslot
  | started hslot _ _ hstarts =>
    cases hstarts with
    | fault f => exact .fault f houtput hslot

/-- A walk that runs a constructor provides the slots of all its outputs from it, or it fails at one
of them. -/
theorem SettlesAll.provides {args : List Object} (h : SettlesAll order ⟨s₀, []⟩ r s')
    (hs : s₀.Sound) (hrest : s₀.Resting) (hrun : .construct c args (.ok ()) ∈ s'.calls) :
    (∃ err, r = .error err ∧ c.FailsAt err) ∨
      ∀ t ∈ c.callable.outputs, ∀ a, t.slot? = some a →
        Scene.provider? s₀ s' a = some (.constructor c) := by
  obtain ⟨before, after, hcalls, hfirst⟩ := List.eq_append_cons_of_mem hrun
  obtain ⟨passed, x, rest, e, s₁, r₁, s₂, _, hp, hget, hsettles, hkeeps, hmade, hearlier, hnow, hend⟩ :=
    h.exists_step (.start hs hrest) hcalls List.nil_prefix
  have hnew : .construct c args (.ok ()) ∉ s₁.calls := fun hmem => hfirst (hearlier.subset hmem)
  have hmem : .construct c args (.ok ()) ∈ s₂.calls :=
    hnow.subset (List.mem_append_right _ (List.mem_singleton.2 rfl))
  obtain ⟨hasks, _⟩ := (hsettles.asks hp.progress.sound hget hmem).resolve_left hnew
  obtain rfl : e = .provider x (.constructor c) := by
    cases hasks with
    | construct he => exact he
  rcases hsettles.absorbs with ⟨_, _, _, hall⟩ | ⟨args', products, hlength, habsorbs⟩
  · obtain ⟨_, _, heq⟩ := (hall _ hmem).resolve_left hnew
    cases heq
  · cases r₁ with
    | error err =>
      obtain ⟨rfl, _⟩ := hend.resolve_left fun h => nomatch h
      exact .inl ⟨err, rfl, habsorbs.failsAt hlength⟩
    | ok _ =>
      refine .inr fun t ht a hslot => ?_
      obtain ⟨component, hcomponent, rfl⟩ := Constructor.exists_component hlength ht
      have hfree := Storage.free_of_markResolved (habsorbs.free_before hcomponent hslot)
      have hheld := hkeeps.held (hsettles.outputs ht hslot)
      obtain ⟨new, hnew, _⟩ := habsorbs.grows
      obtain ⟨later, hlater⟩ := hmade
      have hgiver : (Call.construct c args' (.ok ())).giver? a = some (.constructor c) :=
        Call.giver?_eq_some.2 ⟨rfl, _, Item.provides_output ht hslot⟩
      rw [hnew, List.append_assoc, List.append_assoc, List.cons_append] at hlater
      exact hp.provider?_of_free hgiver hlater.symm hfree hheld

/-- A start that runs a constructor provides the slots of all its outputs from it, or it fails at one
of them. -/
theorem Step.provides {st st' : Status} {made : List Call} {result : Except Error (Option Object)}
    {args : List Object} (h : Step st .start made result st') (ho : st.InOrder)
    (hrun : .construct c args (.ok ()) ∈ made) :
    (∃ err, result = .error err ∧ c.FailsAt err) ∨
      ∀ t ∈ c.callable.outputs, ∀ a, t.slot? = some a →
        Scene.provider? st.storage ⟨st'.storage, made⟩ a = some (.constructor c) := by
  cases h with
  | startFailed _ hoff _ hwalk =>
    refine (hwalk.provides ho.sound (ho.resting_of_off hoff) hrun).imp_left ?_
    rintro ⟨err, heq, hfails⟩
    cases heq
    exact ⟨_, rfl, hfails⟩
  | started _ hoff _ hwalk =>
    refine (hwalk.provides ho.sound (ho.resting_of_off hoff) hrun).imp_left ?_
    rintro ⟨err, heq, _⟩
    cases heq
  | _ => cases hrun

/-! ## Runs -/

namespace Provided

variable {turns : List Turn}

/-- One more turn. -/
theorem step {turn : Turn} (h : Provided turns turn.before.storage)
    (htraced : Traced turns turn.before.storage)
    (hstep : Step turn.before.status turn.operation turn.calls turn.result turn.after.status)
    (ho : turn.before.InOrder) : Provided (turns ++ [turn]) turn.after.storage := by
  intro c hran
  rcases hstep.ran_cases ho.status hran with hran | ⟨hstart, args, hrun⟩
  · refine (h hran).imp ?_ fun hall t ht a hslot => ?_
    · rintro ⟨earlier, hmem, hspoils⟩
      exact ⟨earlier, List.mem_append_left _ hmem, hspoils⟩
    · rw [provider?_concat, hall t ht a hslot, Option.some_or]
  · have hnow : Step turn.before.status .start turn.calls turn.result turn.after.status :=
      hstart ▸ hstep
    refine (hnow.provides ho.status hrun).imp (fun hfails => ?_) fun hall t ht a hslot => ?_
    · exact ⟨turn, List.mem_append_right _ (List.mem_singleton.2 rfl), hstart, ⟨args, hrun⟩, hfails⟩
    · have hprovider : turn.provider? a = some (.constructor c) := hall t ht a hslot
      have hnone : provider? turns a = none := by
        refine Option.eq_none_iff_forall_ne_some.2 fun item hitem => ?_
        exact (Scene.provider?_eq_some.1 hprovider).1 (htraced hitem).held
      rw [provider?_concat, hnone, Option.none_or, hprovider]

/-- A run of a new container. -/
theorem run {σ : Type} {client : Client σ} {w : World σ} {ops : List Operation}
    (ho : w.container.InOrder) (hnone : ∀ c, ¬ w.container.storage.Ran c) :
    Provided (client.play w ops) (client.playOut w ops).container.storage := by
  have hstart : Traced [] w.container.storage ∧ Provided [] w.container.storage :=
    ⟨.nil _, fun c hran => absurd hran (hnone c)⟩
  refine (Client.play_induction
    (p := fun turns c => Traced turns c.storage ∧ Provided turns c.storage)
    (fun op _ turns w ho h => ?_) hstart ho).2
  obtain ⟨hstep, _, _⟩ := client.perform_step op ho
  exact ⟨h.1.step hstep ho, h.2.step h.1 hstep ho⟩

end Provided

/-- In a new container no constructor has run. -/
theorem Container.not_ran_new (config : ContainerConfig) (context : Context) (token : Token)
    (c : Constructor) : ¬ (Container.new config context token).storage.Ran c := by
  intro hran
  have hseeds := Container.storage_new config context token
  have hadded : (Storage.empty.addAll (Container.seeds context token)).2.Ran c := by rwa [hseeds]
  obtain ⟨_, hget⟩ := Storage.ran_of_addAll _ Storage.Sound.empty hadded
  cases hget

/-- Whatever was done to a new container, let a start succeed and leave a constructor with an output
for some slot. If another constructor declares that slot, one of the two was spoiled in an earlier
start, and if the slot held a component that no provider gave, the first one was. -/
theorem Client.collisions_refused {σ : Type} (client : Client σ) (config : ContainerConfig)
    (context : Context) (token : Token) (nextIdentity : Identity) (host : σ)
    (ops : List Operation) :
    let w₀ := World.fresh config context token nextIdentity host
    let past := client.play w₀ ops
    let turn := (client.perform (client.playOut w₀ ops) .start).1
    turn.result = .ok none → ∀ c t a, turn.after.storage.Lists c → t ∈ c.callable.outputs →
      t.slot? = some a →
        (∀ c' t', turn.after.storage.Lists c' → t' ∈ c'.callable.outputs → t'.slot? = some a →
          c ≠ c' → ∃ earlier ∈ past, earlier.Spoils c ∨ earlier.Spoils c') ∧
        (turn.before.storage.Held a → provider? past a = none →
          ∃ earlier ∈ past, earlier.Spoils c) := by
  intro w₀ past turn hresult c t a hlists ht hslot
  have hnew : w₀.container.InOrder := Container.new_inOrder config context token
  have ho : (client.playOut w₀ ops).container.InOrder := Client.playOut_inOrder hnew ops
  obtain ⟨hstep, _, _⟩ := client.perform_step .start ho
  have hstep : Step turn.before.status .start turn.calls turn.result turn.after.status := hstep
  have htraced : Traced past turn.before.storage := Traced.run (Traced.nil w₀.container.storage) hnew
  have hprovided : Provided (past ++ [turn]) turn.after.storage :=
    (Provided.run hnew (Container.not_ran_new config context token)).step htraced hstep ho
  -- A start with success leaves every constructor run, and spoils none.
  have hstep : Step turn.before.status .start turn.calls (.ok none) turn.after.status :=
    hresult ▸ hstep
  have hsettled := hstep.settled ho.status
  have hsound : turn.after.storage.Sound := (hstep.inOrder ho.status).sound
  have hcases : ∀ {c}, turn.after.storage.Lists c → (∃ earlier ∈ past, earlier.Spoils c) ∨
      ∀ t ∈ c.callable.outputs, ∀ a, t.slot? = some a →
        provider? (past ++ [turn]) a = some (.constructor c) := by
    rintro c ⟨e, hget, hpayload⟩
    have hmem := hsound.mem_entries.2 ((hsound.fits hget).address_eq.symm ▸ hget)
    have hran := (Storage.ran_iff hsound).2 ⟨e, hget, hpayload, hsettled.resolved e hmem⟩
    refine (hprovided hran).imp_left ?_
    rintro ⟨earlier, hmem, hspoils⟩
    rcases List.mem_append.1 hmem with hmem | hmem
    · exact ⟨earlier, hmem, hspoils⟩
    · obtain rfl := List.mem_singleton.1 hmem
      obtain ⟨err, herr, _⟩ := hspoils.fails
      cases hresult.symm.trans herr
  refine ⟨fun c' t' hlists' ht' hslot' hne => ?_, fun hheld hnone => ?_⟩
  · rcases hcases hlists with ⟨earlier, hmem, hspoils⟩ | hall
    · exact ⟨earlier, hmem, .inl hspoils⟩
    rcases hcases hlists' with ⟨earlier, hmem, hspoils⟩ | hall'
    · exact ⟨earlier, hmem, .inr hspoils⟩
    have hsame := (hall t ht a hslot).symm.trans (hall' t' ht' a hslot')
    cases hsame
    exact absurd rfl hne
  · refine (hcases hlists).resolve_right fun hall => ?_
    have hprovider := hall t ht a hslot
    rw [provider?_concat, hnone, Option.none_or, Turn.provider?,
      Scene.provider?_of_held hheld] at hprovider
    cases hprovider

/-- Two constructors of the same service. -/
def Item.rivals : List Item :=
  let job := ComponentType.ofName "app::Job"
  [.constructor ⟨0, ⟨[], [job], 0⟩⟩, .constructor ⟨1, ⟨[], [job], 1⟩⟩]

/-- The second start of the rivals succeeds, since the first start has failed over the second one. -/
theorem Client.collisions_refused_rivals :
    (Turn.secondStart Item.rivals).result = .ok none ∧
      (Turn.secondStart Item.rivals).after.storage.Lists ⟨0, ⟨[], [.ofName "app::Job"], 0⟩⟩ ∧
      (Turn.secondStart Item.rivals).after.storage.Lists ⟨1, ⟨[], [.ofName "app::Job"], 1⟩⟩ ∧
      ∃ earlier ∈ Turn.firstRun Item.rivals,
        earlier.Spoils ⟨0, ⟨[], [.ofName "app::Job"], 0⟩⟩ ∨
          earlier.Spoils ⟨1, ⟨[], [.ofName "app::Job"], 1⟩⟩ := by
  let job := ComponentType.ofName "app::Job"
  have hresult : (Turn.secondStart Item.rivals).result = .ok none :=
    eq_ok_of_toOption (by decide +kernel)
  have hlists : ∀ c : Constructor, ((Turn.secondStart Item.rivals).after.storage.get?
      c.address).map Entry.payload = some (.constructor c) →
        (Turn.secondStart Item.rivals).after.storage.Lists c := fun c => Option.map_eq_some_iff.1
  have hlists₀ := hlists ⟨0, ⟨[], [job], 0⟩⟩ (by decide +kernel)
  have hlists₁ := hlists ⟨1, ⟨[], [job], 1⟩⟩ (by decide +kernel)
  have hrefused := Client.collisions_refused .serving default (.root 0) ⟨1⟩ 1 ()
    [.register Item.rivals, .start, .stop] hresult _ job ⟨"app.Job"⟩ hlists₀ List.mem_cons_self
    (by decide +kernel)
  exact ⟨hresult, hlists₀, hlists₁, hrefused.1 _ job hlists₁ List.mem_cons_self (by decide +kernel)
    (by decide)⟩

/-- A value, and a constructor of the same slot. -/
def Item.clashing : List Item :=
  let job := ComponentType.ofName "app::Job"
  [.value ⟨job, .made 0, none⟩, .constructor ⟨0, ⟨[], [job], 0⟩⟩]

/-- The second start forgets the collision. -/
theorem Client.collisions_not_refused_clashing :
    ((Turn.secondStart Item.clashing).before.storage.get?
        (Constructor.mk 0 ⟨[], [.ofName "app::Job"], 0⟩).address).map Entry.payload =
        some (.constructor ⟨0, ⟨[], [.ofName "app::Job"], 0⟩⟩) ∧
      (ComponentType.ofName "app::Job").slot? = some ⟨"app.Job"⟩ ∧
      (Turn.secondStart Item.clashing).before.storage.component? ⟨"app.Job"⟩ =
        some ⟨.ofName "app::Job", .made 0, none⟩ ∧
      provider? (Turn.firstRun Item.clashing) ⟨"app.Job"⟩ = none ∧
      (Turn.secondStart Item.clashing).result.toOption = some none := by
  decide +kernel

end Wiring
