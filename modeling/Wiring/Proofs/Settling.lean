import Wiring.Proofs.Recording
import Wiring.Proofs.Slots

/-!
# What a resolution can do

The relations of this module say once what each step of a resolution can do to the storage and which
calls it makes, for every answer of the program: `Starts` for a service in its slot, `Absorbs` for a
produced component, `Settles` for an entry and `SettlesAll` for a walk along addresses. In a sound
storage a step that makes calls does so in one of five ways (`Settles.works`). Each action obeys its
relation (`settles_of_outcome`, `settlesAll_of_outcome`), and meanwhile the history gains
exactly the records of the start hooks called (`World.Tracks`).
-/

namespace Wiring

/-- What a resolution works on: the storage, and the calls made so far. -/
structure Scene where
  storage : Storage
  calls : List Call

/-- The calls that hand over the outputs of a constructor from a position on. -/
def suppliesFrom (c : Constructor) : Nat → List Product → List Call
  | _, [] => []
  | position, product :: rest => .supply c position product :: suppliesFrom c (position + 1) rest

theorem mem_suppliesFrom {c : Constructor} {position : Nat} {products : List Product} {call : Call} :
    call ∈ suppliesFrom c position products ↔
      ∃ i product, products[i]? = some product ∧ call = .supply c (position + i) product := by
  induction products generalizing position with
  | nil => simp [suppliesFrom]
  | cons product products ih =>
    rw [suppliesFrom, List.mem_cons, ih]
    constructor
    · rintro (rfl | ⟨i, product', hget, rfl⟩)
      · exact ⟨0, product, rfl, rfl⟩
      · exact ⟨i + 1, product', hget, by rw [Nat.add_right_comm, Nat.add_assoc]⟩
    · rintro ⟨i, product', hget, rfl⟩
      cases i with
      | zero =>
        cases hget
        exact .inl rfl
      | succ i => exact .inr ⟨i, product', hget, by rw [Nat.add_right_comm, Nat.add_assoc]⟩

/-- The components that the outputs of a constructor are. -/
def Constructor.components (c : Constructor) (products : List Product) : List Component :=
  List.zipWith Component.ofProduct c.callable.outputs products

/-! ## Relations -/

/-- The start of the service in a slot: the result and the scene after it. -/
inductive Starts (a : Address) (service : Service) (s : Scene) : Except Error Unit → Scene → Prop
  | up : Starts a service s (.ok ())
      ⟨s.storage.setService a .runningUp, s.calls ++ [.up a.text service (.ok ())]⟩
  | fault (f : Fault) : Starts a service s (.error (.serviceStart a.text f))
      ⟨s.storage, s.calls ++ [.up a.text service (.error f)]⟩

/-- The absorption of a produced component: it is dropped, refused, or stored and then started if it
is a service. -/
inductive Absorbs (c : Component) (s : Scene) : Except Error Unit → Scene → Prop
  | untracked : c.type.slot? = none → Absorbs c s (.ok ()) s
  | refused : c.type.slot? = some a → ¬ s.storage.Free a →
      Absorbs c s (.error (.alreadyInitiated a)) s
  | stored : c.type.slot? = some a → s.storage.Free a → c.service? = none →
      Absorbs c s (.ok ()) ⟨s.storage.put (.resolved a c), s.calls⟩
  | started : c.type.slot? = some a → s.storage.Free a → c.service? = some service →
      Starts a service ⟨s.storage.put (.resolved a c), s.calls⟩ r s' → Absorbs c s r s'

/-- The absorption of several components, up to the first that fails. -/
inductive AbsorbsAll : List Component → Scene → Except Error Unit → Scene → Prop
  | nil : AbsorbsAll [] s (.ok ()) s
  | cons : Absorbs c s (.ok ()) s₁ → AbsorbsAll cs s₁ r s' → AbsorbsAll (c :: cs) s r s'
  | fail : Absorbs c s (.error e) s' → AbsorbsAll (c :: cs) s (.error e) s'

/-- The call of a constructor with arguments from the storage. -/
inductive Calls (c : Constructor) (s : Scene) : Except Error (List Component) → Scene → Prop
  | unsupplied : s.storage.arguments c.callable.params = .error err → Calls c s (.error err) s
  | failed (f : Fault) : s.storage.arguments c.callable.params = .ok args →
      Calls c s (.error (.constructorFailed c.address f))
        ⟨s.storage, s.calls ++ [.construct c args (.error f)]⟩
  | supplied (products : List Product) : s.storage.arguments c.callable.params = .ok args →
      products.length = c.callable.outputs.length →
      Calls c s (.ok (c.components products))
        ⟨s.storage, s.calls ++ .construct c args (.ok ()) :: suppliesFrom c 0 products⟩

/-- The assembly of a template from the values of its fields. -/
inductive Assembles (a : Address) (t : Template) (s : Scene) :
    Except Error Component → Scene → Prop
  | unfilled : s.storage.fillFields t.fields (.empty a) = .error err →
      Assembles a t s (.error err) s
  | failed (err : Error) : s.storage.fillFields t.fields (.empty a) = .ok values →
      Assembles a t s (.error (Container.assemblyError a err))
        ⟨s.storage, s.calls ++ [.assemble t values (.error err)]⟩
  | assembled (product : Product) : s.storage.fillFields t.fields (.empty a) = .ok values →
      Assembles a t s (.ok (.ofProduct t.type product))
        ⟨s.storage, s.calls ++ [.assemble t values (.ok product)]⟩

/-- The settling of an entry, by what it holds and what the program answers. -/
inductive Settles (e : Entry) (s : Scene) : Except Error Unit → Scene → Prop
  | shadowed : e.shadowed ≠ 0 → Settles e s (.error (.alreadyInitiated e.address)) s
  | rested : e.shadowed = 0 → e.isResolved = true → e.service ≠ .pendingUp →
      Settles e s (.ok ()) s
  | waited : e.shadowed = 0 → e.isResolved = true → e.service = .pendingUp →
      e.service? = some service → Starts e.address service s r s' → Settles e s r s'
  | shapeless : e.shadowed = 0 → e.isResolved = true → e.service = .pendingUp →
      e.service? = none → Settles e s (.error (.unknownServiceShape e.address.text)) s
  | uncalled : e.shadowed = 0 → e.isResolved = false → e.payload = .constructor c →
      Calls c s (.error err) s' → Settles e s (.error err) s'
  | called : e.shadowed = 0 → e.isResolved = false → e.payload = .constructor c →
      Calls c s (.ok components) s₁ →
      AbsorbsAll components ⟨s₁.storage.markResolved e.address, s₁.calls⟩ r s' → Settles e s r s'
  | unassembled : e.shadowed = 0 → e.isResolved = false → e.payload = .template t →
      Assembles e.address t s (.error err) s' → Settles e s (.error err) s'
  | assembled : e.shadowed = 0 → e.isResolved = false → e.payload = .template t →
      Assembles e.address t s (.ok component) s₁ → Absorbs component s₁ r s' → Settles e s r s'
  | idle : e.shadowed = 0 → e.isResolved = false → e.payload = .value c →
      Settles e s (.ok ()) s

/-- How a step comes to make calls, by the entry in the slot. -/
inductive Works (a : Address) (s : Scene) : Entry → Except Error Unit → Scene → Prop
  | waited : e.isResolved = true → e.service = .pendingUp → e.service? = some service →
      Starts a service s r s' → Works a s e r s'
  | refused (f : Fault) :
      Works a s (.provider a (.constructor c)) (.error (.constructorFailed c.address f))
        ⟨s.storage, s.calls ++ [.construct c args (.error f)]⟩
  | ran (products : List Product) : c.address = a →
      s.storage.arguments c.callable.params = .ok args →
      products.length = c.callable.outputs.length →
      AbsorbsAll (c.components products) ⟨s.storage.markResolved a,
        s.calls ++ .construct c args (.ok ()) :: suppliesFrom c 0 products⟩ r s' →
      Works a s (.provider a (.constructor c)) r s'
  | unmade (err : Error) :
      Works a s (.provider a (.template t)) (.error (Container.assemblyError a err))
        ⟨s.storage, s.calls ++ [.assemble t values (.error err)]⟩
  | made (product : Product) : t.type.slot? = some a →
      s.storage.fillFields t.fields (.empty a) = .ok values →
      Absorbs (.ofProduct t.type product)
        ⟨s.storage, s.calls ++ [.assemble t values (.ok product)]⟩ r s' →
      Works a s (.provider a (.template t)) r s'

/-- A walk along addresses, up to the first entry that cannot be settled. -/
inductive SettlesAll : List Address → Scene → Except Error Unit → Scene → Prop
  | nil : SettlesAll [] s (.ok ()) s
  | skip : s.storage.get? a = none → SettlesAll rest s r s' → SettlesAll (a :: rest) s r s'
  | step : s.storage.get? a = some e → Settles e s (.ok ()) s₁ → SettlesAll rest s₁ r s' →
      SettlesAll (a :: rest) s r s'
  | fail : s.storage.get? a = some e → Settles e s (.error err) s' →
      SettlesAll (a :: rest) s (.error err) s'

/-! ## Calls only accumulate -/

/-- From `s` to `s'` calls were made, none of them of a stop hook. -/
def Scene.Grows (s s' : Scene) : Prop :=
  ∃ new, s'.calls = s.calls ++ new ∧ ∀ service result, Call.down service result ∉ new

namespace Scene.Grows

theorem of_append {s s' : Scene} (new : List Call) (h : s'.calls = s.calls ++ new)
    (hdown : ∀ service result, Call.down service result ∉ new) : s.Grows s' := ⟨new, h, hdown⟩

theorem of_eq {s s' : Scene} (h : s'.calls = s.calls) : s.Grows s' := ⟨[], by simp [h]⟩

theorem trans {s₁ s₂ s₃ : Scene} (h₁ : s₁.Grows s₂) (h₂ : s₂.Grows s₃) : s₁.Grows s₃ := by
  obtain ⟨new₁, hc₁, hd₁⟩ := h₁
  obtain ⟨new₂, hc₂, hd₂⟩ := h₂
  refine ⟨new₁ ++ new₂, by rw [hc₂, hc₁, List.append_assoc], fun service result hmem => ?_⟩
  rcases List.mem_append.1 hmem with h | h
  · exact hd₁ service result h
  · exact hd₂ service result h

end Scene.Grows

theorem Starts.grows (h : Starts a service s r s') : s.Grows s' := by
  cases h with
  | up => exact .of_append [.up a.text service (.ok ())] rfl (by simp)
  | fault f => exact .of_append [.up a.text service (.error f)] rfl (by simp)

theorem Absorbs.grows (h : Absorbs c s r s') : s.Grows s' := by
  cases h with
  | untracked => exact .of_eq rfl
  | refused => exact .of_eq rfl
  | stored => exact .of_eq rfl
  | started _ _ _ hstarts => exact hstarts.grows

theorem AbsorbsAll.grows (h : AbsorbsAll cs s r s') : s.Grows s' := by
  induction h with
  | nil => exact .of_eq rfl
  | cons habsorbs _ ih => exact habsorbs.grows.trans ih
  | fail habsorbs => exact habsorbs.grows

theorem Calls.grows (h : Calls c s r s') : s.Grows s' := by
  cases h with
  | unsupplied => exact .of_eq rfl
  | @failed args f hargs => exact .of_append [.construct c args (.error f)] rfl (by simp)
  | @supplied args products hargs =>
    refine .of_append (.construct c args (.ok ()) :: suppliesFrom c 0 products) rfl ?_
    intro service result hmem
    rcases List.mem_cons.1 hmem with h | h
    · cases h
    · obtain ⟨i, product, _, h⟩ := mem_suppliesFrom.1 h
      cases h

theorem Assembles.grows (h : Assembles a t s r s') : s.Grows s' := by
  cases h with
  | unfilled => exact .of_eq rfl
  | @failed values err => exact .of_append [.assemble t values (.error err)] rfl (by simp)
  | @assembled values product => exact .of_append [.assemble t values (.ok product)] rfl (by simp)

theorem Settles.grows (h : Settles e s r s') : s.Grows s' := by
  cases h with
  | shadowed => exact .of_eq rfl
  | rested => exact .of_eq rfl
  | waited _ _ _ _ hstarts => exact hstarts.grows
  | shapeless => exact .of_eq rfl
  | uncalled _ _ _ hcalls => exact hcalls.grows
  | called _ _ _ hcalls habsorbs => exact hcalls.grows.trans habsorbs.grows
  | unassembled _ _ _ hassembles => exact hassembles.grows
  | assembled _ _ _ hassembles habsorbs => exact hassembles.grows.trans habsorbs.grows
  | idle => exact .of_eq rfl

/-- A walk calls no stop hook. -/
theorem SettlesAll.grows (h : SettlesAll order s r s') : s.Grows s' := by
  induction h with
  | nil => exact .of_eq rfl
  | skip _ _ ih => exact ih
  | step _ hsettles _ ih => exact hsettles.grows.trans ih
  | fail _ hsettles => exact hsettles.grows

/-! ## Sound storages stay sound -/

/-- Calling a constructor stores nothing. -/
theorem Calls.storage_eq (h : Calls c s r s') : s'.storage = s.storage := by
  cases h <;> rfl

/-- Assembling a template stores nothing. -/
theorem Assembles.storage_eq (h : Assembles a t s r s') : s'.storage = s.storage := by
  cases h <;> rfl

theorem Starts.sound (h : Starts a service s r s') (hs : s.storage.Sound)
    (hget : s.storage.get? a = some e) (hservice : e.service? ≠ none) : s'.storage.Sound := by
  cases h with
  | up => exact hs.setRunning hget hservice
  | fault => exact hs

theorem Absorbs.sound (h : Absorbs c s r s') (hs : s.storage.Sound) : s'.storage.Sound := by
  cases h with
  | untracked => exact hs
  | refused => exact hs
  | stored hslot => exact hs.put (.resolved hslot)
  | @started a service _ _ hslot _ hservice hstarts =>
    refine hstarts.sound (hs.put (.resolved hslot)) (e := .resolved a c) ?_ ?_
    · exact (Storage.get?_put _ _ _).trans (if_pos rfl)
    · simp [Entry.service?, Entry.resolved, hservice]

theorem AbsorbsAll.sound (h : AbsorbsAll cs s r s') (hs : s.storage.Sound) :
    s'.storage.Sound := by
  induction h with
  | nil => exact hs
  | cons habsorbs _ ih => exact ih (habsorbs.sound hs)
  | fail habsorbs => exact habsorbs.sound hs

/-- A step that changes the scene starts the waiting service in the slot or runs the provider
there. -/
theorem Settles.works (h : Settles e s r s') (hs : s.storage.Sound)
    (hget : s.storage.get? a = some e) : s' = s ∨ Works a s e r s' := by
  have hfits := hs.fits hget
  cases h with
  | shadowed => exact .inl rfl
  | rested => exact .inl rfl
  | waited _ hres hpending hservice hstarts =>
    rw [hfits.address_eq] at hstarts
    exact .inr (.waited hres hpending hservice hstarts)
  | shapeless => exact .inl rfl
  | uncalled _ hres hpayload hcalls =>
    obtain ⟨_, rfl⟩ := hfits.eq_constructor hres hpayload
    cases hcalls with
    | unsupplied => exact .inl rfl
    | failed f => exact .inr (.refused f)
  | called _ hres hpayload hcalls habsorbs =>
    obtain ⟨haddr, rfl⟩ := hfits.eq_constructor hres hpayload
    cases hcalls with
    | supplied products hargs hlength => exact .inr (.ran products haddr hargs hlength habsorbs)
  | unassembled _ hres hpayload hassembles =>
    obtain ⟨_, rfl⟩ := hfits.eq_template hres hpayload
    cases hassembles with
    | unfilled => exact .inl rfl
    | failed err => exact .inr (.unmade err)
  | assembled _ hres hpayload hassembles habsorbs =>
    obtain ⟨hslot, rfl⟩ := hfits.eq_template hres hpayload
    cases hassembles with
    | assembled product hvalues => exact .inr (.made product hslot hvalues habsorbs)
  | idle => exact .inl rfl

/-- Settling an entry of the storage keeps the storage sound. -/
theorem Settles.sound (h : Settles e s r s') (hs : s.storage.Sound)
    (hget : s.storage.get? a = some e) : s'.storage.Sound := by
  rcases h.works hs hget with rfl | hworks
  · exact hs
  cases hworks with
  | waited _ _ hservice hstarts => exact hstarts.sound hs hget (by simp [hservice])
  | refused => exact hs
  | ran _ _ _ _ habsorbs => exact habsorbs.sound (hs.markResolved hget rfl)
  | unmade => exact hs
  | made _ _ _ habsorbs => exact habsorbs.sound hs

/-- A walk keeps the storage sound. -/
theorem SettlesAll.sound (h : SettlesAll order s r s') (hs : s.storage.Sound) :
    s'.storage.Sound := by
  induction h with
  | nil => exact hs
  | skip _ _ ih => exact ih hs
  | step hget hsettles _ ih => exact ih (hsettles.sound hs hget)
  | fail hget hsettles => exact hsettles.sound hs hget

/-! ## Worlds -/

variable {σ : Type}

namespace World

/-- What a resolution works on in a world. -/
def scene (w : World (Recorded σ)) : Scene := ⟨w.container.storage, w.host.calls⟩

/-- From `w` to `w'` the history gained exactly the records of the start hooks called, no stop hook
was called, and nothing else of the container changed but its storage. -/
structure Tracks (w w' : World (Recorded σ)) : Prop where
  running : w'.container.running = w.container.running
  config : w'.container.config = w.container.config
  context : w'.container.context = w.container.context
  token : w'.container.token = w.container.token
  floor : w'.container.history.floor = w.container.history.floor
  switch : w'.container.history.switch = w.container.history.switch
  calls : ∃ new, w'.host.calls = w.host.calls ++ new ∧
    w'.container.history.records = w.container.history.records ++ new.filterMap Call.record? ∧
    ∀ service result, Call.down service result ∉ new

theorem Tracks.refl (w : World (Recorded σ)) : Tracks w w :=
  ⟨rfl, rfl, rfl, rfl, rfl, rfl, [], by simp⟩

theorem Tracks.trans {w₁ w₂ w₃ : World (Recorded σ)} (h₁ : Tracks w₁ w₂) (h₂ : Tracks w₂ w₃) :
    Tracks w₁ w₃ := by
  obtain ⟨new₁, hc₁, hr₁, hd₁⟩ := h₁.calls
  obtain ⟨new₂, hc₂, hr₂, hd₂⟩ := h₂.calls
  refine ⟨h₂.running.trans h₁.running, h₂.config.trans h₁.config, h₂.context.trans h₁.context,
    h₂.token.trans h₁.token, h₂.floor.trans h₁.floor, h₂.switch.trans h₁.switch,
    new₁ ++ new₂, ?_, ?_, ?_⟩
  · rw [hc₂, hc₁, List.append_assoc]
  · rw [hr₂, hr₁, List.filterMap_append, List.append_assoc]
  · intro service result hmem
    rcases List.mem_append.1 hmem with h | h
    · exact hd₁ service result h
    · exact hd₂ service result h

/-- Meanwhile the history stays on. -/
theorem Tracks.on {w w' : World (Recorded σ)} (h : Tracks w w')
    (hon : w.container.history.switch = .on) : w'.container.history.switch = .on :=
  h.switch.trans hon

/-- A change of the storage alone leaves the history as it is. -/
theorem Tracks.of_storage (w : World (Recorded σ)) (s : Storage) :
    Tracks w { w with container := { w.container with storage := s } } :=
  ⟨rfl, rfl, rfl, rfl, rfl, rfl, [], by simp⟩

/-- A callback other than a hook adds its call and leaves the container alone. -/
theorem Tracks.of_call (w : World (Recorded σ)) (state : σ) {new : List Call}
    (hnew : ∀ call ∈ new, call.isHook = false) :
    Tracks w { w with host := ⟨state, w.host.calls ++ new⟩ } := by
  refine ⟨rfl, rfl, rfl, rfl, rfl, rfl, new, rfl, ?_, fun service result hmem => ?_⟩
  · have hnone : new.filterMap Call.record? = [] := by
      refine List.filterMap_eq_nil_iff.2 fun call hmem => ?_
      have := hnew call hmem
      cases call <;> simp_all [Call.isHook, Call.record?]
    simp [hnone]
  · exact Bool.noConfusion (hnew _ hmem)

end World

open World

/-- Under a history that is on, an action changes the scene by a relation and the history by the
records of the start hooks called. -/
def Action.Obeys {α : Type} (action : Action (Recorded σ) α)
    (R : Scene → Except Error α → Scene → Prop) : Prop :=
  ∀ w, w.container.history.switch = .on →
    R w.scene (action.outcome w).1 (action.outcome w).2.scene ∧ Tracks w (action.outcome w).2

variable (client : Client σ)

/-! ## The actions obey the relations -/

/-- A history that is on takes every record. -/
theorem History.record_of_on {h : History} (hon : h.switch = .on) (r : Record) :
    h.record r = .ok { h with records := h.records ++ [r] }.rewindToLatest := by
  simp only [History.record, hon]

/-- The result of starting a service under a label, by what its start hook returned. -/
def startResult (label : String) : Except Fault Unit → Except Error Unit
  | .ok _ => .ok ()
  | .error fault => .error (.serviceStart label fault)

/-- Recording a service calls its start hook, with the record made. -/
theorem recordAndStart_of_on (client : Client (World σ)) {w : World σ}
    (hon : w.container.history.switch = .on) (label : String) (service : Service) :
    let out := client.up service (w.container.signal service.shape) { w with
      container := { w.container with
        history := { w.container.history with
          records := w.container.history.records ++ [Record.mk label service] }.rewindToLatest } }
    (Container.recordAndStart client label service).outcome w = (startResult label out.1, out.2) := by
  unfold Container.recordAndStart
  simp only [Action.outcome_bind, Action.outcome_get, History.record_of_on hon,
    Action.outcome_setHistory, Action.outcome_liftM, Container.signal]
  generalize client.up service _ _ = out
  obtain ⟨result, w'⟩ := out
  cases result <;> rfl

/-- A call of a start hook is written down under the label of the record made for it. -/
theorem recordAndStart_recorded {w : World (Recorded σ)} (hon : w.container.history.switch = .on)
    (label : String) (service : Service) :
    let out := client.up service (w.container.signal service.shape) w.host.state
    (Container.recordAndStart client.recorded label service).outcome w =
      (startResult label out.1, { w with
        container := { w.container with
          history := { w.container.history with
            records := w.container.history.records ++ [Record.mk label service] }.rewindToLatest }
        host := ⟨out.2, w.host.calls ++ [.up label service out.1]⟩ }) := by
  rw [recordAndStart_of_on _ hon]
  simp only [Client.recorded, World.recording, Container.lastLabel, History.rewindToLatest,
    List.getLast?_append, List.getLast?_singleton, Option.some_or, Option.map_some,
    Option.getD_some]
  rfl

/-- A start of a service gains one call and one record. -/
theorem recordAndStart_outcome {w : World (Recorded σ)} (hon : w.container.history.switch = .on)
    (label : String) (service : Service) : ∃ result w',
      (Container.recordAndStart client.recorded label service).outcome w =
        (startResult label result, w') ∧
      w'.scene = ⟨w.scene.storage, w.scene.calls ++ [.up label service result]⟩ ∧
      Tracks w w' := by
  refine ⟨_, _, recordAndStart_recorded client hon label service, rfl, ?_⟩
  exact ⟨rfl, rfl, rfl, rfl, rfl, rfl, [.up label service _], rfl,
    by simp [History.rewindToLatest, Call.record?], by simp⟩

theorem startService_obeys (a : Address) (service : Service) :
    (Container.startService client.recorded a service).Obeys (Starts a service) := by
  intro w hon
  obtain ⟨result, w₁, hout, hscene, htracks⟩ := recordAndStart_outcome client hon a.text service
  simp only [Container.startService, Action.outcome_bind, hout]
  have hstorage : w₁.container.storage = w.container.storage := congrArg Scene.storage hscene
  have hcalls : w₁.host.calls = w.host.calls ++ [.up a.text service result] :=
    congrArg Scene.calls hscene
  cases result with
  | error f =>
    simp only [startResult]
    refine ⟨?_, htracks⟩
    rw [hscene]
    exact .fault f
  | ok _ =>
    simp only [startResult, Action.outcome_change]
    refine ⟨?_, htracks.trans (.of_storage w₁ _)⟩
    simp only [scene, hstorage, hcalls]
    exact .up

theorem absorb_obeys (c : Component) : (Container.absorb client.recorded c).Obeys (Absorbs c) := by
  intro w hon
  cases hslot : c.type.slot? with
  | none =>
    simp only [Container.absorb, Action.outcome_bind, Action.outcome_get,
      Action.outcome_liftExcept, Storage.insertProduct, hslot, Action.outcome_setStorage,
      Action.outcome_pure]
    exact ⟨.untracked hslot, .refl w⟩
  | some a =>
    rcases w.container.storage.insert_cases (.resolved a c) with ⟨hfree, hinsert⟩ | ⟨hfree, hinsert⟩
    · simp only [Container.absorb, Action.outcome_bind, Action.outcome_get,
        Action.outcome_liftExcept, Storage.insertProduct, hslot, hinsert, Action.outcome_setStorage]
      have hstored := Tracks.of_storage w (w.container.storage.put (.resolved a c))
      cases hservice : c.service? with
      | none => exact ⟨.stored hslot hfree hservice, hstored⟩
      | some service =>
        obtain ⟨hstarts, htracks⟩ := startService_obeys client a service _ (hstored.on hon)
        exact ⟨.started hslot hfree hservice hstarts, hstored.trans htracks⟩
    · simp only [Container.absorb, Action.outcome_bind, Action.outcome_get,
        Action.outcome_liftExcept, Storage.insertProduct, hslot, hinsert]
      exact ⟨.refused hslot hfree, .refl w⟩

theorem absorbAll_obeys (cs : List Component) :
    (Container.absorbAll client.recorded cs).Obeys (AbsorbsAll cs) := by
  induction cs with
  | nil => exact fun w _ => ⟨.nil, .refl w⟩
  | cons c cs ih =>
    intro w hon
    obtain ⟨habsorbs, htracks⟩ := absorb_obeys client c w hon
    simp only [Container.absorbAll, Action.outcome_bind]
    generalize (Container.absorb client.recorded c).outcome w = out at habsorbs htracks ⊢
    obtain ⟨e | _, w₁⟩ := out
    · exact ⟨.fail habsorbs, htracks⟩
    · obtain ⟨hrest, htracks'⟩ := ih w₁ (htracks.on hon)
      exact ⟨.cons habsorbs hrest, htracks.trans htracks'⟩

/-- Every output is handed over, in order. -/
theorem supplyFrom_run (c : Constructor) (position : Nat) (types : List ComponentType)
    (w : World (Recorded σ)) : ∃ products state, products.length = types.length ∧
      Container.supplyFrom client.recorded c position types w =
        (List.zipWith Component.ofProduct types products,
          { w with host := ⟨state, w.host.calls ++ suppliesFrom c position products⟩ }) := by
  induction types generalizing position w with
  | nil => exact ⟨[], w.host.state, rfl, by simp [Container.supplyFrom, suppliesFrom]; rfl⟩
  | cons t types ih =>
    obtain ⟨product, state, hout⟩ : ∃ product state, client.recorded.supply c position w =
        (product, { w with host := ⟨state, w.host.calls ++ [.supply c position product]⟩ }) :=
      ⟨_, _, rfl⟩
    obtain ⟨products, state', hlength, hrest⟩ := ih (position + 1)
      { w with host := ⟨state, w.host.calls ++ [.supply c position product]⟩ }
    refine ⟨product :: products, state', by simp [hlength], ?_⟩
    simp only [Container.supplyFrom, bind, StateT.bind, hout, hrest]
    simp [suppliesFrom]
    rfl

theorem call_obeys (c : Constructor) : (Container.call client.recorded c).Obeys (Calls c) := by
  intro w hon
  simp only [Container.call, Action.outcome_bind, Action.outcome_get, Action.outcome_liftExcept]
  cases hargs : w.container.storage.arguments c.callable.params with
  | error err => exact ⟨.unsupplied hargs, .refl w⟩
  | ok args =>
    obtain ⟨result, state, hout⟩ : ∃ result state, client.recorded.construct c args w =
        (result, { w with host := ⟨state, w.host.calls ++ [.construct c args result]⟩ }) :=
      ⟨_, _, rfl⟩
    simp only [Action.outcome_liftM, hout]
    cases result with
    | error f => exact ⟨.failed f hargs, .of_call w state (by simp [Call.isHook])⟩
    | ok _ =>
      obtain ⟨products, state', hlength, hsupply⟩ := supplyFrom_run client c 0 c.callable.outputs
        { w with host := ⟨state, w.host.calls ++ [.construct c args (.ok ())]⟩ }
      simp only [Action.outcome_liftM, hsupply, List.append_assoc, List.singleton_append]
      refine ⟨.supplied products hargs hlength, .of_call w state' ?_⟩
      intro call hmem
      rcases List.mem_cons.1 hmem with rfl | hmem
      · rfl
      · obtain ⟨i, product, _, rfl⟩ := mem_suppliesFrom.1 hmem
        rfl

theorem runConstructor_obeys (a : Address) (c : Constructor) :
    (Container.runConstructor client.recorded a c).Obeys fun s r s' =>
      (∃ err, r = .error err ∧ Calls c s (.error err) s') ∨
        ∃ components s₁, Calls c s (.ok components) s₁ ∧
          AbsorbsAll components ⟨s₁.storage.markResolved a, s₁.calls⟩ r s' := by
  intro w hon
  obtain ⟨hcalls, htracks⟩ := call_obeys client c w hon
  simp only [Container.runConstructor, Action.outcome_bind, Action.outcome_change]
  generalize (Container.call client.recorded c).outcome w = out at hcalls htracks ⊢
  obtain ⟨err | components, w₁⟩ := out
  · exact ⟨.inl ⟨err, rfl, hcalls⟩, htracks⟩
  · have hmarked := Tracks.of_storage w₁ (w₁.container.storage.markResolved a)
    obtain ⟨habsorbs, htracks'⟩ :=
      absorbAll_obeys client components _ (hmarked.on (htracks.on hon))
    exact ⟨.inr ⟨components, w₁.scene, hcalls, habsorbs⟩, htracks.trans (hmarked.trans htracks')⟩

theorem runTemplate_obeys (a : Address) (t : Template) :
    (Container.runTemplate client.recorded a t).Obeys fun s r s' =>
      (∃ err, r = .error err ∧ Assembles a t s (.error err) s') ∨
        ∃ component s₁, Assembles a t s (.ok component) s₁ ∧ Absorbs component s₁ r s' := by
  intro w hon
  simp only [Container.runTemplate, Action.outcome_bind, Action.outcome_get,
    Action.outcome_liftExcept]
  cases hvalues : w.container.storage.fillFields t.fields (.empty a) with
  | error err => exact ⟨.inl ⟨err, rfl, .unfilled hvalues⟩, .refl w⟩
  | ok values =>
    obtain ⟨result, state, hout⟩ : ∃ result state, client.recorded.assemble t values w =
        (result, { w with host := ⟨state, w.host.calls ++ [.assemble t values result]⟩ }) :=
      ⟨_, _, rfl⟩
    have hcall : Tracks w { w with host := ⟨state, w.host.calls ++ [.assemble t values result]⟩ } :=
      .of_call w state (by simp [Call.isHook])
    simp only [Action.outcome_lift, hout]
    cases result with
    | error err => exact ⟨.inl ⟨_, rfl, .failed err hvalues⟩, hcall⟩
    | ok product =>
      obtain ⟨habsorbs, htracks⟩ :=
        absorb_obeys client (.ofProduct t.type product) _ (hcall.on hon)
      exact ⟨.inr ⟨_, _, .assembled product hvalues, habsorbs⟩, hcall.trans htracks⟩

/-- The settling of an entry is described by what the entry holds. -/
theorem settle_obeys (e : Entry) : (Container.settle client.recorded e).Obeys (Settles e) := by
  intro w hon
  unfold Container.settle
  split
  · next hshadowed => exact ⟨.shadowed hshadowed, .refl w⟩
  · next hshadowed =>
    have hshadowed : e.shadowed = 0 := by simpa using hshadowed
    split
    · next hres =>
      split
      · next hpending =>
        split
        · next service hservice =>
          obtain ⟨hstarts, htracks⟩ := startService_obeys client e.address service w hon
          exact ⟨.waited hshadowed hres hpending hservice hstarts, htracks⟩
        · next hservice => exact ⟨.shapeless hshadowed hres hpending hservice, .refl w⟩
      · next hpending => exact ⟨.rested hshadowed hres hpending, .refl w⟩
    · next hres =>
      have hres : e.isResolved = false := by simpa using hres
      split
      · next c hpayload =>
        obtain ⟨⟨err, herr, hcalls⟩ | ⟨components, s₁, hcalls, habsorbs⟩, htracks⟩ :=
          runConstructor_obeys client e.address c w hon
        · rw [herr]
          exact ⟨.uncalled hshadowed hres hpayload hcalls, htracks⟩
        · exact ⟨.called hshadowed hres hpayload hcalls habsorbs, htracks⟩
      · next t hpayload =>
        obtain ⟨⟨err, herr, hassembles⟩ | ⟨component, s₁, hassembles, habsorbs⟩, htracks⟩ :=
          runTemplate_obeys client e.address t w hon
        · rw [herr]
          exact ⟨.unassembled hshadowed hres hpayload hassembles, htracks⟩
        · exact ⟨.assembled hshadowed hres hpayload hassembles habsorbs, htracks⟩
      · next c hpayload => exact ⟨.idle hshadowed hres hpayload, .refl w⟩

/-- A walk along addresses settles the entries that it finds there. -/
theorem settleAll_obeys (order : List Address) :
    (Container.settleAll client.recorded order).Obeys (SettlesAll order) := by
  induction order with
  | nil => exact fun w _ => ⟨.nil, .refl w⟩
  | cons a rest ih =>
    intro w hon
    simp only [Container.settleAll, Action.outcome_bind, Action.outcome_get]
    cases hget : w.container.storage.get? a with
    | none =>
      obtain ⟨hrest, htracks⟩ := ih w hon
      exact ⟨.skip hget hrest, htracks⟩
    | some e =>
      obtain ⟨hsettles, htracks⟩ := settle_obeys client e w hon
      simp only [Action.outcome_bind]
      generalize (Container.settle client.recorded e).outcome w = out at hsettles htracks ⊢
      obtain ⟨err | _, w₁⟩ := out
      · exact ⟨.fail hget hsettles, htracks⟩
      · obtain ⟨hrest, htracks'⟩ := ih w₁ (htracks.on hon)
        exact ⟨.step hget hsettles hrest, htracks.trans htracks'⟩

end Wiring
