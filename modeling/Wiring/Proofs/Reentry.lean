import Wiring.Proofs.Agreement
import Wiring.Proofs.Duplicates

/-!
# Operations whose hooks call back

A hook may call the container that called it, and then the operation goes on in a container that is
not the one it left. Whatever hooks do, a container stays `Tidy`. What an operation says beyond that
holds as long as its hooks leave a running container alone, or do something by which this is
excused: a property `S` of the state of the program that, once it holds, goes on holding. A start is
followed with `World.Walks`: unless it is excused, the container runs, the services that run are
recorded, and what waits to be started lies ahead on the way.
-/

namespace Wiring

open World

variable {τ α β : Type}

/-! ## Containers that hooks may meet -/

namespace Container

/-- A container with one more record. -/
def withRecord (c : Container) (r : Record) : Container :=
  { c with history := { c.history with records := c.history.records ++ [r] }.rewindToLatest }

/-- What a container keeps to at every call of a hook: a container in order, except that services may
be marked as running while its history is off. -/
structure Tidy (c : Container) : Prop where
  sound : c.storage.Sound
  on_of_running : c.running = true → c.history.switch = .on
  live_of_off : c.history.switch = .off → c.history.live = []
  floor : c.history.floor ≤ c.history.records.length
  switch : c.history.switch ≠ .stopping

theorem InOrder.tidy {c : Container} (h : c.InOrder) : c.Tidy where
  sound := h.status.sound
  on_of_running hrunning := on_iff.1 (h.status.on_of_running hrunning)
  live_of_off hoff := h.status.live_of_off ((off_iff h).2 hoff)
  floor := h.floor
  switch := h.switch

/-- A running container whose running services are recorded, and in which no service waits but at
the pending addresses. -/
structure Walking (pending : Address → Prop) (c : Container) : Prop where
  running : c.running = true
  labelled : c.status.Labelled
  waits : ∀ ⦃a e⦄, c.storage.get? a = some e → e.service = .pendingUp → pending a

namespace Tidy

variable {c : Container}

theorem setStorage (h : c.Tidy) {s : Storage} (hs : s.Sound) : { c with storage := s }.Tidy :=
  ⟨hs, h.on_of_running, h.live_of_off, h.floor, h.switch⟩

theorem halt (h : c.Tidy) : { c with running := false }.Tidy :=
  ⟨h.sound, nofun, h.live_of_off, h.floor, h.switch⟩

/-- A container that runs may turn its history on. -/
theorem turnOn (h : c.Tidy) :
    { c with running := true, history := { c.history with switch := .on } }.Tidy :=
  ⟨h.sound, fun _ => rfl, Switch.noConfusion, h.floor, Switch.noConfusion⟩

/-- A record may be made while the history is on. -/
theorem withRecord (h : c.Tidy) (hon : c.history.switch = .on) (r : Record) :
    (c.withRecord r).Tidy where
  sound := h.sound
  on_of_running _ := hon
  live_of_off hoff := nomatch hon.symm.trans hoff
  floor := Nat.le_trans h.floor (List.length_append ▸ Nat.le_add_right _ _)
  switch := h.switch

theorem live_withRecord (h : c.Tidy) (r : Record) :
    (c.withRecord r).history.live = c.history.live ++ [r] := List.drop_append_of_le_length h.floor

end Tidy

end Container

/-! ## What hooks may do -/

/-- From one world to another a container stays tidy and its storage accrues, the excuse `S` goes on
holding, and a running container is left alone, or excused. -/
structure World.Passes (S : τ → Prop) (w v : World τ) : Prop where
  tidy : w.container.Tidy → v.container.Tidy
  accrues : w.container.storage.Accrues v.container.storage
  excused : S w.host → S v.host
  alone : w.container.Tidy → w.container.running = true → S v.host ∨ v.container = w.container

namespace World.Passes

variable {S : τ → Prop} {w v u : World τ}

theorem refl (w : World τ) : w.Passes S w := ⟨id, .refl _, id, fun _ _ => .inr rfl⟩

theorem trans (h : w.Passes S v) (h' : v.Passes S u) : w.Passes S u where
  tidy htidy := h'.tidy (h.tidy htidy)
  accrues := h.accrues.trans h'.accrues
  excused hexcused := h'.excused (h.excused hexcused)
  alone htidy hrunning := by
    rcases h.alone htidy hrunning with hexcused | hsame
    · exact .inl (h'.excused hexcused)
    · exact (h'.alone (h.tidy htidy) (hsame ▸ hrunning)).imp_right fun hsame' => hsame'.trans hsame

end World.Passes

/-- From one world to another the container stays the same. -/
structure World.Spares (S : τ → Prop) (w v : World τ) : Prop where
  container : v.container = w.container
  excused : S w.host → S v.host

namespace World.Spares

variable {S : τ → Prop} {w v u : World τ}

theorem refl (w : World τ) : w.Spares S w := ⟨rfl, id⟩

theorem trans (h : w.Spares S v) (h' : v.Spares S u) : w.Spares S u :=
  ⟨h'.container.trans h.container, h'.excused ∘ h.excused⟩

end World.Spares

/-- The constructors and templates of a program leave the container alone. -/
structure Client.Spares (S : τ → Prop) (client : Client (World τ)) : Prop where
  construct : ∀ c args w, World.Spares S w (client.construct c args w).2
  supply : ∀ c position w, World.Spares S w (client.supply c position w).2
  assemble : ∀ t values w, World.Spares S w (client.assemble t values w).2

/-- The hooks of a program pass, and its other callbacks leave the container alone. -/
structure Client.Reenters (S : τ → Prop) (client : Client (World τ)) : Prop
    extends client.Spares S where
  up : ∀ service signal w, World.Passes S w (client.up service signal w).2
  down : ∀ service w, World.Passes S w (client.down service w).2

/-! ## The walk of a start -/

/-- The container is tidy and walks, or is excused. -/
structure World.Walks (S : τ → Prop) (pending : Address → Prop) (w : World τ) : Prop where
  tidy : w.container.Tidy
  walking : S w.host ∨ w.container.Walking pending

/-- An action that succeeds leaves a world that walks. If it fails anything may wait. -/
def Leads (S : τ → Prop) (pending : Address → Prop) (out : Except Error α × World τ) : Prop :=
  match out.1 with
  | .ok _ => out.2.Walks S pending
  | .error _ => out.2.Walks S fun _ => True

namespace World.Walks

variable {S : τ → Prop} {pending pending' : Address → Prop} {w v : World τ} {a : Address} {e : Entry}

theorem mono (h : w.Walks S pending) (hpending : ∀ a, pending a → pending' a) :
    w.Walks S pending' :=
  ⟨h.tidy, h.walking.imp_right fun hw =>
    ⟨hw.running, hw.labelled, fun _ _ hget hwaits => hpending _ (hw.waits hget hwaits)⟩⟩

theorem fails (h : w.Walks S pending) : w.Walks S fun _ => True := h.mono fun _ _ => trivial

theorem spared (h : w.Walks S pending) (hspares : w.Spares S v) : v.Walks S pending := by
  refine ⟨hspares.container ▸ h.tidy, h.walking.imp hspares.excused fun hw => ?_⟩
  rw [hspares.container]
  exact hw

theorem passed (h : w.Walks S pending) (hpasses : w.Passes S v) : v.Walks S pending := by
  refine ⟨hpasses.tidy h.tidy, ?_⟩
  rcases h.walking with hexcused | hw
  · exact .inl (hpasses.excused hexcused)
  · refine (hpasses.alone h.tidy hw.running).imp_right fun hsame => ?_
    rw [hsame]
    exact hw

/-- An address at which nothing waits need not be pending. -/
theorem settled (h : w.Walks S fun b => pending b ∨ b = a)
    (hget : ∀ e, w.container.storage.get? a = some e → e.service ≠ .pendingUp) :
    w.Walks S pending := by
  refine ⟨h.tidy, h.walking.imp_right fun hw => ⟨hw.running, hw.labelled, ?_⟩⟩
  intro b e hb hwaits
  rcases hw.waits hb hwaits with hpending | rfl
  · exact hpending
  · exact absurd hwaits (hget e hb)

end World.Walks

namespace Container

variable {S : τ → Prop} {client : Client (World τ)} {pending : Address → Prop} {w : World τ}
  {a : Address} {e : Entry}

/-- A history that is not on refuses a record. -/
theorem recordAndStart_of_not_on (h : w.container.history.switch ≠ .on) (label : String)
    (service : Service) : (recordAndStart client label service).outcome w =
      (.error (.trackerState "record requires a running tracker"), w) := by
  have hrecord : w.container.history.record ⟨label, service⟩ =
      .error (.trackerState "record requires a running tracker") := by
    unfold History.record
    split
    · next hon => exact absurd hon h
    · rfl
  simp only [recordAndStart, Action.outcome_bind, Action.outcome_get, hrecord, Action.outcome_throw]

/-- A history that is on makes the record, and then the start hook is called. -/
theorem recordAndStart_withRecord (client : Client (World τ))
    (h : w.container.history.switch = .on) (label : String) (service : Service) :
    let out := client.up service (w.container.signal service.shape)
      { w with container := w.container.withRecord ⟨label, service⟩ }
    (recordAndStart client label service).outcome w = (startResult label out.1, out.2) :=
  recordAndStart_of_on client h label service

/-- A service that is recorded may run. -/
theorem Walking.setRunning {c : Container} (h : c.Walking fun b => pending b ∨ b = a)
    (hlabel : a.text ∈ c.history.live.map Record.label) :
    { c with storage := c.storage.setService a .runningUp }.Walking pending := by
  refine ⟨h.running, fun b e hget hrunning => ?_, fun b e hget hwaits => ?_⟩
  · have hget : (c.storage.setService a .runningUp).get? b = some e := hget
    rw [Storage.get?_setService] at hget
    split at hget
    · next heq => exact heq ▸ hlabel
    · exact h.labelled hget hrunning
  · have hget : (c.storage.setService a .runningUp).get? b = some e := hget
    rw [Storage.get?_setService] at hget
    split at hget
    · obtain ⟨_, _, rfl⟩ := Option.map_eq_some_iff.1 hget
      cases hwaits
    · next hne => exact (h.waits hget hwaits).resolve_right fun heq => hne heq.symm

/-- Further records take nothing away. -/
theorem Tidy.labelled_withRecord {c : Container} (ht : c.Tidy) (h : c.status.Labelled) (r : Record) :
    (c.withRecord r).status.Labelled := by
  intro a e hget hrunning
  have hlabel := h hget hrunning
  show a.text ∈ (c.withRecord r).history.live.map Record.label
  rw [ht.live_withRecord, List.map_append]
  exact List.mem_append_left _ hlabel

theorem startService_leads (hclient : client.Reenters S) (service : Service)
    (h : w.Walks S fun b => pending b ∨ b = a) (hget : w.container.storage.get? a = some e)
    (hres : e.isResolved = true) (hservice : e.service? ≠ none) :
    Leads S pending ((startService client a service).outcome w) := by
  by_cases hon : w.container.history.switch = .on
  · let v : World τ := { w with container := w.container.withRecord ⟨a.text, service⟩ }
    have ht : v.container.Tidy := h.tidy.withRecord hon _
    have hw : w.container.Walking (fun b => pending b ∨ b = a) →
        v.container.Walking fun b => pending b ∨ b = a := fun hw =>
      ⟨hw.running, h.tidy.labelled_withRecord hw.labelled _, hw.waits⟩
    have hlabel : a.text ∈ v.container.history.live.map Record.label := by
      rw [h.tidy.live_withRecord, List.map_append]
      exact List.mem_append_right _ (List.mem_singleton.2 rfl)
    have hpasses := hclient.up service (w.container.signal service.shape) v
    simp only [startService, Action.outcome_bind, recordAndStart_withRecord client hon]
    generalize client.up service _ v = out at hpasses
    obtain ⟨result, u⟩ := out
    have hu : u.Walks S fun b => pending b ∨ b = a :=
      World.Walks.passed ⟨ht, h.walking.imp_right hw⟩ hpasses
    cases result with
    | error fault => exact hu.fails
    | ok _ =>
      obtain ⟨state, shadowed, _, hentry⟩ := hpasses.accrues.exists_entry hget hres
      refine ⟨hu.tidy.setStorage (hu.tidy.sound.setRunning hentry hservice), ?_⟩
      rcases h.walking with hexcused | hwalking
      · exact .inl (hpasses.excused hexcused)
      · refine (hpasses.alone ht hwalking.running).imp_right fun hsame => ?_
        show Walking pending { u.container with
          storage := u.container.storage.setService a .runningUp }
        rw [hsame]
        exact (hw hwalking).setRunning hlabel
  · simp only [startService, Action.outcome_bind, recordAndStart_of_not_on hon]
    exact h.fails

/-- A component that is stored may wait, in its own slot only. -/
theorem Walking.stored {c : Container} (h : c.Walking pending) (component : Component) :
    { c with storage := c.storage.put (.resolved a component) }.Walking
      fun b => pending b ∨ b = a := by
  refine ⟨h.running, fun b e hget hrunning => ?_, fun b e hget hwaits => ?_⟩
  · have hget : (c.storage.put (.resolved a component)).get? b = some e := hget
    rw [Storage.get?_put] at hget
    split at hget
    · obtain rfl := Option.some.inj hget
      exact absurd hrunning (Entry.resolved_ne_running a component)
    · exact h.labelled hget hrunning
  · have hget : (c.storage.put (.resolved a component)).get? b = some e := hget
    rw [Storage.get?_put] at hget
    split at hget
    · next heq => exact .inr heq.symm
    · exact .inl (h.waits hget hwaits)

theorem absorb_leads (hclient : client.Reenters S) (component : Component) (h : w.Walks S pending) :
    Leads S pending ((absorb client component).outcome w) := by
  cases hslot : component.type.slot? with
  | none =>
    simp only [absorb, Action.outcome_bind, Action.outcome_get, Action.outcome_liftExcept,
      Storage.insertProduct, hslot, Action.outcome_setStorage, Action.outcome_pure]
    exact h
  | some a =>
    rcases w.container.storage.insert_cases (.resolved a component) with
      ⟨_, hinsert⟩ | ⟨_, hinsert⟩
    · simp only [absorb, Action.outcome_bind, Action.outcome_get, Action.outcome_liftExcept,
        Storage.insertProduct, hslot, hinsert, Action.outcome_setStorage]
      have hput : World.Walks S (fun b => pending b ∨ b = a) { w with container := { w.container with
          storage := w.container.storage.put (.resolved a component) } } :=
        ⟨h.tidy.setStorage (h.tidy.sound.put (.resolved hslot)), h.walking.imp_right fun hw =>
          hw.stored component⟩
      have hget : (w.container.storage.put (.resolved a component)).get? a =
          some (.resolved a component) := by
        rw [Storage.get?_put]
        exact if_pos rfl
      cases hservice : component.service? with
      | none =>
        refine hput.settled fun e he hwaits => ?_
        obtain rfl := Option.some.inj (hget.symm.trans he)
        simp [Entry.resolved, hservice] at hwaits
      | some service =>
        refine startService_leads hclient service hput hget rfl ?_
        show component.service? ≠ none
        rw [hservice]
        exact Option.some_ne_none service
    · simp only [absorb, Action.outcome_bind, Action.outcome_get, Action.outcome_liftExcept,
        Storage.insertProduct, hslot, hinsert]
      exact h.fails

end Container

/-- Where an action that leads somewhere succeeds the next one goes on. -/
theorem Leads.bind {S : τ → Prop} {pending pending' : Address → Prop} {x : Action τ α}
    {f : α → Action τ β} {w : World τ} (h : Leads S pending (x.outcome w))
    (hnext : ∀ a v, v.Walks S pending → Leads S pending' ((f a).outcome v)) :
    Leads S pending' ((x >>= f).outcome w) := by
  rw [Action.outcome_bind]
  generalize x.outcome w = out at h
  obtain ⟨_ | a, v⟩ := out
  · exact h
  · exact hnext a v h

namespace Container

variable {S : τ → Prop} {client : Client (World τ)} {pending : Address → Prop} {w : World τ}
  {a : Address} {e : Entry}

theorem absorbAll_leads (hclient : client.Reenters S) (components : List Component)
    (h : w.Walks S pending) : Leads S pending ((absorbAll client components).outcome w) := by
  induction components generalizing w with
  | nil => exact h
  | cons component rest ih => exact (absorb_leads hclient component h).bind fun _ _ hv => ih hv

theorem supplyFrom_spares (hclient : client.Spares S) (c : Constructor) (position : Nat)
    (outputs : List ComponentType) (w : World τ) :
    w.Spares S (supplyFrom client c position outputs w).2 := by
  induction outputs generalizing position w with
  | nil => exact .refl w
  | cons t rest ih => exact (hclient.supply c position w).trans (ih _ _)

/-- A callable is called without the container being touched. -/
theorem call_spares (hclient : client.Spares S) (c : Constructor) (w : World τ) :
    w.Spares S ((call client c).outcome w).2 := by
  simp only [call, Action.outcome_bind, Action.outcome_get, Action.outcome_liftExcept]
  cases w.container.storage.arguments c.callable.params with
  | error e => exact .refl w
  | ok args =>
    have hcalled := hclient.construct c args w
    simp only [Action.outcome_liftM]
    cases (client.construct c args w).1 with
    | error fault => exact hcalled
    | ok _ => exact hcalled.trans (supplyFrom_spares hclient c 0 _ _)

/-- A constructor counts as resolved once it has run; no service state changes by that. -/
theorem Walking.marked {c : Container} (h : c.Walking pending) :
    { c with storage := c.storage.markResolved a }.Walking pending := by
  have hservice : ∀ {b e}, (c.storage.markResolved a).get? b = some e →
      ∃ e', c.storage.get? b = some e' ∧ e'.service = e.service := fun {b e} hget => by
    rw [Storage.get?_markResolved] at hget
    split at hget
    · obtain ⟨e', hget', rfl⟩ := Option.map_eq_some_iff.1 hget
      exact ⟨e', hget', rfl⟩
    · exact ⟨e, hget, rfl⟩
  refine ⟨h.running, fun b e hget hrunning => ?_, fun b e hget hwaits => ?_⟩
  · obtain ⟨e', hget', hsame⟩ := hservice hget
    exact h.labelled hget' (hsame.trans hrunning)
  · obtain ⟨e', hget', hsame⟩ := hservice hget
    exact h.waits hget' (hsame.trans hwaits)

theorem runConstructor_leads (hclient : client.Reenters S) {c : Constructor}
    (h : w.Walks S pending) (hget : w.container.storage.get? a = some e)
    (hpayload : e.payload = .constructor c) :
    Leads S pending ((runConstructor client a c).outcome w) := by
  have hspares := call_spares hclient.toSpares c w
  simp only [runConstructor, Action.outcome_bind]
  generalize (call client c).outcome w = out at hspares
  have hv := h.spared hspares
  obtain ⟨err | components, v⟩ := out
  · exact hv.fails
  · simp only [Action.outcome_change]
    have hget : v.container.storage.get? a = some e := by rw [hspares.container, hget]
    refine absorbAll_leads hclient components ⟨?_, hv.walking.imp_right Walking.marked⟩
    exact hv.tidy.setStorage (hv.tidy.sound.markResolved hget hpayload)

theorem runTemplate_leads (hclient : client.Reenters S) (t : Template) (h : w.Walks S pending) :
    Leads S pending ((runTemplate client a t).outcome w) := by
  simp only [runTemplate, Action.outcome_bind, Action.outcome_get, Action.outcome_liftExcept]
  cases w.container.storage.fillFields t.fields (FieldValues.empty a) with
  | error e => exact h.fails
  | ok values =>
    have hv := h.spared (hclient.assemble t values w)
    simp only [Action.outcome_lift]
    cases (client.assemble t values w).1 with
    | error e => exact hv.fails
    | ok product => exact absorb_leads hclient _ hv

/-- After an entry was settled nothing waits in its slot. -/
theorem settle_leads (hclient : client.Reenters S) (h : w.Walks S fun b => pending b ∨ b = a)
    (hget : w.container.storage.get? a = some e) :
    Leads S pending ((settle client e).outcome w) := by
  have hfits := h.tidy.sound.fits hget
  have hsame : ∀ {e'}, w.container.storage.get? a = some e' → e' = e := fun he =>
    Option.some.inj (he.symm.trans hget)
  unfold settle
  split
  · exact h.fails
  · split
    · next hres =>
      split
      · next hwaits =>
        cases hservice : e.service? with
        | none => exact h.fails
        | some service =>
          rw [hfits.address_eq]
          exact startService_leads hclient service h hget hres (by rw [hservice]; exact nofun)
      · next hwaits => exact h.settled fun e' he => hsame he ▸ hwaits
    · next hres =>
      have hv : w.Walks S pending := h.settled fun e' he => by
        rw [hsame he, hfits.notAService (Bool.eq_false_iff.2 hres)]
        exact nofun
      cases hpayload : e.payload with
      | constructor c =>
        rw [hfits.address_eq]
        exact runConstructor_leads hclient hv hget hpayload
      | template t => exact runTemplate_leads hclient t hv
      | value c => exact hv

/-- At the end of the way nothing waits. -/
theorem settleAll_leads (hclient : client.Reenters S) (order : List Address)
    (h : w.Walks S (· ∈ order)) :
    Leads S (fun _ => False) ((settleAll client order).outcome w) := by
  induction order generalizing w with
  | nil => exact h.mono fun _ hmem => List.not_mem_nil hmem
  | cons a rest ih =>
    have h : w.Walks S fun b => b ∈ rest ∨ b = a :=
      h.mono fun b hmem => (List.mem_cons.1 hmem).symm
    unfold settleAll
    rw [Action.outcome_bind, Action.outcome_get]
    dsimp only
    cases hget : w.container.storage.get? a with
    | none => exact ih (h.settled fun e he => absurd (he.symm.trans hget) (Option.some_ne_none e))
    | some e => exact (settle_leads hclient h hget).bind fun _ _ hv => ih hv

/-- The walk of a start along the order, after which the cursor moves behind the latest record. -/
theorem settleAndRewind_leads (hclient : client.Reenters S) (order : List Address)
    (h : w.Walks S (· ∈ order)) : Leads S (fun _ => False) (Action.outcome (do
      settleAll client order
      change fun c => { c with history := c.history.rewindToLatest }) w) := by
  refine (settleAll_leads hclient order h).bind fun _ v hv => ?_
  have ht := hv.tidy
  exact ⟨⟨ht.sound, ht.on_of_running, ht.live_of_off, ht.floor, ht.switch⟩,
    hv.walking.imp_right fun hw => ⟨hw.running, hw.labelled, hw.waits⟩⟩

/-- If a resolution succeeds nothing waits, unless it is excused. -/
theorem resolveAll_leads (hclient : client.Reenters S) (ht : w.container.Tidy)
    (hl : S w.host ∨ w.container.status.Labelled) : Leads S (fun _ => False)
      ((resolveAll client).outcome { w with
        container := { w.container with running := true } }) := by
  simp only [resolveAll, Action.outcome_bind, Action.outcome_get, Action.outcome_liftExcept]
  cases hswitch : w.container.history.switch with
  | stopping => exact absurd hswitch ht.switch
  | on =>
    have hturn : w.container.history.turnOn =
        .error (.trackerState "stop required after failed start") := by
      simp only [History.turnOn, hswitch]
    simp only [hturn]
    exact ⟨⟨ht.sound, fun _ => hswitch, ht.live_of_off, ht.floor, ht.switch⟩,
      hl.imp_right fun hl => ⟨rfl, hl, fun _ _ _ _ => trivial⟩⟩
  | off =>
    have hturn : w.container.history.turnOn = .ok { w.container.history with switch := .on } := by
      simp only [History.turnOn, hswitch]
    simp only [hturn, Action.outcome_setHistory]
    have hon : World.Walks S (fun _ => True) { w with container := { w.container with
        running := true
        history := { w.container.history with switch := .on } } } :=
      ⟨ht.turnOn, hl.imp_right fun hl => ⟨rfl, hl, fun _ _ _ _ => trivial⟩⟩
    cases horder : w.container.storage.graph.order with
    | error e => exact hon
    | ok order =>
      have hway : World.Walks S (· ∈ order) { w with container := { w.container with
          running := true
          history := { w.container.history with switch := .on } } } :=
        ⟨hon.tidy, hon.walking.imp_right fun hw => ⟨hw.running, hw.labelled, fun a e hget _ =>
          (ht.sound.fits hget).address_eq ▸ Storage.address_mem_order hget horder⟩⟩
      dsimp only
      split
      · rw [Action.outcome_bind, Action.outcome_announce]
        exact settleAndRewind_leads hclient order ⟨hway.tidy, hway.walking⟩
      · exact settleAndRewind_leads hclient order hway

end Container

/-! ## Whole operations -/

/-- The container is tidy, and the services that run there are recorded, unless this is excused. -/
structure World.Keeps (S : τ → Prop) (w : World τ) : Prop where
  tidy : w.container.Tidy
  labelled : S w.host ∨ w.container.status.Labelled

/-- What walks keeps its records. -/
theorem World.Walks.keeps {S : τ → Prop} {pending : Address → Prop} {w : World τ}
    (h : w.Walks S pending) : w.Keeps S :=
  ⟨h.tidy, h.walking.imp_right Container.Walking.labelled⟩

/-- Where anything is excused hooks need not leave a running container alone. -/
theorem Client.Reenters.weaken {S : τ → Prop} {client : Client (World τ)}
    (h : client.Reenters S) : client.Reenters fun _ => True where
  construct c args w := ⟨(h.construct c args w).container, id⟩
  supply c position w := ⟨(h.supply c position w).container, id⟩
  assemble t values w := ⟨(h.assemble t values w).container, id⟩
  up service signal w :=
    have hpasses := h.up service signal w
    ⟨hpasses.tidy, hpasses.accrues, id, fun _ _ => .inl trivial⟩
  down service w :=
    have hpasses := h.down service w
    ⟨hpasses.tidy, hpasses.accrues, id, fun _ _ => .inl trivial⟩

namespace Container

variable {S U : τ → Prop} {client : Client (World τ)} {w : World τ}

/-- A container that runs refuses a start. -/
theorem start_of_running (client : Client (World τ)) (h : w.container.running = true) :
    (start client).outcome w = (.error .alreadyStarted, w) := by
  simp only [start, Action.outcome_bind, Action.outcome_get, if_pos h, Action.outcome_throw]

/-- A container that does not run says that it does and resolves. If that fails it takes this
back. -/
theorem start_of_stopped (client : Client (World τ)) (h : w.container.running = false) :
    ∃ notices, (start client).outcome w =
      match (resolveAll client).outcome
        { w with container := { w.container with running := true } } with
      | (.ok _, v) => (.ok (), { v with notices })
      | (.error e, v) =>
        (.error e, { v with notices, container := { v.container with running := false } }) := by
  have hrunning : ¬ w.container.running = true := by simp [h]
  simp only [start, Action.outcome_bind, Action.outcome_get, if_neg hrunning,
    Action.outcome_setRunning, Action.outcome_attempt]
  obtain ⟨_ | _, v⟩ := (resolveAll client).outcome _
  · exact ⟨_, rfl⟩
  · exact ⟨_, rfl⟩

/-- A start leaves nothing that waits if it succeeds, and running services recorded in any case,
unless it is excused. -/
theorem start_leads (hclient : client.Reenters S) (h : w.Keeps S)
    (hrunning : w.container.running = false) :
    let out := (start client).outcome w
    out.2.Keeps S ∧ (out.1 = .ok () → out.2.Walks S fun _ => False) := by
  obtain ⟨notices, hout⟩ := start_of_stopped client hrunning
  have hleads := resolveAll_leads hclient h.tidy h.labelled
  rw [hout]
  generalize (resolveAll client).outcome _ = out at hleads
  obtain ⟨e | _, v⟩ := out
  · have hv : v.Walks S fun _ => True := hleads
    exact ⟨⟨hv.tidy.halt, hv.keeps.labelled⟩, nofun⟩
  · have hv : v.Walks S fun _ => False := hleads
    have hv : World.Walks S (fun _ => False) { v with notices } := ⟨hv.tidy, hv.walking⟩
    exact ⟨hv.keeps, fun _ => hv⟩

/-- A start keeps the container tidy and running services recorded, unless it is excused. -/
theorem start_keeps (hclient : client.Reenters S) (h : w.Keeps S) :
    ((start client).outcome w).2.Keeps S := by
  cases hrunning : w.container.running with
  | true => rwa [start_of_running client hrunning]
  | false => exact (start_leads hclient h hrunning).1

/-- Stop hooks are called one after the other. -/
theorem stopRecords_passes (hclient : client.Reenters S) (records : List Record) (w : World τ) :
    w.Passes S (stopRecords client records w).2 := by
  induction records generalizing w with
  | nil => exact .refl w
  | cons record rest ih =>
    have hdown := hclient.down record.service w
    simp only [stopRecords, bind, StateT.bind]
    generalize client.down record.service w = out at hdown
    obtain ⟨fault | _, v⟩ := out
    · have hrest := ih { v with notices := v.notices ++ [.downFailed record.label fault] }
      have htold : v.Passes S { v with notices := v.notices ++ [.downFailed record.label fault] } :=
        ⟨id, .refl _, id, fun _ _ => .inr rfl⟩
      exact hdown.trans (htold.trans hrest)
    · exact hdown.trans (ih v)

/-- Where the history is not on a stop says that the container does not run, and nothing else. -/
theorem stop_of_not_on (client : Client (World τ)) (h : w.container.history.switch ≠ .on) :
    (stop client).outcome w =
      (.ok (), { w with container := { w.container with running := false } }) := by
  have hbegin : w.container.history.beginStop? = none := by
    unfold History.beginStop?
    split
    · next hon => exact absurd hon h
    · rfl
  simp only [stop, Action.outcome_bind, Action.outcome_get, Action.outcome_setRunning, hbegin,
    Action.outcome_pure]

/-- Where the history is on a stop takes out its live records, calls their stop hooks, and lets all
services wait then. -/
theorem stop_of_on (client : Client (World τ)) (h : w.container.history.switch = .on) :
    ∃ notices,
      let stopped := stopRecords client w.container.history.live.reverse { w with
        notices
        container := { w.container with
          running := false
          history := { w.container.history.rewindToLatest with
            floor := w.container.history.records.length
            switch := .off } } }
      (stop client).outcome w =
        (match stopped.1 with | [] => .ok () | failures => .error (.stop failures),
          { stopped.2 with container := { stopped.2.container with
            storage := stopped.2.container.storage.resetRunning } }) := by
  have hbegin : w.container.history.beginStop? =
      some { w.container.history with switch := .stopping } := by
    simp only [History.beginStop?, h]
  simp only [stop, Action.outcome_bind, Action.outcome_get, Action.outcome_setRunning, hbegin,
    Action.outcome_setHistory, Action.outcome_announce, Action.outcome_attempt,
    Action.outcome_change, Action.outcome_liftExcept]
  rw [unwindAll_of_stopping client rfl]
  exact ⟨_, Prod.ext rfl rfl⟩

/-- A stop leaves the container tidy. -/
theorem stop_tidy (hclient : client.Reenters S) (h : w.container.Tidy) :
    ((stop client).outcome w).2.container.Tidy := by
  by_cases hon : w.container.history.switch = .on
  · obtain ⟨notices, hout⟩ := stop_of_on client hon
    rw [hout]
    -- The history is off before the first hook is called.
    refine have ht := (stopRecords_passes hclient _ _).tidy ?_; ht.setStorage ht.sound.resetRunning
    have hlive : w.container.history.records.drop w.container.history.records.length = [] :=
      List.drop_length
    exact ⟨h.sound, nofun, fun _ => hlive, Nat.le_refl _, nofun⟩
  · rw [stop_of_not_on client hon]
    exact h.halt

/-- A stop leaves no service that runs without a record: it lets all wait, or changes none. -/
theorem stop_labelled (client : Client (World τ)) (h : w.container.status.Labelled) :
    ((stop client).outcome w).2.container.status.Labelled := by
  by_cases hon : w.container.history.switch = .on
  · obtain ⟨notices, hout⟩ := stop_of_on client hon
    rw [hout]
    exact fun a e hget hrunning => absurd hrunning (Storage.resting_resetRunning _ hget)
  · rw [stop_of_not_on client hon]
    exact h

section

variable (hup : ∀ service signal w, World.Keeps U w → (client.up service signal w).2.Keeps U)

include hup

theorem recordAndStart_keeps (label : String) (service : Service) (h : w.Keeps U) :
    ((recordAndStart client label service).outcome w).2.Keeps U := by
  by_cases hon : w.container.history.switch = .on
  · let v : World τ := { w with container := w.container.withRecord ⟨label, service⟩ }
    have hv : v.Keeps U := ⟨h.tidy.withRecord hon _,
      h.labelled.imp_right fun hl => h.tidy.labelled_withRecord hl _⟩
    rw [recordAndStart_withRecord client hon]
    exact hup _ _ v hv
  · rwa [recordAndStart_of_not_on hon]

/-- The services among the outputs of a callable are recorded, and nothing is stored. -/
theorem startOutputs_keeps (components : List Component) (h : w.Keeps U) :
    ((startOutputs client components).outcome w).2.Keeps U := by
  induction components generalizing w with
  | nil => exact h
  | cons component rest ih =>
    simp only [startOutputs]
    cases component.service? with
    | none => exact ih h
    | some service =>
      have hv := recordAndStart_keeps hup component.type.descriptor.address.text service h
      rw [Action.outcome_bind]
      generalize (recordAndStart client _ service).outcome w = out at hv
      obtain ⟨_ | _, v⟩ := out
      · exact hv
      · exact ih hv

/-- An invocation keeps running services recorded if the start hooks that it calls do. -/
theorem invoke_keeps (hclient : client.Spares U) (callable : Callable) (h : w.Keeps U) :
    ((invoke client callable).outcome w).2.Keeps U := by
  simp only [invoke, Action.outcome_bind, Action.outcome_get]
  split
  · rw [Action.outcome_bind, Action.outcome_freshIdentity]
    have hv := call_spares hclient ⟨w.nextIdentity, callable⟩ { w with
      nextIdentity := w.nextIdentity + 1 }
    simp only [Action.outcome_bind]
    generalize (call client _).outcome _ = out at hv
    have hkeeps : out.2.Keeps U := by
      refine ⟨?_, h.labelled.imp hv.excused ?_⟩
      · rw [hv.container]
        exact h.tidy
      · rw [hv.container]
        exact id
    obtain ⟨_ | components, v⟩ := out
    · exact hkeeps
    · exact startOutputs_keeps hup components hkeeps
  · exact h

end

end Container

end Wiring
