import Wiring.Proofs.Access
import Wiring.Proofs.Representation

/-!
# What failures name

A failure names the slot or service that it is about. There are two exceptions, which have nothing to
name (`Error.Attributed`): one of the types that were asked for has no slot, or a service was to be
recorded while the history was not on, because a callback had stopped the container. What was asked for
is said of the storage that the failure leaves: a start asks for what providers need that have not run
(`Storage.Seeks`), an invocation for the parameters of its callable. A failure in the assembly of a
template names the slot of the template, in which it is stored (`Storage.Housed`), also where the
template reports that one of its own fields is missing.

Every step of a walk, whatever its callbacks do, ends so and keeps templates in their slots
(`Attributes`). So every start that has an order, every invocation and every request does, at any moment
of any run and in any depth of nesting (`Program.failures_attributed`).
-/

namespace Wiring

open World

variable {σ α β : Type}

/-! ## Templates in their slots -/

/-- If the entry is a template it is addressed by its type, and `a` is this address. -/
def Entry.Housed (a : Address) (e : Entry) : Prop :=
  ∀ t, e.payload = .template t → e.address = a ∧ t.type.slot? = some a

theorem Entry.resolved_housed (a : Address) (c : Component) : (Entry.resolved a c).Housed a := by
  intro t hpayload
  cases hpayload

/-- Every template is in the slot of its type. -/
def Storage.Housed (s : Storage) : Prop := ∀ ⦃a e⦄, s.get? a = some e → e.Housed a

namespace Storage.Housed

variable {s s' : Storage} {e : Entry} {a : Address}

theorem put (h : s.Housed) (he : e.Housed e.address) : (s.put e).Housed := by
  intro b e' hget
  rw [get?_put] at hget
  split at hget
  · next heq =>
    obtain rfl := Option.some.inj hget
    exact heq ▸ he
  · exact h hget

theorem insert (h : s.Housed) (he : e.Housed e.address) (hinsert : s.insert e = .ok s') :
    s'.Housed := by
  rcases insert_cases s e with ⟨-, heq⟩ | ⟨-, heq⟩ <;> cases heq.symm.trans hinsert
  exact h.put he

/-- A change of one entry that keeps its address and its payload. -/
theorem update (h : s.Housed) {f : Entry → Entry}
    (hf : ∀ e, (f e).address = e.address ∧ (f e).payload = e.payload) :
    Storage.Housed ⟨s.table.update a f⟩ := by
  intro b e' hget
  have hget? : (⟨s.table.update a f⟩ : Storage).get? b =
      if a = b then (s.get? b).map f else s.get? b := Table.get?_update _ _ _ _
  rw [hget?] at hget
  split at hget
  · obtain ⟨e, hget', rfl⟩ := Option.map_eq_some_iff.1 hget
    intro t hpayload
    rw [(hf e).1]
    exact h hget' t ((hf e).2 ▸ hpayload)
  · exact h hget

theorem markResolved (h : s.Housed) (a : Address) : (s.markResolved a).Housed :=
  h.update fun _ => ⟨rfl, rfl⟩

theorem setService (h : s.Housed) (a : Address) (state : ServiceState) :
    (s.setService a state).Housed :=
  h.update fun _ => ⟨rfl, rfl⟩

theorem resetRunning (h : s.Housed) : s.resetRunning.Housed := by
  intro a e' hget t hpayload
  rw [get?_resetRunning] at hget
  obtain ⟨e, hget', rfl⟩ := Option.map_eq_some_iff.1 hget
  have hrested : e.rested.address = e.address ∧ e.rested.payload = e.payload := by
    unfold Entry.rested
    split <;> exact ⟨rfl, rfl⟩
  rw [hrested.1]
  exact h hget' t (hrested.2 ▸ hpayload)

theorem insertProduct (h : s.Housed) {c : Component} (hinsert : s.insertProduct c = .ok s') :
    s'.Housed := by
  unfold Storage.insertProduct at hinsert
  split at hinsert
  · exact Except.ok.inj hinsert ▸ h
  · exact h.insert (Entry.resolved_housed _ c) hinsert

theorem add (h : s.Housed) {item : Item} (hadd : s.add item = .ok s') : s'.Housed := by
  cases item with
  | value c =>
    cases hadd
    cases hslot : c.type.slot? with
    | none => exact (insertValue_of_unaddressable hslot).symm ▸ h
    | some a =>
      rcases insertValue_cases s hslot with ⟨_, heq⟩ | ⟨_, heq⟩ <;> rw [heq]
      · exact h.put (Entry.resolved_housed a c)
      · exact h.update fun _ => ⟨rfl, rfl⟩
  | constructor c => exact h.insert (fun _ hpayload => by cases hpayload) hadd
  | template t =>
    simp only [Storage.add] at hadd
    split at hadd
    · exact Except.ok.inj hadd ▸ h
    · next a hslot =>
      refine h.insert (fun t' hpayload => ?_) hadd
      cases hpayload
      exact ⟨rfl, hslot⟩

end Storage.Housed

/-! ## Errors that name something -/

/-- What failed in the container is named, if there is something to name: a type that was asked for may
have no slot, or a service may have been refused because the container was stopped. -/
inductive Error.Attributed (asked : ComponentType → Prop) (c : Container) : Error → Prop
  | named : err.address?.isSome = true → Attributed asked c err
  | unaddressable : asked t → t.slot? = none → Attributed asked c (.unsupported t.request.name)
  | stopped : c.running = false → c.history.switch ≠ .on →
      Attributed asked c (.trackerState "record requires a running tracker")

namespace Storage

variable {s : Storage} {err : Error} {asked : ComponentType → Prop} {c : Container}

theorem lookup_attributed {t : ComponentType} (ht : asked t) (h : s.lookup t = .error err) :
    err.Attributed asked c := by
  rcases lookup_eq_error h with ⟨hslot, rfl⟩ | ⟨_, _, _, rfl⟩
  · exact .unaddressable ht (slot?_shared_eq t ▸ hslot)
  · exact .named rfl

theorem arguments_attributed {params : List ComponentType} (hasked : ∀ t ∈ params, asked t)
    (h : s.arguments params = .error err) : err.Attributed asked c := by
  obtain ⟨t, ht, hlookup | ⟨_, _, _, _, _, rfl⟩⟩ := arguments_eq_error h
  · exact lookup_attributed (hasked t ht) hlookup
  · exact .named rfl

theorem fillFields_attributed {fields : List Field} {values : FieldValues}
    (hasked : ∀ field ∈ fields, asked field.type) (h : s.fillFields fields values = .error err) :
    err.Attributed asked c := by
  obtain ⟨field, hfield, hlookup⟩ := fillFields_eq_error h
  exact lookup_attributed (hasked field hfield) hlookup

theorem insertProduct_attributed {component : Component}
    (h : s.insertProduct component = .error err) : err.Attributed asked c := by
  unfold insertProduct at h
  split at h
  · cases h
  · next a _ =>
    rcases insert_cases s (.resolved a component) with ⟨_, heq⟩ | ⟨_, heq⟩ <;>
      cases heq.symm.trans h
    exact .named rfl

end Storage

/-- An error in the assembly of a template names something, whichever error it is. -/
theorem Container.assemblyError_attributed (a : Address) (err : Error)
    (asked : ComponentType → Prop) (c : Container) : (assemblyError a err).Attributed asked c := by
  cases err <;> exact .named rfl

/-! ## Worlds -/

/-- Templates are in their slots, and while the container runs its history is on. -/
structure Container.Housed (c : Container) : Prop where
  storage : c.storage.Housed
  on_of_running : c.running = true → c.history.switch = .on

namespace Container.Housed

variable {c : Container}

theorem setStorage (h : c.Housed) {s : Storage} (hs : s.Housed) : { c with storage := s }.Housed :=
  ⟨hs, h.on_of_running⟩

theorem halt (h : c.Housed) : { c with running := false }.Housed := ⟨h.storage, nofun⟩

theorem turnOn (h : c.Housed) {history : History} (hturn : c.history.turnOn = .ok history) :
    { c with running := true, history }.Housed := by
  refine ⟨h.storage, fun _ => ?_⟩
  unfold History.turnOn at hturn
  split at hturn
  · cases hturn
    rfl
  all_goals cases hturn

end Container.Housed

theorem Container.new_housed (config : ContainerConfig) (context : Context) (token : Token) :
    (Container.new config context token).Housed := by
  have hseeds := Storage.addAll_induction (p := Storage.Housed) (fun hs => hs.add)
    (seeds context token) (s := .empty) nofun
  rw [storage_new config context token] at hseeds
  exact ⟨hseeds, nofun⟩

/-- The container is housed, and of the moments so far `P` holds. -/
structure World.Housed (P : Moment → Prop) (w : World (Logged σ)) : Prop where
  container : w.container.Housed
  moments : ∀ m ∈ w.host.moments, P m

/-- A computation that keeps the container housed. -/
def World.Houses (P : Moment → Prop) (x : StateM (World (Logged σ)) α) : Prop :=
  ∀ ⦃w⦄, w.Housed P → (x w).2.Housed P

/-- The callbacks of a program keep the container housed, whatever they do to it. -/
structure Client.Houses (P : Moment → Prop) (client : Client (World (Logged σ))) : Prop where
  construct : ∀ c args, World.Houses P (client.construct c args)
  supply : ∀ c position, World.Houses P (client.supply c position)
  assemble : ∀ t values, World.Houses P (client.assemble t values)
  up : ∀ service signal, World.Houses P (client.up service signal)
  down : ∀ service, World.Houses P (client.down service)

/-- An action keeps the container housed, and if it fails the error names what failed, or one of the
types that were asked for has no slot. Which ones these are is said of the storage that it leaves. -/
structure Attributes (P : Moment → Prop) (asked : Storage → ComponentType → Prop)
    (out : Except Error α × World (Logged σ)) : Prop where
  housed : out.2.Housed P
  attributed : ∀ ⦃err⦄, out.1 = .error err →
    err.Attributed (asked out.2.container.storage) out.2.container

namespace Attributes

variable {P : Moment → Prop} {asked : Storage → ComponentType → Prop} {w : World (Logged σ)}

theorem ok (h : w.Housed P) (a : α) : Attributes P asked (Except.ok a, w) := ⟨h, nofun⟩

theorem error (h : w.Housed P) {err : Error}
    (herr : err.Attributed (asked w.container.storage) w.container) :
    Attributes P asked ((Except.error err : Except Error α), w) :=
  ⟨h, fun _ heq => Except.error.inj heq ▸ herr⟩

/-- Where an action succeeds the next one goes on. -/
theorem bind {x : Action (Logged σ) α} {f : α → Action (Logged σ) β}
    (h : Attributes P asked (x.outcome w))
    (hnext : ∀ a v, v.Housed P → Attributes P asked ((f a).outcome v)) :
    Attributes P asked ((x >>= f).outcome w) := by
  rw [Action.outcome_bind]
  obtain ⟨hhoused, hattributed⟩ := h
  generalize x.outcome w = out at hhoused hattributed
  obtain ⟨err | a, v⟩ := out
  · exact .error hhoused (hattributed rfl)
  · exact hnext a v hhoused

end Attributes

namespace Container

variable {P : Moment → Prop} {asked : Storage → ComponentType → Prop}
  {client : Client (World (Logged σ))} {w : World (Logged σ)}

/-! ## The walk of a start -/

theorem recordAndStart_attributes (hclient : client.Houses P) (label : String) (service : Service)
    (h : w.Housed P) : Attributes P asked ((recordAndStart client label service).outcome w) := by
  by_cases hon : w.container.history.switch = .on
  · rw [recordAndStart_withRecord client hon]
    have hrecorded : World.Housed P { w with container := w.container.withRecord ⟨label, service⟩ } :=
      ⟨⟨h.container.storage, fun _ => hon⟩, h.moments⟩
    refine ⟨hclient.up service _ hrecorded, fun err herr => ?_⟩
    dsimp only at herr
    generalize client.up service _ _ = out at herr
    obtain ⟨fault | _, _⟩ := out <;> cases herr
    exact .named rfl
  · rw [recordAndStart_of_not_on hon]
    have hstopped : w.container.running = false := Bool.eq_false_iff.2 (hon ∘ h.container.on_of_running)
    exact .error h (.stopped hstopped hon)

theorem startService_attributes (hclient : client.Houses P) (a : Address) (service : Service)
    (h : w.Housed P) : Attributes P asked ((startService client a service).outcome w) :=
  (recordAndStart_attributes hclient a.text service h).bind fun _ _ hv =>
    ⟨⟨hv.container.setStorage (hv.container.storage.setService a .runningUp), hv.moments⟩, nofun⟩

theorem absorb_attributes (hclient : client.Houses P) (component : Component) (h : w.Housed P) :
    Attributes P asked ((absorb client component).outcome w) := by
  simp only [absorb, Action.outcome_bind, Action.outcome_get, Action.outcome_liftExcept]
  cases hinsert : w.container.storage.insertProduct component with
  | error err => exact .error h (Storage.insertProduct_attributed hinsert)
  | ok storage =>
    have hv : World.Housed P { w with container := { w.container with storage } } :=
      ⟨h.container.setStorage (h.container.storage.insertProduct hinsert), h.moments⟩
    simp only [Action.outcome_setStorage]
    split
    · exact startService_attributes hclient _ _ hv
    · exact .ok hv ()

theorem absorbAll_attributes (hclient : client.Houses P) (components : List Component)
    (h : w.Housed P) : Attributes P asked ((absorbAll client components).outcome w) := by
  induction components generalizing w with
  | nil => exact .ok h ()
  | cons component rest ih =>
    exact (absorb_attributes hclient component h).bind fun _ _ hv => ih hv

theorem supplyFrom_houses (hclient : client.Houses P) (c : Constructor) (position : Nat)
    (outputs : List ComponentType) : World.Houses P (supplyFrom client c position outputs) := by
  induction outputs generalizing position with
  | nil => exact fun _ h => h
  | cons t rest ih => exact fun _ h => ih _ (hclient.supply c position h)

theorem call_attributes (hclient : client.Houses P) (c : Constructor) (h : w.Housed P)
    (hasked : ∀ t ∈ c.callable.params, asked w.container.storage t) :
    Attributes P asked ((call client c).outcome w) := by
  simp only [call, Action.outcome_bind, Action.outcome_get, Action.outcome_liftExcept]
  cases hargs : w.container.storage.arguments c.callable.params with
  | error err => exact .error h (Storage.arguments_attributed hasked hargs)
  | ok args =>
    have hv := hclient.construct c args h
    simp only [Action.outcome_liftM]
    cases (client.construct c args w).1 with
    | error fault => exact .error hv (.named rfl)
    | ok _ => exact .ok (supplyFrom_houses hclient c 0 _ hv) _

theorem runConstructor_attributes (hclient : client.Houses P) (a : Address) (c : Constructor)
    (h : w.Housed P) (hasked : ∀ t ∈ c.callable.params, asked w.container.storage t) :
    Attributes P asked ((runConstructor client a c).outcome w) := by
  refine (call_attributes hclient c h hasked).bind fun components v hv => ?_
  simp only [Action.outcome_bind, Action.outcome_change]
  exact absorbAll_attributes hclient components
    ⟨hv.container.setStorage (hv.container.storage.markResolved a), hv.moments⟩

theorem runTemplate_attributes (hclient : client.Houses P) (a : Address) (t : Template)
    (h : w.Housed P) (hasked : ∀ field ∈ t.fields, asked w.container.storage field.type) :
    Attributes P asked ((runTemplate client a t).outcome w) := by
  simp only [runTemplate, Action.outcome_bind, Action.outcome_get, Action.outcome_liftExcept]
  cases hfill : w.container.storage.fillFields t.fields (FieldValues.empty a) with
  | error err => exact .error h (Storage.fillFields_attributed hasked hfill)
  | ok values =>
    have hv := hclient.assemble t values h
    simp only [Action.outcome_lift]
    cases (client.assemble t values w).1 with
    | error err => exact .error hv (assemblyError_attributed a err _ _)
    | ok product => exact absorb_attributes hclient _ hv

theorem settle_attributes (hclient : client.Houses P) (e : Entry) (h : w.Housed P)
    (hasked : e.isResolved = false → ∀ t ∈ e.requirements, asked w.container.storage t) :
    Attributes P asked ((settle client e).outcome w) := by
  unfold settle
  split_ifs with _ hres
  · exact .error h (.named rfl)
  · split
    · exact startService_attributes hclient _ _ h
    · exact .error h (.named rfl)
  · exact .ok h ()
  · replace hasked := hasked (Bool.eq_false_iff.2 hres)
    split
    · next c hpayload =>
      rw [Entry.requirements, hpayload] at hasked
      exact runConstructor_attributes hclient _ c h hasked
    · next t hpayload =>
      rw [Entry.requirements, hpayload] at hasked
      exact runTemplate_attributes hclient _ t h fun _ hfield =>
        hasked _ (List.mem_map_of_mem hfield)
    · exact .ok h ()

/-- A provider is asked for its requirements while it is still stored and has not run. -/
theorem settleAll_attributes (hclient : client.Houses P) (order : List Address) (h : w.Housed P) :
    Attributes P Storage.Seeks ((settleAll client order).outcome w) := by
  induction order generalizing w with
  | nil => exact .ok h ()
  | cons a rest ih =>
    unfold settleAll
    rw [Action.outcome_bind, Action.outcome_get]
    dsimp only
    cases hget : w.container.storage.get? a with
    | none => exact ih h
    | some e =>
      have hseeks : e.isResolved = false → ∀ t ∈ e.requirements, w.container.storage.Seeks t :=
        fun hres t ht => ⟨a, e, hget, hres, ht⟩
      exact (settle_attributes hclient e h hseeks).bind fun _ _ hv => ih hv

end Container

/-! ## Operations -/

/-- The world in which a start walks along an order. -/
def World.underway (w : World σ) (history : History) (order : List Address) : World σ :=
  { w with
    container := { w.container with running := true, history }
    notices := if w.container.config.logOrder then
      w.notices ++ [.orderResolved w.container.config.name order] else w.notices }

namespace Container

section

variable (client : Client (World σ)) {w : World σ} {history : History} {order : List Address}

/-- Where there is an order, resolving is a walk along it. -/
theorem resolveAll_of_ordered (hturn : w.container.history.turnOn = .ok history)
    (horder : w.container.storage.graph.order = .ok order) :
    (resolveAll client).outcome { w with container := { w.container with running := true } } =
      match (settleAll client order).outcome (w.underway history order) with
      | (.error err, v) => (.error err, v)
      | (.ok _, v) => (.ok (), { v with
        container := { v.container with history := v.container.history.rewindToLatest } }) := by
  have hwalk (notices : List Notice) :
      Action.outcome (do
          settleAll client order
          change fun c => { c with history := c.history.rewindToLatest })
        { w with container := { w.container with running := true, history }, notices } =
      match (settleAll client order).outcome
        { w with container := { w.container with running := true, history }, notices } with
      | (.error err, v) => (.error err, v)
      | (.ok _, v) => (.ok (), { v with
        container := { v.container with history := v.container.history.rewindToLatest } }) := by
    rw [Action.outcome_bind]
    obtain ⟨_ | _, v⟩ := (settleAll client order).outcome _ <;> rfl
  simp only [resolveAll, Action.outcome_bind, Action.outcome_get, Action.outcome_liftExcept, hturn,
    Action.outcome_setHistory, horder]
  unfold World.underway
  split
  · rw [Action.outcome_bind, Action.outcome_announce]
    exact hwalk _
  · exact hwalk _

/-- Where the history cannot be turned on, a start does nothing but fail. -/
theorem start_of_refused {err : Error} (hrunning : w.container.running = false)
    (hturn : w.container.history.turnOn = .error err) :
    ∃ notices, (start client).outcome w =
      (.error err, { w with notices, container := { w.container with running := false } }) := by
  obtain ⟨notices, hout⟩ := start_of_stopped client hrunning
  simp only [resolveAll, Action.outcome_bind, Action.outcome_get, Action.outcome_liftExcept,
    hturn] at hout
  exact ⟨notices, hout⟩

/-- Where there is no order, a start fails with the history on. -/
theorem start_of_unordered {err : Error} (hrunning : w.container.running = false)
    (hturn : w.container.history.turnOn = .ok history)
    (horder : w.container.storage.graph.order = .error err) :
    ∃ notices, (start client).outcome w =
      (.error err, { w with
        notices
        container := { w.container with running := false, history } }) := by
  obtain ⟨notices, hout⟩ := start_of_stopped client hrunning
  simp only [resolveAll, Action.outcome_bind, Action.outcome_get, Action.outcome_liftExcept, hturn,
    Action.outcome_setHistory, horder] at hout
  exact ⟨notices, hout⟩

/-- Where there is an order, a start is a walk along it. -/
theorem start_of_ordered (hrunning : w.container.running = false)
    (hturn : w.container.history.turnOn = .ok history)
    (horder : w.container.storage.graph.order = .ok order) :
    ∃ notices, (start client).outcome w =
      match (settleAll client order).outcome (w.underway history order) with
      | (.error err, v) =>
        (.error err, { v with notices, container := { v.container with running := false } })
      | (.ok _, v) => (.ok (), { v with
        notices
        container := { v.container with history := v.container.history.rewindToLatest } }) := by
  obtain ⟨notices, hout⟩ := start_of_stopped client hrunning
  refine ⟨notices, ?_⟩
  rw [hout, resolveAll_of_ordered client hturn horder]
  obtain ⟨_ | _, v⟩ := (settleAll client order).outcome (w.underway history order) <;> rfl

/-- A walk goes on where it succeeded. -/
theorem settleAll_append (passed rest : List Address) (w : World σ) :
    (settleAll client (passed ++ rest)).outcome w =
      match (settleAll client passed).outcome w with
      | (.ok _, v) => (settleAll client rest).outcome v
      | (.error err, v) => (.error err, v) := by
  induction passed generalizing w with
  | nil => rfl
  | cons a passed ih =>
    simp only [List.cons_append, settleAll, Action.outcome_bind, Action.outcome_get]
    cases w.container.storage.get? a with
    | none => exact ih w
    | some e =>
      simp only [Action.outcome_bind]
      obtain ⟨_ | _, v⟩ := (settle client e).outcome w
      · rfl
      · exact ih v

end

section

variable {P : Moment → Prop} {asked : Storage → ComponentType → Prop}
  {client : Client (World (Logged σ))} {w : World (Logged σ)}

theorem start_attributes (hclient : client.Houses P) (h : w.Housed P) {history : History}
    {order : List Address} (hrunning : w.container.running = false)
    (hturn : w.container.history.turnOn = .ok history)
    (horder : w.container.storage.graph.order = .ok order) :
    Attributes P Storage.Seeks ((start client).outcome w) := by
  obtain ⟨notices, hout⟩ := start_of_ordered client hrunning hturn horder
  have hwalk := settleAll_attributes hclient order
    (show (w.underway history order).Housed P from ⟨h.container.turnOn hturn, h.moments⟩)
  rw [hout]
  generalize (settleAll client order).outcome _ = out at hwalk
  obtain ⟨hhoused, hattributed⟩ := hwalk
  obtain ⟨err | _, v⟩ := out
  · refine ⟨⟨hhoused.container.halt, hhoused.moments⟩, fun err' herr => ?_⟩
    obtain rfl : err = err' := Except.error.inj herr
    cases hattributed rfl with
    | named hnamed => exact .named hnamed
    | unaddressable hseeks hslot => exact .unaddressable hseeks hslot
    | stopped _ hoff => exact .stopped rfl hoff
  · exact ⟨⟨⟨hhoused.container.storage, hhoused.container.on_of_running⟩, hhoused.moments⟩, nofun⟩

theorem start_housed (hclient : client.Houses P) (h : w.Housed P) :
    ((start client).outcome w).2.Housed P := by
  cases hrunning : w.container.running with
  | true => rwa [start_of_running client hrunning]
  | false =>
    cases hturn : w.container.history.turnOn with
    | error err =>
      obtain ⟨notices, hout⟩ := start_of_refused client hrunning hturn
      rw [hout]
      exact ⟨h.container.halt, h.moments⟩
    | ok history =>
      cases horder : w.container.storage.graph.order with
      | error err =>
        obtain ⟨notices, hout⟩ := start_of_unordered client hrunning hturn horder
        rw [hout]
        exact ⟨(h.container.turnOn hturn).halt, h.moments⟩
      | ok order => exact (start_attributes hclient h hrunning hturn horder).housed

theorem startOutputs_attributes (hclient : client.Houses P) (components : List Component)
    (h : w.Housed P) : Attributes P asked ((startOutputs client components).outcome w) := by
  induction components generalizing w with
  | nil => exact .ok h ()
  | cons component rest ih =>
    simp only [startOutputs]
    cases component.service? with
    | none => exact ih h
    | some service =>
      exact (recordAndStart_attributes hclient _ service h).bind fun _ _ hv => ih hv

theorem invoke_attributes (hclient : client.Houses P) (callable : Callable) (h : w.Housed P)
    (hrunning : w.container.running = true) :
    Attributes P (fun _ t => t ∈ callable.params) ((invoke client callable).outcome w) := by
  rw [invoke, Action.outcome_bind, Action.outcome_get]
  dsimp only
  rw [if_pos hrunning, Action.outcome_bind, Action.outcome_freshIdentity]
  have hv : World.Housed P { w with nextIdentity := w.nextIdentity + 1 } := ⟨h.container, h.moments⟩
  refine Attributes.bind ?_ fun components _ hu => startOutputs_attributes hclient components hu
  exact call_attributes hclient ⟨w.nextIdentity, callable⟩ hv fun _ ht => ht

theorem stopRecords_houses (hclient : client.Houses P) (records : List Record) :
    World.Houses P (stopRecords client records) := by
  induction records with
  | nil => exact fun _ h => h
  | cons record rest ih =>
    intro w h
    have hdown := hclient.down record.service h
    simp only [stopRecords, bind, StateT.bind]
    generalize client.down record.service w = out at hdown
    obtain ⟨fault | _, v⟩ := out
    · exact ih (w := { v with notices := v.notices ++ [.downFailed record.label fault] })
        ⟨hdown.container, hdown.moments⟩
    · exact ih hdown

theorem stop_housed (hclient : client.Houses P) (h : w.Housed P) :
    ((stop client).outcome w).2.Housed P := by
  by_cases hon : w.container.history.switch = .on
  · obtain ⟨notices, hout⟩ := stop_of_on client hon
    rw [hout]
    have hstopped := stopRecords_houses hclient w.container.history.live.reverse (w := { w with
      notices
      container := { w.container with
        running := false
        history := { w.container.history.rewindToLatest with
          floor := w.container.history.records.length
          switch := .off } } }) ⟨⟨h.container.storage, nofun⟩, h.moments⟩
    exact ⟨hstopped.container.setStorage hstopped.container.storage.resetRunning, hstopped.moments⟩
  · rw [stop_of_not_on client hon]
    exact ⟨h.container.halt, h.moments⟩

/-! ## Assemblies that fail -/

/-- An entry that is a template is settled with the error of its assembly. -/
theorem settle_of_unassembled {e : Entry} {t : Template} {values : FieldValues} {err : Error}
    (hpayload : e.payload = .template t) (hres : e.isResolved = false) (hshadowed : e.shadowed = 0)
    (hvalues : w.container.storage.fillFields t.fields (.empty e.address) = .ok values)
    (hassemble : (client.assemble t values w).1 = .error err) :
    ((settle client e).outcome w).1 = .error (assemblyError e.address err) := by
  have hunresolved : ¬ e.isResolved = true := by simp [hres]
  rw [settle, if_neg (not_not_intro hshadowed), if_neg hunresolved, hpayload]
  dsimp only
  rw [runTemplate_outcome, hvalues]
  simp only [assembleWith, Action.outcome_bind, Action.outcome_lift, hassemble]
  rfl

/-- A walk comes to a template, and its assembly fails. -/
structure Unassembled (client : Client (World (Logged σ))) (w : World (Logged σ))
    (order : List Address) (a : Address) (t : Template) (values : FieldValues) (err : Error) :
    Prop where
  reached : ∃ passed rest v e, order = passed ++ a :: rest ∧
    (settleAll client passed).outcome w = (.ok (), v) ∧ v.container.storage.get? a = some e ∧
      e.payload = .template t ∧ e.isResolved = false ∧ e.shadowed = 0 ∧
        v.container.storage.fillFields t.fields (.empty a) = .ok values ∧
          (client.assemble t values v).1 = .error err

/-- Then the walk fails with the error of this assembly. -/
theorem settleAll_of_unassembled (hclient : client.Houses P) {order : List Address} {a : Address}
    {t : Template} {values : FieldValues} {err : Error} (h : w.Housed P)
    (hfails : Unassembled client w order a t values err) :
    t.type.slot? = some a ∧
      ((settleAll client order).outcome w).1 = .error (assemblyError a err) := by
  obtain ⟨passed, rest, v, e, rfl, hpassed, hget, hpayload, hres, hshadowed, hvalues, hassemble⟩ :=
    hfails.reached
  have hv : v.Housed P := by
    have hwalk := (settleAll_attributes hclient passed h).housed
    rwa [hpassed] at hwalk
  obtain ⟨rfl, hslot⟩ := hv.container.storage hget t hpayload
  have hsettle := settle_of_unassembled hpayload hres hshadowed hvalues hassemble
  refine ⟨hslot, ?_⟩
  rw [settleAll_append, hpassed]
  simp only [settleAll, Action.outcome_bind, Action.outcome_get, hget]
  generalize (settle client e).outcome v = out at hsettle
  obtain ⟨result, v'⟩ := out
  obtain rfl : result = _ := hsettle
  rfl

end

end Container

/-! ## Missing fields -/

theorem Storage.template_of_fillFields {s : Storage} {fields : List Field} {v values : FieldValues}
    (h : s.fillFields fields v = .ok values) : values.template = v.template := by
  induction fields generalizing v with
  | nil => exact Except.ok.inj h ▸ rfl
  | cons field fields ih =>
    simp only [fillFields, bind, Except.bind] at h
    split at h
    · cases h
    · exact (ih h).trans rfl

theorem FieldValues.template_takeAll (v : FieldValues) (others : List (ComponentType × String)) :
    (v.takeAll others).template = v.template := by
  induction others generalizing v with
  | nil => rfl
  | cons other others ih =>
    rw [takeAll, ih]
    unfold take
    split
    · rfl
    · split <;> rfl

/-- A field that is missing when it is taken is reported for the template. -/
theorem FieldValues.missingField_of_take {v : FieldValues} {t : ComponentType}
    {name field : String} {b : Address} (h : (v.take t name).1 = .error (.missingField b field)) :
    b = v.template := by
  unfold take at h
  split at h
  · cases h
    rfl
  · split at h <;> cases h

/-! ## Runs -/

namespace Operation

variable {P : Moment → Prop} {w : World (Logged σ)}

/-- Whatever is done, the container stays housed. -/
theorem act_housed {client : Client (World (Logged σ))} (hclient : client.Houses P)
    (op : Operation) (h : w.Housed P) : ((op.act client).outcome w).2.Housed P := by
  cases op with
  | register items =>
    rw [register_outcome]
    cases hrunning : w.container.running with
    | true =>
      rw [Container.registering, if_pos hrunning]
      exact h
    | false =>
      rw [Container.registering_stopped hrunning]
      have hadded := Storage.addAll_induction (fun hs => hs.add) items h.container.storage
      exact ⟨h.container.setStorage hadded, h.moments⟩
  | start =>
    rw [act, Action.outcome_bind_pure]
    exact Container.start_housed hclient h
  | invoke callable =>
    rw [act, Action.outcome_bind_pure]
    cases hrunning : w.container.running with
    | true => exact (Container.invoke_attributes hclient callable h hrunning).housed
    | false =>
      simp only [Container.invoke, Action.outcome_bind, Action.outcome_get, hrunning,
        Bool.false_eq_true, if_false, Action.outcome_throw]
      exact h
  | resolve t =>
    rw [resolve_outcome]
    exact h
  | stop =>
    rw [act, Action.outcome_bind_pure]
    exact Container.stop_housed hclient h

end Operation

section

variable {P : Moment → Prop}

theorem Script.run_houses {perform : Performer σ} (hperform : ∀ op, World.Houses P (perform op))
    (script : Script σ α) : World.Houses P (script.run perform) := by
  induction script with
  | finish state answer => exact fun _ h => ⟨h.container, h.moments⟩
  | look next ih => exact fun w h => ih w.host.state w.container h
  | perform state op next ih =>
    intro w h
    exact ih _ (hperform op (w := { w with host := { w.host with state } }) ⟨h.container, h.moments⟩)

variable (hP : ∀ m : Moment, m.container.Housed → P m)

include hP

theorem World.logging_houses {callback : StateM (World (Logged σ)) α} {call : Container → α → Call}
    (hcallback : World.Houses P callback) : World.Houses P (World.logging callback call) := by
  intro w h
  have hafter := hcallback (w := { w with host := ⟨w.host.state, []⟩ }) ⟨h.container, nofun⟩
  refine ⟨hafter.container, fun m hmem => ?_⟩
  rcases List.mem_append.1 hmem with hbefore | hmem
  · exact h.moments m hbefore
  · rcases List.mem_cons.1 hmem with rfl | hmem
    · exact hP _ h.container
    · exact hafter.moments m hmem

theorem Program.client_houses (program : Program σ) {perform : Performer σ}
    (hperform : ∀ op, World.Houses P (perform op)) : (program.client perform).Houses P where
  construct c args := logging_houses hP (Script.run_houses hperform (program.construct c args))
  supply c position := logging_houses hP (Script.run_houses hperform (program.supply c position))
  assemble t values := logging_houses hP (Script.run_houses hperform (program.assemble t values))
  up service signal := logging_houses hP (Script.run_houses hperform (program.up service signal))
  down service := logging_houses hP (Script.run_houses hperform (program.down service))

theorem Operation.conclude_houses {client : Client (World (Logged σ))} (hclient : client.Houses P)
    (op : Operation) : World.Houses P (Operation.conclude client op) := by
  intro w h
  have hact := op.act_housed hclient h
  refine ⟨hact.container, fun m hmem => ?_⟩
  rcases List.mem_append.1 hmem with hbefore | hmem
  · exact hact.moments m hbefore
  · obtain rfl := List.mem_singleton.1 hmem
    exact hP _ hact.container

theorem Program.nested_houses (program : Program σ) (depth : Nat) :
    (program.nested depth).Houses P := by
  induction depth with
  | zero => exact program.client_houses hP fun _ _ h => h
  | succ depth ih =>
    refine program.client_houses hP fun op => ?_
    rw [perform_eq]
    exact Operation.conclude_houses hP ih op

theorem Program.playOut_housed (program : Program σ) (depth : Nat) (ops : List Operation)
    {w : World (Logged σ)} (h : w.Housed P) : (program.playOut depth w ops).Housed P := by
  induction ops generalizing w with
  | nil => exact h
  | cons op ops ih =>
    refine ih ?_
    rw [perform_eq]
    exact Operation.conclude_houses hP (program.nested_houses hP depth) op h

end

/-- How operations of a program fail on the container of this world. -/
structure World.Accountable (client : Client (World (Logged σ))) (w : World (Logged σ)) : Prop where
  /-- A start that has an order. It asks for what providers need that still have not run. -/
  start : ∀ history order err, w.container.running = false →
    w.container.history.turnOn = .ok history → w.container.storage.graph.order = .ok order →
      ((Container.start client).outcome w).1 = .error err →
        let after := ((Container.start client).outcome w).2.container
        err.Attributed after.storage.Seeks after
  /-- An invocation while the container runs. It asks for the parameters of the callable. -/
  invoke : ∀ callable err, w.container.running = true →
    ((Container.invoke client callable).outcome w).1 = .error err →
      err.Attributed (· ∈ callable.params) ((Container.invoke client callable).outcome w).2.container
  /-- A request while the container runs. -/
  resolve : ∀ t err, w.container.running = true → ((Container.resolve t).outcome w).1 = .error err →
    err.address?.isSome = true ∨ t.slot? = none ∧ err = .unsupported t.request.name
  /-- A start that comes to a template whose assembly fails. The error names the slot of the template.
  That one of its own fields is missing is reported as it is, and whenever its field values report a
  missing field it is one of its own. -/
  assembly : ∀ history order a t values err, w.container.running = false →
    w.container.history.turnOn = .ok history → w.container.storage.graph.order = .ok order →
      Container.Unassembled client (w.underway history order) order a t values err →
        t.type.slot? = some a ∧
          match err with
          | .missingField b field =>
            (b = a → ((Container.start client).outcome w).1 = .error (.missingField a field)) ∧
              ∀ t' name others,
                ((values.takeAll others).take t' name).1 = .error (.missingField b field) → b = a
          | err => ((Container.start client).outcome w).1 = .error (.assemblyFailed a err)

/-- Where the container is housed, every failure is accounted for. -/
theorem World.Housed.accountable {P : Moment → Prop} {client : Client (World (Logged σ))}
    {w : World (Logged σ)} (hclient : client.Houses P) (h : w.Housed P) : w.Accountable client where
  start history order err hrunning hturn horder herr :=
    (Container.start_attributes hclient h hrunning hturn horder).attributed herr
  invoke callable err hrunning herr :=
    (Container.invoke_attributes hclient callable h hrunning).attributed herr
  resolve t err hrunning herr := by
    rw [Container.resolve_outcome, Container.answer, if_pos hrunning] at herr
    cases hlookup : w.container.storage.lookup t with
    | error e =>
      rw [hlookup] at herr
      obtain rfl : e = err := Except.error.inj herr
      rcases Storage.lookup_eq_error hlookup with ⟨hslot, rfl⟩ | ⟨_, _, _, rfl⟩
      · exact .inr ⟨Storage.slot?_shared_eq t ▸ hslot, rfl⟩
      · exact .inl rfl
    | ok found =>
      rw [hlookup] at herr
      simp only [bind, Except.bind, Component.answer] at herr
      split at herr <;> cases herr
      exact .inl rfl
  assembly history order a t values err hrunning hturn horder hfails := by
    obtain ⟨hslot, hwalk⟩ := Container.settleAll_of_unassembled hclient
      (show (w.underway history order).Housed P from ⟨h.container.turnOn hturn, h.moments⟩) hfails
    obtain ⟨notices, hout⟩ := Container.start_of_ordered client hrunning hturn horder
    have hstart : ((Container.start client).outcome w).1 = .error (Container.assemblyError a err) := by
      rw [hout]
      generalize (Container.settleAll client order).outcome _ = out at hwalk
      obtain ⟨result, v⟩ := out
      obtain rfl : result = _ := hwalk
      rfl
    refine ⟨hslot, ?_⟩
    cases err with
    | missingField b field =>
      refine ⟨fun hown => hown ▸ hstart, fun t' name others htake => ?_⟩
      obtain ⟨_, _, v, _, _, _, _, _, _, _, hvalues, _⟩ := hfails.reached
      rw [FieldValues.missingField_of_take htake, FieldValues.template_takeAll,
        Storage.template_of_fillFields hvalues]
      rfl
    | _ => exact hstart

/-- At every moment of every run, whatever its callbacks answer and whichever operations they perform in
turn: a start that has an order, an invocation or a request that fails names the slot or service it is
about, unless one of the types that it asked for has no slot or the container was stopped meanwhile; and
a failed assembly is named by the slot of its template, whatever its error is. Only of a missing field
that the template reports for another slot nothing is said. -/
theorem Program.failures_attributed (program : Program σ) (depth : Nat) (config : ContainerConfig)
    (context : Context) (token : Token) (nextIdentity : Identity) (host : σ) (ops : List Operation) :
    ∀ m ∈ program.moments depth (.fresh config context token nextIdentity host) ops,
      ∀ (nesting : Nat) (w : World (Logged σ)), w.container = m.container →
        w.Accountable (program.nested nesting) := by
  have hnew := Container.new_housed config context token
  have hrun := program.playOut_housed (P := fun m => m.container.Housed) (fun _ => id) depth ops
    (w := (World.fresh config context token nextIdentity host).unlogged) ⟨hnew, nofun⟩
  intro m hmem nesting w hw
  have hm : m.container.Housed := by
    rcases List.mem_cons.1 hmem with rfl | hmem
    · exact hnew
    · exact hrun.moments m hmem
  exact World.Housed.accountable (P := fun _ => True)
    (program.nested_houses (fun _ _ => trivial) nesting) ⟨hw ▸ hm, fun _ _ => trivial⟩

/-- A program whose templates cannot be assembled: their assembly returns an error. -/
def Program.unassembling (err : Error) : Program Unit where
  construct _ _ := .finish () (.ok ())
  supply _ _ := .finish () ⟨.made 0, none⟩
  assemble _ _ := .finish () (.error err)
  up _ _ := .finish () (.ok ())
  down _ := .finish () (.ok ())

/-- The operations are performed on a new container of such a program. -/
def Program.unassembled (err : Error) (ops : List Operation) : List Moment :=
  (unassembling err).moments 0 (.fresh default (.root 0) ⟨1⟩ 1 ()) ops

/-- A template without fields. -/
def Template.report : Template := ⟨.ofName "app::Report", [], 0⟩

theorem Program.failures_attributed_report :
    let err := Error.configInvalid "no totals"
    ∃ m ∈ unassembled err [.register [.template .report]],
      ∀ w : World (Logged Unit), w.container = m.container →
        ((Container.start ((unassembling err).nested 0)).outcome w).1 =
          .error (.assemblyFailed ⟨"app.Report"⟩ err) := by
  intro err
  let rest : List Address := [⟨"bootkit::cancellation.Context"⟩,
    ⟨"tokio_util::sync::cancellation_token.CancellationToken"⟩]
  let run := unassembled err [.register [.template .report]]
  have hlast : run.getLast?.map (fun m => (m.container.running, m.container.history.switch,
      m.container.storage.get? ⟨"app.Report"⟩, m.container.storage.graph.order.toOption)) =
        some (false, .off, some (.provider ⟨"app.Report"⟩ (.template .report)),
          some (⟨"app.Report"⟩ :: rest)) := by
    decide +kernel
  obtain ⟨m, hm, hfacts⟩ := Option.map_eq_some_iff.1 hlast
  have hmem : m ∈ run := List.mem_of_getLast? hm
  refine ⟨m, hmem, fun w hw => ?_⟩
  have haccountable := failures_attributed (unassembling err) 0 default (.root 0) ⟨1⟩ 1 ()
    [.register [.template .report]] m hmem 0 w hw
  rw [← hw] at hfacts
  simp only [Prod.mk.injEq] at hfacts
  obtain ⟨hrunning, hswitch, hget, horder⟩ := hfacts
  let history : History := { w.container.history with switch := .on }
  have hturn : w.container.history.turnOn = .ok history := by
    rw [History.turnOn, hswitch]
  have hfails : Container.Unassembled ((unassembling err).nested 0)
      (w.underway history (⟨"app.Report"⟩ :: rest)) (⟨"app.Report"⟩ :: rest) ⟨"app.Report"⟩ .report
      (.empty ⟨"app.Report"⟩) err :=
    ⟨[], rest, _, _, rfl, rfl, hget, rfl, rfl, rfl, rfl, rfl⟩
  exact (haccountable.assembly _ _ _ _ _ _ hrunning hturn (eq_ok_of_toOption horder) hfails).2

/-- What the error of the operation that fails at a moment names, and its message. -/
def Moment.failure? (m : Moment) : Option (Option String × String) :=
  match m.event with
  | .ends _ (.error err) => some (err.address?, err.message)
  | _ => none

/-- The exceptions occur. A request for an error on a container that runs names nothing, nor does a start
with a constructor that needs one, nor a start whose first hook stops the container. -/
theorem Program.failures_not_attributed :
    let fault : ComponentType := ⟨"core::io::error::Error", .error "core::io::error::Error"⟩
    let run := tripping.moments 1 (.fresh default (.root 0) ⟨1⟩ 1 true)
    (run [.start, .resolve fault]).filterMap
        (fun m => m.failure?.map fun failure => (m.container.running, failure)) =
      [(true, none, "dependency is not supported: alloc::sync::Arc<core::io::error::Error>")] ∧
    (run [.register [.constructor ⟨0, ⟨[fault], [], 1⟩⟩], .start]).filterMap Moment.failure? =
      [(none, "dependency is not supported: alloc::sync::Arc<core::io::error::Error>")] ∧
    (run [.register Item.pair, .start]).filterMap Moment.failure? =
      [(none, "service history: record requires a running tracker")] := by
  decide +kernel

end Wiring
