import Wiring.Proofs.Precedence
import Wiring.Proofs.Settled

/-!
# Restarts

A start with success leaves a storage in which nothing is left to be run (`Storage.Finished`): every
entry is resolved, and there is an order, since the graph gained no edges between slots. As long as
nothing is registered, whatever is done changes such a storage only in how far its services have come
(`Storage.Restates`). So a later start of the stopped container has an order too, and it calls the
start hooks of the stored services, one after the other up to the first that fails
(`SettlesAll.revives`), and nothing else (`Client.start_restarts`).
-/

namespace Wiring

variable {s s' s'' s₀ : Storage}

/-! ## Storages that differ in service states -/

/-- The entry apart from how far its service has come. -/
def Entry.stateless (e : Entry) : Entry := { e with service := .notAService }

/-- Two storages differ at most in how far the services have come. -/
def Storage.Restates (s s' : Storage) : Prop :=
  ∀ a, (s'.get? a).map Entry.stateless = (s.get? a).map Entry.stateless

theorem Entry.stateless_rested (e : Entry) : e.rested.stateless = e.stateless := by
  unfold Entry.rested
  split <;> rfl

namespace Storage.Restates

variable {a b : Address} {e : Entry}

theorem refl (s : Storage) : s.Restates s := fun _ => rfl

theorem symm (h : s.Restates s') : s'.Restates s := fun a => (h a).symm

theorem trans (h : s.Restates s') (h' : s'.Restates s'') : s.Restates s'' :=
  fun a => (h' a).trans (h a)

theorem setService (s : Storage) (a : Address) (state : ServiceState) :
    s.Restates (s.setService a state) := by
  intro b
  rw [get?_setService]
  split
  · rw [Option.map_map]
    rfl
  · rfl

theorem resetRunning (s : Storage) : s.Restates s.resetRunning := by
  intro a
  rw [get?_resetRunning, Option.map_map]
  exact congrArg (Option.map · (s.get? a)) (funext Entry.stateless_rested)

theorem exists_entry (h : s.Restates s') (hget : s'.get? a = some e) :
    ∃ state, s.get? a = some { e with service := state } := by
  have hmap : (s.get? a).map Entry.stateless = some e.stateless := by
    rw [← h a, hget]
    rfl
  obtain ⟨e', hget', heq⟩ := Option.map_eq_some_iff.1 hmap
  have heq' : e' = { e'.stateless with service := e'.service } := rfl
  rw [heq', heq] at hget'
  exact ⟨e'.service, hget'⟩

theorem component?_eq (h : s.Restates s') (a : Address) : s'.component? a = s.component? a := by
  have hcomponent : ∀ s : Storage, s.component? a =
      ((s.get? a).map Entry.stateless).bind Entry.component? := fun s => by
    rw [Option.bind_map]
    rfl
  rw [hcomponent, hcomponent, h a]

theorem service?_eq (h : s.Restates s') (a : Address) : s'.service? a = s.service? a :=
  congrArg (Option.bind · Component.service?) (h.component?_eq a)

/-- There is no other edge between slots. -/
theorem edge (h : s.Restates s') (hs : s.Sound) (hs' : s'.Sound)
    (hedge : s'.graph.Edge (.key a) (.key b)) : s.graph.Edge (.key a) (.key b) := by
  refine hs.edge_graph.2 ?_
  rcases hs'.edge_graph.1 hedge with ⟨e, hget', ht⟩ | ⟨e, hget', ht⟩
  · obtain ⟨state, hget⟩ := h.exists_entry hget'
    exact .inl ⟨_, hget, ht⟩
  · obtain ⟨state, hget⟩ := h.exists_entry hget'
    exact .inr ⟨_, hget, ht⟩

end Storage.Restates

/-- In a sound storage the service in a slot is that of the entry. -/
theorem Storage.Sound.service?_eq {a : Address} {e : Entry} (hs : s.Sound)
    (hget : s.get? a = some e) : s.service? a = e.service? := by
  have hcomponent : s.service? a = e.component?.bind Component.service? := by
    rw [Storage.service?, Storage.component?, hget]
    rfl
  rw [hcomponent]
  cases hs.fits hget <;> rfl

/-! ## Storages in which nothing is left to be run -/

/-- Every entry is resolved, no value was counted, and the graph has no cycle. -/
structure Storage.Finished (s : Storage) : Prop where
  resolved : ∀ ⦃a e⦄, s.get? a = some e → e.isResolved = true
  uncounted : ∀ ⦃a e⦄, s.get? a = some e → e.shadowed = 0
  acyclic : ¬ s.graph.Cyclic

theorem Storage.Finished.restates (h : s.Finished) (hs : s.Sound) (hs' : s'.Sound)
    (hsame : s.Restates s') : s'.Finished := by
  refine ⟨fun a e hget' => ?_, fun a e hget' => ?_, ?_⟩
  · obtain ⟨state, hget⟩ := hsame.exists_entry hget'
    have hresolved : Entry.isResolved { e with service := state } = true := h.resolved hget
    exact hresolved
  · obtain ⟨state, hget⟩ := hsame.exists_entry hget'
    have huncounted : Entry.shadowed { e with service := state } = 0 := h.uncounted hget
    exact huncounted
  · exact Storage.acyclic_of_edges h.acyclic (hsame.edge hs hs')

/-- A walk adds no edge between slots. What it stores has neither requirements nor outputs, and a
constructor keeps its own when it has run. -/
theorem Progress.edge {scene : Scene} {a b : Address} (hp : Progress s₀ scene) (hs₀ : s₀.Sound)
    (hedge : scene.storage.graph.Edge (.key a) (.key b)) : s₀.graph.Edge (.key a) (.key b) := by
  refine hs₀.edge_graph.2 ?_
  rcases hp.sound.edge_graph.1 hedge with ⟨e, hget, t, ht, heq⟩ | ⟨e, hget, t, ht, heq⟩
  · cases hp.comes hget with
    | kept hget₀ => exact .inl ⟨_, hget₀, t, ht, heq⟩
    | ran hget₀ => exact .inl ⟨_, hget₀, t, ht, heq⟩
    | stored => cases ht
  · cases hp.comes hget with
    | kept hget₀ => exact .inr ⟨_, hget₀, t, ht, heq⟩
    | ran hget₀ => exact .inr ⟨_, hget₀, t, ht, heq⟩
    | stored => cases ht

/-- A start with success leaves nothing to be run. -/
theorem Step.finished {st st' : Status} {made : List Call}
    (h : Step st .start made (.ok none) st') (ho : st.InOrder) : st'.storage.Finished := by
  have hsettled := h.settled ho
  have hsound := (h.inOrder ho).sound
  have hmem : ∀ {a e}, st'.storage.get? a = some e → e ∈ st'.storage.entries := fun hget =>
    hsound.mem_entries.2 ((hsound.fits hget).address_eq ▸ hget)
  refine ⟨fun a e hget => hsettled.resolved e (hmem hget),
    fun a e hget => hsettled.uncounted e (hmem hget), ?_⟩
  cases h with
  | started _ hoff horder hwalk =>
    have hp := hwalk.progress (.start ho.sound (ho.resting_of_off hoff))
    exact Storage.acyclic_of_edges (Graph.not_cyclic_of_order st.storage.graph_proper horder)
      (hp.edge ho.sound)

/-! ## Walks that only start services -/

/-- The start hooks of the services at addresses are called in turn, up to the first that fails. -/
inductive Revives (s : Storage) : List Address → Except Error Unit → List Call → Prop
  | nil : Revives s [] (.ok ()) []
  | skip : s.service? a = none → Revives s order r calls → Revives s (a :: order) r calls
  | up : s.service? a = some service → Revives s order r calls →
      Revives s (a :: order) r (.up a.text service (.ok ()) :: calls)
  | fault (f : Fault) : s.service? a = some service →
      Revives s (a :: order) (.error (.serviceStart a.text f)) [.up a.text service (.error f)]

namespace Revives

variable {order : List Address} {r : Except Error Unit} {calls : List Call} {a : Address}
  {call : Call} {service : Service}

/-- If it fails, a start hook failed. -/
theorem result (h : Revives s order r calls) :
    r = .ok () ∨ ∃ label fault, r = .error (.serviceStart label fault) := by
  induction h with
  | nil => exact .inl rfl
  | skip _ _ ih => exact ih
  | up _ _ ih => exact ih
  | fault f => exact .inr ⟨_, f, rfl⟩

theorem mem_calls (h : Revives s order r calls) (hmem : call ∈ calls) :
    ∃ a ∈ order, ∃ service result, s.service? a = some service ∧
      call = .up a.text service result := by
  have hlater : ∀ {b : Address} {order : List Address},
      (∃ a ∈ order, ∃ service result, s.service? a = some service ∧
        call = .up a.text service result) →
      ∃ a ∈ b :: order, ∃ service result, s.service? a = some service ∧
        call = .up a.text service result := fun ⟨a, ha, hservice⟩ =>
    ⟨a, List.mem_cons_of_mem _ ha, hservice⟩
  induction h with
  | nil => cases hmem
  | skip _ _ ih => exact hlater (ih hmem)
  | up hservice _ ih =>
    rcases List.mem_cons.1 hmem with rfl | hmem
    · exact ⟨_, List.mem_cons_self, _, _, hservice, rfl⟩
    · exact hlater (ih hmem)
  | fault f hservice =>
    obtain rfl := List.mem_singleton.1 hmem
    exact ⟨_, List.mem_cons_self, _, _, hservice, rfl⟩

/-- Nothing is called for a slot that is not passed. -/
theorem filter_isUpOf_eq_nil (h : Revives s order r calls) (ha : a ∉ order) :
    calls.filter (Call.isUpOf a) = [] := by
  refine List.filter_eq_nil_iff.2 fun call hmem hup => ?_
  obtain ⟨b, hb, _, _, _, rfl⟩ := h.mem_calls hmem
  obtain rfl : b = a := congrArg Address.mk (of_decide_eq_true hup)
  exact ha hb

/-- For each slot at most one start hook is called. -/
theorem length_filter_isUpOf_le (h : Revives s order r calls) (hnodup : order.Nodup) (a : Address) :
    (calls.filter (Call.isUpOf a)).length ≤ 1 := by
  induction h with
  | nil => simp
  | skip _ _ ih => exact ih (List.nodup_cons.1 hnodup).2
  | @up b order r calls service _ hrest ih =>
    obtain ⟨hb, hnodup⟩ := List.nodup_cons.1 hnodup
    rw [List.filter_cons]
    split
    · next hup =>
      obtain rfl : b = a := congrArg Address.mk (of_decide_eq_true hup)
      rw [hrest.filter_isUpOf_eq_nil hb]
      simp
    · exact ih hnodup
  | fault f => exact (List.length_filter_le _ _).trans (by simp)

/-- If all succeed, the start hook of each service on the way is called once. -/
theorem filter_isUpOf (h : Revives s order r calls) (hnodup : order.Nodup) (hr : r = .ok ())
    (ha : a ∈ order) (hservice : s.service? a = some service) :
    calls.filter (Call.isUpOf a) = [.up a.text service (.ok ())] := by
  induction h with
  | nil => cases ha
  | skip hnone _ ih =>
    rcases List.mem_cons.1 ha with rfl | ha
    · cases hnone.symm.trans hservice
    · exact ih (List.nodup_cons.1 hnodup).2 hr ha
  | @up b order r calls service' hservice' hrest ih =>
    obtain ⟨hb, hnodup⟩ := List.nodup_cons.1 hnodup
    rw [List.filter_cons]
    rcases List.mem_cons.1 ha with rfl | ha
    · cases hservice'.symm.trans hservice
      rw [if_pos (by simp [Call.isUpOf]), hrest.filter_isUpOf_eq_nil hb]
    · have hne : b.text ≠ a.text := fun htext => by
        obtain rfl : b = a := congrArg Address.mk htext
        exact hb ha
      rw [if_neg (by simp [Call.isUpOf, hne])]
      exact ih hnodup hr ha
  | fault => cases hr

end Revives

section Walks

variable {scene scene' : Scene} {r : Except Error Unit} {a : Address} {e : Entry}
  {rest : List Address}

/-- What holds in the course of a walk through `s₀` with some addresses still to come: only services
have been started, and none on the rest of the way. -/
structure Reviving (s₀ : Storage) (rest : List Address) (scene : Scene) : Prop where
  sound : scene.storage.Sound
  restates : s₀.Restates scene.storage
  idle : ∀ a ∈ rest, ∀ e, scene.storage.get? a = some e → e.service ≠ .runningUp

theorem Reviving.next (h : Reviving s₀ (a :: rest) scene) : Reviving s₀ rest scene :=
  ⟨h.sound, h.restates, fun b hb => h.idle b (List.mem_cons_of_mem _ hb)⟩

/-- The service in a slot has been started. -/
theorem Reviving.started {calls : List Call} (h : Reviving s₀ (a :: rest) scene) (ha : a ∉ rest)
    (hs : (scene.storage.setService a .runningUp).Sound) :
    Reviving s₀ rest ⟨scene.storage.setService a .runningUp, calls⟩ := by
  refine ⟨hs, h.restates.trans (.setService _ a .runningUp), fun b hb e hget => ?_⟩
  have hne : a ≠ b := fun heq => ha (heq ▸ hb)
  have hget : (scene.storage.setService a .runningUp).get? b = some e := hget
  rw [Storage.get?_setService, if_neg hne] at hget
  exact h.next.idle b hb e hget

/-- Where nothing is left to be run and no service runs, a step starts the service in its slot, or
there is none and it does nothing. -/
theorem Settles.revives (h : Settles e scene r scene') (hw : Reviving s₀ (a :: rest) scene)
    (hs₀ : s₀.Sound) (hfinished : s₀.Finished) (hget : scene.storage.get? a = some e) :
    (s₀.service? a = none ∧ r = .ok () ∧ scene' = scene) ∨
      ∃ service, s₀.service? a = some service ∧ Starts a service scene r scene' := by
  have hfits := hw.sound.fits hget
  have hfinished' := hfinished.restates hs₀ hw.sound hw.restates
  have hidle := hw.idle a List.mem_cons_self e hget
  have hunresolved : e.isResolved ≠ false := by simp [hfinished'.resolved hget]
  have hservice : s₀.service? a = e.service? :=
    (hw.restates.service?_eq a).symm.trans (hw.sound.service?_eq hget)
  rw [hservice]
  cases h with
  | shadowed hne => exact absurd (hfinished'.uncounted hget) hne
  | rested _ _ hpending =>
    refine .inl ⟨hfits.notAService_iff.1 ?_, rfl, rfl⟩
    cases hstate : e.service with
    | notAService => rfl
    | pendingUp => exact absurd hstate hpending
    | runningUp => exact absurd hstate hidle
  | waited _ _ _ hservice hstarts => exact .inr ⟨_, hservice, hfits.address_eq ▸ hstarts⟩
  | shapeless _ _ hpending hnone =>
    refine absurd hnone (hfits.service?_ne_none ?_)
    rw [hpending]
    exact ServiceState.noConfusion
  | uncalled _ hres => exact absurd hres hunresolved
  | called _ hres => exact absurd hres hunresolved
  | unassembled _ hres => exact absurd hres hunresolved
  | assembled _ hres => exact absurd hres hunresolved
  | idle _ hres => exact absurd hres hunresolved

/-- A walk through a storage in which nothing is left to be run starts the services on its way. -/
theorem SettlesAll.revives (h : SettlesAll rest scene r scene') (hw : Reviving s₀ rest scene)
    (hs₀ : s₀.Sound) (hfinished : s₀.Finished) (hnodup : rest.Nodup) :
    s₀.Restates scene'.storage ∧
      ∃ made, scene'.calls = scene.calls ++ made ∧ Revives s₀ rest r made := by
  induction h with
  | nil => exact ⟨hw.restates, [], by simp, .nil⟩
  | skip hnone _ ih =>
    obtain ⟨hsame, made, hmade, hrest⟩ := ih hw.next (List.nodup_cons.1 hnodup).2
    refine ⟨hsame, made, hmade, .skip ?_ hrest⟩
    rw [← hw.restates.service?_eq, Storage.service?, Storage.component?, hnone]
    rfl
  | step hget hsettles _ ih =>
    obtain ⟨ha, hnodup⟩ := List.nodup_cons.1 hnodup
    rcases hsettles.revives hw hs₀ hfinished hget with
      ⟨hnone, _, rfl⟩ | ⟨service, hservice, hstarts⟩
    · obtain ⟨hsame, made, hmade, hrest⟩ := ih hw.next hnodup
      exact ⟨hsame, made, hmade, .skip hnone hrest⟩
    · cases hstarts with
      | up =>
        obtain ⟨hsame, made, hmade, hrest⟩ :=
          ih (hw.started ha (hsettles.sound hw.sound hget)) hnodup
        exact ⟨hsame, _, by rw [hmade, List.append_assoc]; rfl, .up hservice hrest⟩
  | fail hget hsettles =>
    rcases hsettles.revives hw hs₀ hfinished hget with ⟨_, hr, _⟩ | ⟨service, hservice, hstarts⟩
    · cases hr
    · cases hstarts with
      | fault f => exact ⟨hw.restates, _, rfl, .fault f hservice⟩

end Walks

/-! ## Operations that register nothing -/

section Steps

variable {st st' : Status} {op : Operation} {made : List Call} {r : Except Error (Option Object)}

/-- A start of a container that is off and has nothing left to be run. -/
theorem Step.revives (h : Step st .start made r st') (ho : st.InOrder) (hoff : st.on = false)
    (hfinished : st.storage.Finished) : st.storage.Restates st'.storage ∧
      ∃ order result, st.storage.graph.order = .ok order ∧
        r = result.map (fun _ => none) ∧ Revives st.storage order result made := by
  obtain ⟨order, horder⟩ := Graph.exists_order st.storage.graph_proper hfinished.acyclic
  obtain ⟨hnodup, _, _⟩ := Graph.order_topological st.storage.graph_proper horder
  have hrevives : ∀ {result after}, SettlesAll order st.scene result after →
      st.storage.Restates after.storage ∧ Revives st.storage order result after.calls := by
    intro result after hwalk
    obtain ⟨hsame, made, hmade, hrevives⟩ := hwalk.revives
      ⟨ho.sound, .refl _, fun a _ e hget => ho.resting_of_off hoff hget⟩ ho.sound hfinished hnodup
    exact ⟨hsame, (hmade : after.calls = [] ++ made) ▸ hrevives⟩
  cases h with
  | alreadyStarted hrunning =>
    exact Bool.noConfusion (hoff.symm.trans (ho.on_of_running hrunning))
  | stopRequired _ hon => exact Bool.noConfusion (hoff.symm.trans hon)
  | unordered _ _ herror => cases horder.symm.trans herror
  | startFailed _ _ horder' hwalk =>
    cases horder.symm.trans horder'
    obtain ⟨hsame, hrevives⟩ := hrevives hwalk
    exact ⟨hsame, order, _, horder, rfl, hrevives⟩
  | started _ _ horder' hwalk =>
    cases horder.symm.trans horder'
    obtain ⟨hsame, hrevives⟩ := hrevives hwalk
    exact ⟨hsame, order, _, horder, rfl, hrevives⟩

/-- Where nothing is left to be run, an operation that registers nothing changes service states at
most. -/
theorem Step.restates (h : Step st op made r st') (ho : st.InOrder)
    (hfinished : st.storage.Finished)
    (hregister : ∀ items, op = .register items → st'.storage = st.storage) :
    st.storage.Restates st'.storage := by
  cases op with
  | register items =>
    rw [hregister items rfl]
    exact .refl _
  | start =>
    cases hon : st.on with
    | false => exact (h.revives ho hon hfinished).1
    | true =>
      cases h with
      | alreadyStarted => exact .refl _
      | stopRequired => exact .refl _
      | unordered _ hoff => cases hon.symm.trans hoff
      | startFailed _ hoff => cases hon.symm.trans hoff
      | started _ hoff => cases hon.symm.trans hoff
  | invoke =>
    rw [h.storage_eq_of_invoke]
    exact .refl _
  | resolve =>
    cases h
    exact .refl _
  | stop =>
    cases h with
    | stopOff => exact .refl _
    | stopped => exact .resetRunning _

end Steps

variable {σ : Type} {client : Client σ}

/-- Where nothing is left to be run, a run that registers nothing changes service states at most. -/
theorem Client.playOut_restates {w : World σ} {ops : List Operation} (ho : w.container.InOrder)
    (hfinished : w.container.storage.Finished)
    (hregister : ∀ turn ∈ client.play w ops, ∀ items, turn.operation = .register items →
      turn.after.storage = turn.before.storage) :
    w.container.storage.Restates (client.playOut w ops).container.storage := by
  induction ops generalizing w with
  | nil => exact .refl _
  | cons op ops ih =>
    obtain ⟨hstep, hafter, ho'⟩ := client.perform_step op ho
    have hsame := hstep.restates ho.status hfinished fun items hop =>
      hregister _ List.mem_cons_self items hop
    have hfinished' := hfinished.restates ho.status.sound ho'.status.sound hsame
    rw [← hafter] at ho' hfinished'
    refine hsame.trans ?_
    rw [← hafter]
    exact ih ho' hfinished' fun turn hmem => hregister turn (List.mem_cons_of_mem _ hmem)

/-- The turns of a run are those of its operations. -/
theorem Client.operation_of_mem_play {w : World σ} {ops : List Operation} {turn : Turn}
    (h : turn ∈ client.play w ops) : turn.operation ∈ ops := by
  induction ops generalizing w with
  | nil => cases h
  | cons op ops ih =>
    rcases List.mem_cons.1 h with rfl | h
    · exact List.mem_cons_self
    · exact List.mem_cons_of_mem _ (ih h)

/-! ## Restarts -/

/-- A start that calls the start hooks of services that a storage has and nothing else. -/
structure Restarted (s : Storage) (turn : Turn) : Prop where
  /-- The container still has what the storage has. -/
  restates : s.Restates turn.before.storage
  /-- If the start fails, a start hook failed. -/
  result : turn.result = .ok none ∨
    ∃ label fault, turn.result = .error (.serviceStart label fault)
  /-- Only start hooks are called, and only of services that are stored. -/
  calls : ∀ call ∈ turn.calls, ∃ a service result,
    s.service? a = some service ∧ call = .up a.text service result
  /-- For no slot a start hook is called twice. -/
  once : ∀ a, (turn.calls.filter (Call.isUpOf a)).length ≤ 1
  /-- If the start succeeds, the start hook of every stored service was called. -/
  every : turn.result = .ok none → ∀ a service, s.service? a = some service →
    turn.calls.filter (Call.isUpOf a) = [.up a.text service (.ok ())]

/-- A start of a container that is off and has what a storage has in which nothing is left to be
run. -/
theorem Step.restarted {turn : Turn} {st' : Status}
    (h : Step turn.before.status .start turn.calls turn.result st') (ho : turn.before.status.InOrder)
    (hoff : turn.before.status.on = false) (hs : s.Sound) (hfinished : s.Finished)
    (hsame : s.Restates turn.before.storage) : Restarted s turn := by
  have hs' : turn.before.storage.Sound := ho.sound
  obtain ⟨_, order, result, horder, hr, hrevives⟩ := h.revives ho hoff
    (hfinished.restates hs hs' hsame)
  obtain ⟨hnodup, _, _⟩ := Graph.order_topological (Storage.graph_proper _) horder
  refine ⟨hsame, ?_, fun call hmem => ?_, hrevives.length_filter_isUpOf_le hnodup,
    fun hok a service hservice => ?_⟩
  · rw [hr]
    rcases hrevives.result with rfl | ⟨label, fault, rfl⟩
    · exact .inl rfl
    · exact .inr ⟨label, fault, rfl⟩
  · obtain ⟨a, _, service, result, hservice, rfl⟩ := hrevives.mem_calls hmem
    exact ⟨a, service, result, (hsame.service?_eq a).symm.trans hservice, rfl⟩
  · have hservice' : turn.before.storage.service? a = some service :=
      (hsame.service?_eq a).trans hservice
    obtain ⟨c, hc, _⟩ := Option.bind_eq_some_iff.1 hservice'
    obtain ⟨e, hget, _⟩ := Storage.component?_eq_some.1 hc
    refine hrevives.filter_isUpOf hnodup ?_ (hs'.mem_order horder hget) hservice'
    cases result with
    | ok _ => rfl
    | error e => cases hr.symm.trans hok

/-- After a start with success, and until something is registered, a later start of the stopped
container starts the services that were stored after the first one, each at most once. It runs no
provider, leaves services alone that only an invocation started, and fails only if a start hook
fails. -/
theorem Client.start_restarts (client : Client σ) (config : ContainerConfig) (context : Context)
    (token : Token) (nextIdentity : Identity) (host : σ) (ops between : List Operation) :
    let w₀ := client.playOut (.fresh config context token nextIdentity host) ops
    let first := client.perform w₀ .start
    let w₁ := client.playOut first.2 between
    let later := client.perform w₁ .start
    first.1.result = .ok none →
    (∀ turn ∈ client.play first.2 between, ∀ items, turn.operation = .register items →
      turn.after.storage = turn.before.storage) →
    w₁.container.history.switch = .off → Restarted first.1.after.storage later.1 := by
  intro w₀ first w₁ later hresult hregister hswitch
  have hnew : (World.fresh config context token nextIdentity host).container.InOrder :=
    Container.new_inOrder config context token
  have ho : w₀.container.InOrder := Client.playOut_inOrder hnew ops
  obtain ⟨hstep, hafter, ho'⟩ := client.perform_step .start ho
  have hstep : Step w₀.container.status .start first.1.calls (.ok none) first.1.after.status :=
    hresult ▸ hstep
  have hs : first.1.after.storage.Sound := ho'.status.sound
  have hfinished : first.1.after.storage.Finished := hstep.finished ho.status
  have hafter : first.2.container = first.1.after := hafter
  have ho' : first.2.container.InOrder := hafter ▸ ho'
  have hsame : first.1.after.storage.Restates w₁.container.storage := by
    rw [← hafter] at hfinished ⊢
    exact Client.playOut_restates ho' hfinished hregister
  have ho₁ : w₁.container.InOrder := Client.playOut_inOrder ho' between
  have hoff : w₁.container.status.on = false := by simp [Container.status, hswitch]
  obtain ⟨hstep₁, _, _⟩ := client.perform_step .start ho₁
  exact Step.restarted hstep₁ ho₁.status hoff hs hfinished hsame

/-- A program around the samples, which are registered and started. -/
def Client.samplesStarted : Turn × World Unit :=
  (Client.steady ⟨.made 3, some ⟨.token, .made 3⟩⟩).perform
    ((Client.steady ⟨.made 3, some ⟨.token, .made 3⟩⟩).playOut
      (.fresh default (.root 0) ⟨1⟩ 1 ()) [.register Item.samples]) .start

/-- After that a callable is invoked whose output is a service that is not stored, and the samples
are stopped. -/
def Client.samplesStopped : World Unit :=
  (Client.steady ⟨.made 3, some ⟨.token, .made 3⟩⟩).playOut samplesStarted.2
    [.invoke ⟨[], [.ofName "app::Guest"], 2⟩, .stop]

theorem Client.start_restarts_samples :
    samplesStarted.1.result = .ok none ∧ samplesStopped.container.history.switch = .off ∧
      Restarted samplesStarted.1.after.storage
        ((Client.steady ⟨.made 3, some ⟨.token, .made 3⟩⟩).perform samplesStopped .start).1 := by
  have hoption : samplesStarted.1.result.toOption = some none := by decide +kernel
  have hresult : samplesStarted.1.result = .ok none := by
    revert hoption
    cases samplesStarted.1.result with
    | ok => exact congrArg Except.ok ∘ Option.some.inj
    | error => exact nofun
  have hswitch : samplesStopped.container.history.switch = .off := by decide +kernel
  refine ⟨hresult, hswitch, ?_⟩
  rw [samplesStopped, samplesStarted] at hswitch ⊢
  rw [samplesStarted] at hresult
  refine Client.start_restarts _ default (.root 0) ⟨1⟩ 1 () [.register Item.samples] _ hresult
    (fun turn hmem items hop => ?_) hswitch
  have hmem := Client.operation_of_mem_play hmem
  rw [hop] at hmem
  simp at hmem

end Wiring
