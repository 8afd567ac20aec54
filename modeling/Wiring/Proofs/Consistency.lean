import Wiring.Proofs.Reentry

/-!
# Consistency with hooks that start and stop

The hooks of a `Toggling` program may start and stop the container that called them, and the hooks
that are called by this may do so again. An `Episode` is what one operation on the container comes
to, together with all that happened meanwhile. It is undisturbed if no hook of a start stopped the
container and no hook of an invocation started it anew. As long as episodes are undisturbed, a start
that succeeds leaves a container that runs with all of its services, and where no record is live no
service counts as running (`Program.episodes_consistent`). If a hook of a start stops the container,
the service whose hook that is counts as running without a record, and the next start leaves it out
(`Program.episodes_not_consistent_tripping`).
-/

namespace Wiring

open World

variable {σ α : Type}

/-! ## Programs with such hooks -/

/-- The script performs only operations that are allowed. -/
def Script.Performs (allowed : Operation → Prop) : Script σ α → Prop
  | .finish _ _ => True
  | .look next => ∀ state container, (next state container).Performs allowed
  | .perform _ op next => allowed op ∧ ∀ result, (next result).Performs allowed

/-- The operation starts or stops the container. -/
def Operation.Toggles : Operation → Prop
  | .start | .stop => True
  | _ => False

/-- Hooks start and stop the container, and nothing else in the program calls it. -/
structure Program.Toggling (program : Program σ) : Prop where
  construct : ∀ c args, (program.construct c args).Performs fun _ => False
  supply : ∀ c position, (program.supply c position).Performs fun _ => False
  assemble : ∀ t values, (program.assemble t values).Performs fun _ => False
  up : ∀ service signal, (program.up service signal).Performs Operation.Toggles
  down : ∀ service, (program.down service).Performs Operation.Toggles

/-! ## Episodes -/

/-- A stop ends at this moment. -/
def Moment.stops (m : Moment) : Bool :=
  match m.event with
  | .ends .stop _ => true
  | _ => false

/-- A start ends at this moment that was not refused for the container running already. -/
def Moment.startsAnew (m : Moment) : Bool :=
  match m.event with
  | .ends .start (.ok _) => true
  | .ends .start (.error _) => !m.container.running
  | _ => false

/-- What must not happen in the middle of an operation: that a start is stopped, or that an
invocation starts the container anew. -/
def Moment.disturbs (m : Moment) : Operation → Bool
  | .start => m.stops
  | .invoke _ => m.startsAnew
  | _ => false

/-- An operation that is not performed by a callback: the moments in it, its end included, how it
ended, and the container that it left. -/
structure Episode where
  operation : Operation
  moments : List Moment
  result : Except Error (Option Object)
  after : Container

/-- Performs an operation: its episode, and the world after it. -/
def Program.episode (program : Program σ) (depth : Nat) (w : World σ) (op : Operation) :
    Episode × World σ :=
  let out := program.perform depth op w.unlogged
  (⟨op, out.2.host.moments, out.1, out.2.container⟩, { out.2 with host := out.2.host.state })

/-- The episodes of operations performed one after the other. -/
def Program.episodes (program : Program σ) (depth : Nat) (w : World σ) :
    List Operation → List Episode
  | [] => []
  | op :: ops =>
    (program.episode depth w op).1 :: program.episodes depth (program.episode depth w op).2 ops

/-- No hook of a start stopped the container, and no hook of an invocation started it anew. -/
def Episode.Undisturbed (e : Episode) : Prop := ∀ m ∈ e.moments, m.disturbs e.operation = false

instance (e : Episode) : Decidable e.Undisturbed :=
  inferInstanceAs (Decidable (∀ m ∈ e.moments, m.disturbs e.operation = false))

/-- No service counts as running after the episode. -/
def Episode.Resting (e : Episode) : Prop :=
  ∀ entry ∈ e.after.storage.entries, entry.service ≠ .runningUp

instance (e : Episode) : Decidable e.Resting :=
  inferInstanceAs (Decidable (∀ entry ∈ e.after.storage.entries, entry.service ≠ .runningUp))

/-- The container is consistent after the episode. -/
structure Episode.Consistent (e : Episode) : Prop where
  /-- After a start that succeeds the container runs, and so does every service in it. -/
  started : e.operation = .start → e.result = .ok none → e.after.running = true ∧
    ∀ entry ∈ e.after.storage.entries, entry.service? ≠ none → entry.service = .runningUp
  /-- Where no record is live no service counts as running, so that the next start starts it. -/
  resting : e.after.history.live = [] → e.Resting

/-! ## Hooks that toggle -/

/-- One of the moments in the log is such. -/
def Logged.Has (p : Moment → Bool) (h : Logged σ) : Prop := ∃ m ∈ h.moments, p m = true

/-- What hooks that toggle do from one world to another: it passes, except that the container may be
stopped, and it keeps running services recorded, except that the container may be started anew. -/
structure World.Toggles (w v : World (Logged σ)) : Prop where
  passes : w.Passes (Logged.Has Moment.stops) v
  keeps : w.Keeps (Logged.Has Moment.startsAnew) → v.Keeps (Logged.Has Moment.startsAnew)

namespace World.Toggles

variable {w v u : World (Logged σ)}

theorem refl (w : World (Logged σ)) : w.Toggles w := ⟨.refl w, id⟩

theorem trans (h : w.Toggles v) (h' : v.Toggles u) : w.Toggles u :=
  ⟨h.passes.trans h'.passes, h'.keeps ∘ h.keeps⟩

/-- The state of the program may be replaced. -/
theorem setState (w : World (Logged σ)) (state : σ) :
    w.Toggles { w with host := { w.host with state } } :=
  ⟨⟨id, .refl _, id, fun _ _ => .inr rfl⟩, fun h => ⟨h.tidy, h.labelled⟩⟩

end World.Toggles

/-- What performs operations does with a start or a stop what hooks may do. -/
def Performer.Toggles (perform : Performer σ) : Prop :=
  ∀ op, op.Toggles → ∀ w : World (Logged σ), w.Toggles (perform op w).2

/-- A script that performs nothing leaves the container as it is. -/
theorem Script.container_run {perform : Performer σ} {script : Script σ α}
    (h : script.Performs fun _ => False) (w : World (Logged σ)) :
    (script.run perform w).2.container = w.container := by
  induction script generalizing w with
  | finish state answer => rfl
  | look next ih => exact ih _ _ (h _ _) w
  | perform state op next ih => exact h.1.elim

theorem Script.run_toggles {perform : Performer σ} (hperform : perform.Toggles)
    {script : Script σ α} (h : script.Performs Operation.Toggles) (w : World (Logged σ)) :
    w.Toggles (script.run perform w).2 := by
  induction script generalizing w with
  | finish state answer => exact .setState w state
  | look next ih => exact ih _ _ (h _ _) w
  | perform state op next ih =>
    exact ((World.Toggles.setState w state).trans (hperform op h.1 _)).trans (ih _ (h.2 _) _)

namespace World

variable {callback : StateM (World (Logged σ)) α} {call : Container → α → Call}
  {w : World (Logged σ)}

theorem logging_spares (p : Moment → Bool)
    (h : ∀ w : World (Logged σ), (callback w).2.container = w.container) :
    w.Spares (Logged.Has p) (logging callback call w).2 where
  container := h _
  excused := fun ⟨m, hmem, hm⟩ => ⟨m, List.mem_append_left _ hmem, hm⟩

/-- The moments in a callback come behind those before it. -/
theorem logging_toggles (h : ∀ w : World (Logged σ), w.Toggles (callback w).2) :
    w.Toggles (logging callback call w).2 := by
  have hbefore : ∀ {p}, Logged.Has p w.host → Logged.Has p (logging callback call w).2.host :=
    fun ⟨m, hmem, hm⟩ => ⟨m, List.mem_append_left _ hmem, hm⟩
  have hwithin : ∀ {p}, Logged.Has p (callback { w with host := ⟨w.host.state, []⟩ }).2.host →
      Logged.Has p (logging callback call w).2.host :=
    fun ⟨m, hmem, hm⟩ => ⟨m, List.mem_append_right _ (List.mem_cons_of_mem _ hmem), hm⟩
  obtain ⟨hpasses, hkeeps⟩ := h { w with host := ⟨w.host.state, []⟩ }
  refine ⟨⟨hpasses.tidy, hpasses.accrues, hbefore, fun htidy hrunning =>
    (hpasses.alone htidy hrunning).imp_left hwithin⟩, fun hw => ?_⟩
  refine ⟨hpasses.tidy hw.tidy, ?_⟩
  rcases hw.labelled with hanew | hl
  · exact .inl (hbefore hanew)
  · exact (hkeeps ⟨hw.tidy, .inr hl⟩).labelled.imp_left hwithin

end World

/-- Where hooks that toggle are called: they pass, and they keep running services recorded. -/
structure Client.Toggles (client : Client (World (Logged σ))) : Prop where
  reenters : client.Reenters (Logged.Has Moment.stops)
  spares : client.Spares (Logged.Has Moment.startsAnew)
  up_keeps : ∀ service signal w, World.Keeps (Logged.Has Moment.startsAnew) w →
    (client.up service signal w).2.Keeps (Logged.Has Moment.startsAnew)

theorem Program.Toggling.client {program : Program σ} (h : program.Toggling)
    {perform : Performer σ} (hperform : perform.Toggles) : (program.client perform).Toggles := by
  have hspares : ∀ p, (program.client perform).Spares (Logged.Has p) := fun p => {
    construct c args _ := logging_spares p (Script.container_run (h.construct c args))
    supply c position _ := logging_spares p (Script.container_run (h.supply c position))
    assemble t values _ := logging_spares p (Script.container_run (h.assemble t values)) }
  have hup : ∀ service signal w,
      World.Toggles w ((program.client perform).up service signal w).2 := fun service signal _ =>
    logging_toggles (Script.run_toggles hperform (h.up service signal))
  exact {
    reenters := {
      toSpares := hspares _
      up := fun service signal w => (hup service signal w).passes
      down := fun service _ =>
        (logging_toggles (Script.run_toggles hperform (h.down service))).passes }
    spares := hspares _
    up_keeps := fun service signal w => (hup service signal w).keeps }

/-! ## Operations -/

/-- Registration starts no service. -/
theorem Container.registering_keeps {S : σ → Prop} {w : World σ} (h : w.Keeps S)
    (items : List Item) :
    World.Keeps S { w with container := (w.container.registering items).2 } := by
  unfold Container.registering
  split
  · exact h
  · refine ⟨h.tidy.setStorage (h.tidy.sound.addAll items),
      h.labelled.imp_right fun hl a e hget hrunning => ?_⟩
    obtain ⟨e', hget', hrunning'⟩ := Storage.running_of_addAll items hget hrunning
    exact hl hget' hrunning'

namespace Operation

variable {client : Client (World (Logged σ))} {w : World (Logged σ)}

/-- An operation leaves running services recorded, unless something in it disturbs it. -/
theorem act_keeps (h : client.Toggles) (op : Operation)
    (hw : w.Keeps (Logged.Has (Moment.disturbs · op))) :
    ((op.act client).outcome w).2.Keeps (Logged.Has (Moment.disturbs · op)) := by
  cases op with
  | register items =>
    rw [register_outcome]
    exact Container.registering_keeps hw items
  | resolve t =>
    rw [resolve_outcome]
    exact hw
  | start =>
    rw [act, Action.outcome_bind_pure]
    exact Container.start_keeps h.reenters hw
  | invoke callable =>
    rw [act, Action.outcome_bind_pure]
    exact Container.invoke_keeps h.up_keeps h.spares callable hw
  | stop =>
    rw [act, Action.outcome_bind_pure]
    have hnone : ¬ Logged.Has (Moment.disturbs · .stop) w.host := by
      rintro ⟨_, _, hm⟩
      cases hm
    have hl := hw.labelled.resolve_left hnone
    exact ⟨Container.stop_tidy h.reenters hw.tidy, .inr (Container.stop_labelled client hl)⟩

/-- An operation leaves the container tidy, whatever happens in it. -/
theorem act_tidy (h : client.Toggles) (op : Operation) (ht : w.container.Tidy) :
    ((op.act client).outcome w).2.container.Tidy := by
  have hw : w.Keeps fun _ => True := ⟨ht, .inl trivial⟩
  cases op with
  | register items =>
    rw [register_outcome]
    exact (Container.registering_keeps hw items).tidy
  | resolve t =>
    rw [resolve_outcome]
    exact ht
  | start =>
    rw [act, Action.outcome_bind_pure]
    exact (Container.start_keeps h.reenters.weaken hw).tidy
  | invoke callable =>
    rw [act, Action.outcome_bind_pure]
    refine (Container.invoke_keeps (fun service signal v hv => ?_) h.reenters.weaken.toSpares
      callable hw).tidy
    exact ⟨(h.reenters.up service signal v).tidy hv.tidy, .inl trivial⟩
  | stop =>
    rw [act, Action.outcome_bind_pure]
    exact Container.stop_tidy h.reenters ht

/-- A start of a container that does not run is one anew, whether it succeeds or not. -/
theorem startsAnew_of_stopped (client : Client (World (Logged σ)))
    (h : w.container.running = false) :
    let out := (start.act client).outcome w
    (Moment.mk out.2.container (.ends .start out.1)).startsAnew = true := by
  obtain ⟨notices, hout⟩ := Container.start_of_stopped client h
  rw [act, Action.outcome_bind_pure, hout]
  obtain ⟨_ | _, v⟩ := (Container.resolveAll client).outcome _ <;> rfl

/-- What a hook does with a start or a stop. A container that runs refuses the start, and the stop is
noted; so a running container is left alone unless it is stopped. The start is noted unless it is
refused, and a stop lets all services wait or changes none; so running services stay recorded unless
the container is started anew. -/
theorem conclude_toggles (h : client.Toggles) {op : Operation} (hop : op.Toggles)
    (haccrues : w.container.storage.Accrues (conclude client op w).2.container.storage)
    (hlog : ∃ new, (conclude client op w).2.host.moments = w.host.moments ++ new) :
    w.Toggles (conclude client op w).2 := by
  have hbefore : ∀ {p}, Logged.Has p w.host → Logged.Has p (conclude client op w).2.host := by
    obtain ⟨new, hnew⟩ := hlog
    exact fun ⟨m, hmem, hm⟩ => ⟨m, hnew ▸ List.mem_append_left _ hmem, hm⟩
  have hlast : ∀ {p}, p ⟨((op.act client).outcome w).2.container,
      .ends op ((op.act client).outcome w).1⟩ = true → Logged.Has p (conclude client op w).2.host :=
    fun hp => ⟨_, List.mem_append_right _ (List.mem_singleton.2 rfl), hp⟩
  have htidy : w.container.Tidy → (conclude client op w).2.container.Tidy := act_tidy h op
  cases op with
  | start =>
    have hsame : w.container.running = true →
        (conclude client start w).2.container = w.container := fun hrunning => by
      show ((start.act client).outcome w).2.container = w.container
      rw [act, Action.outcome_bind_pure, Container.start_of_running client hrunning]
    refine ⟨⟨htidy, haccrues, hbefore, fun _ hrunning => .inr (hsame hrunning)⟩, fun hw => ?_⟩
    refine ⟨htidy hw.tidy, ?_⟩
    cases hrunning : w.container.running with
    | true => exact hw.labelled.imp hbefore fun hl => (hsame hrunning).symm ▸ hl
    | false => exact .inl (hlast (startsAnew_of_stopped client hrunning))
  | stop =>
    refine ⟨⟨htidy, haccrues, hbefore, fun _ _ => .inl (hlast rfl)⟩, fun hw => ?_⟩
    refine ⟨htidy hw.tidy, hw.labelled.imp hbefore fun hl => ?_⟩
    show ((stop.act client).outcome w).2.container.status.Labelled
    rw [act, Action.outcome_bind_pure]
    exact Container.stop_labelled client hl
  | register | invoke | resolve => exact hop.elim

end Operation

/-! ## Runs -/

/-- Where no service counts as running, all that do are recorded. -/
theorem World.keeps_of_resting {S : σ → Prop} {w : World σ} (ht : w.container.Tidy)
    (h : ∀ e ∈ w.container.storage.entries, e.service ≠ .runningUp) : w.Keeps S := by
  refine ⟨ht, .inr fun a e hget hrunning => ?_⟩
  have hget : w.container.storage.get? e.address = some e := (ht.sound.fits hget).address_eq ▸ hget
  exact absurd hrunning (h e (ht.sound.mem_entries.2 hget))

namespace Program.Toggling

variable {program : Program σ} {w : World σ} {op : Operation} {ops : List Operation}

/-- What performs the operations of a program whose hooks toggle is a client where these are
called. -/
theorem exists_client (h : program.Toggling) (depth : Nat) :
    ∃ client : Client (World (Logged σ)), client.Toggles ∧
      program.perform depth = Operation.conclude client := by
  induction depth with
  | zero => exact ⟨_, h.client fun _ _ w => .refl w, rfl⟩
  | succ depth ih =>
    obtain ⟨client, hclient, hperform⟩ := ih
    refine ⟨_, h.client fun op hop w => ?_, rfl⟩
    obtain ⟨new, hlog, htime⟩ := Timeline.course.perform program depth op w
    rw [hperform] at hlog htime ⊢
    exact Operation.conclude_toggles hclient hop htime.accrues ⟨new, hlog⟩

/-- An episode is an action around which such hooks are called, and nothing disturbs the action that
does not disturb the episode. -/
theorem exists_act (h : program.Toggling) (depth : Nat) (w : World σ) (op : Operation) :
    ∃ client : Client (World (Logged σ)), client.Toggles ∧
      let out := (op.act client).outcome w.unlogged
      (program.episode depth w op).1.result = out.1 ∧
        (program.episode depth w op).2.container = out.2.container ∧
        ((program.episode depth w op).1.Undisturbed →
          ¬ Logged.Has (Moment.disturbs · op) out.2.host) := by
  obtain ⟨client, hclient, hperform⟩ := h.exists_client depth
  refine ⟨client, hclient, ?_⟩
  unfold episode
  rw [hperform]
  refine ⟨rfl, rfl, ?_⟩
  rintro hundisturbed ⟨m, hmem, hm⟩
  exact Bool.noConfusion (hm.symm.trans (hundisturbed m (List.mem_append_left _ hmem)))

/-- Whatever happens in an episode, it leaves the container tidy. -/
theorem episode_tidy (h : program.Toggling) (depth : Nat) (ht : w.container.Tidy) :
    (program.episode depth w op).2.container.Tidy := by
  obtain ⟨client, hclient, _, hafter, _⟩ := h.exists_act depth w op
  exact hafter ▸ Operation.act_tidy hclient op (w := w.unlogged) ht

/-- After an undisturbed episode running services are recorded again. -/
theorem episode_keeps (h : program.Toggling) (depth : Nat) (hw : w.Keeps fun _ => False)
    (hundisturbed : (program.episode depth w op).1.Undisturbed) :
    (program.episode depth w op).2.Keeps fun _ => False := by
  obtain ⟨client, hclient, _, hafter, hnone⟩ := h.exists_act depth w op
  have hkeeps := Operation.act_keeps hclient op (w := w.unlogged)
    ⟨hw.tidy, .inr (hw.labelled.resolve_left id)⟩
  refine ⟨h.episode_tidy depth hw.tidy, .inr ?_⟩
  exact hafter ▸ hkeeps.labelled.resolve_left (hnone hundisturbed)

/-- After an undisturbed start that succeeds the container runs and no service waits. -/
theorem episode_walking (h : program.Toggling) (depth : Nat) (hw : w.Keeps fun _ => False)
    (hundisturbed : (program.episode depth w .start).1.Undisturbed)
    (hok : (program.episode depth w .start).1.result = .ok none) :
    (program.episode depth w .start).2.container.Walking fun _ => False := by
  obtain ⟨client, hclient, hresult, hafter, hnone⟩ := h.exists_act depth w .start
  have hnone := hnone hundisturbed
  rw [Operation.act, Action.outcome_bind_pure] at hresult hafter hnone
  have hcalm : w.unlogged.Keeps (Logged.Has Moment.stops) :=
    ⟨hw.tidy, .inr (hw.labelled.resolve_left id)⟩
  have hok : ((Container.start client).outcome w.unlogged).1.map (fun _ => none) = .ok none :=
    hresult.symm.trans hok
  cases hrunning : w.unlogged.container.running with
  | true =>
    rw [Container.start_of_running client hrunning] at hok
    cases hok
  | false =>
    obtain ⟨_, hwalks⟩ := Container.start_leads hclient.reenters hcalm hrunning
    refine hafter ▸ (hwalks ?_).walking.resolve_left hnone
    generalize (Container.start client).outcome w.unlogged = out at hok
    obtain ⟨_ | _, v⟩ := out
    · cases hok
    · rfl

/-- After an undisturbed episode the container is consistent. -/
theorem episode_consistent (h : program.Toggling) (depth : Nat) (hw : w.Keeps fun _ => False)
    (hundisturbed : (program.episode depth w op).1.Undisturbed) :
    (program.episode depth w op).1.Consistent := by
  have hkeeps := h.episode_keeps depth hw hundisturbed
  have hsound := hkeeps.tidy.sound
  refine ⟨fun hop hok => ?_, fun hlive entry hmem hrunning => ?_⟩
  · obtain rfl : op = .start := hop
    have hwalking := h.episode_walking depth hw hundisturbed hok
    refine ⟨hwalking.running, fun entry hmem hservice => ?_⟩
    have hget := hsound.mem_entries.1 hmem
    cases hstate : entry.service with
    | runningUp => rfl
    | pendingUp => exact (hwalking.waits hget hstate).elim
    | notAService => exact absurd ((hsound.fits hget).notAService_iff.1 hstate) hservice
  · have hlabel := hkeeps.labelled.resolve_left id (hsound.mem_entries.1 hmem) hrunning
    have hlive : (program.episode depth w op).2.container.status.live = [] := hlive
    rw [hlive] at hlabel
    cases hlabel

/-- In a run the container stays consistent up to the first episode that is disturbed. -/
theorem consistent_of_keeps (h : program.Toggling) (depth : Nat) (hw : w.Keeps fun _ => False)
    {past later : List Episode} {e : Episode}
    (hsplit : program.episodes depth w ops = past ++ e :: later)
    (hundisturbed : ∀ e' ∈ past ++ [e], e'.Undisturbed) : e.Consistent := by
  induction ops generalizing w past with
  | nil => cases past <;> cases hsplit
  | cons op ops ih =>
    cases past with
    | nil =>
      obtain ⟨rfl, _⟩ := List.cons.inj hsplit
      exact h.episode_consistent depth hw (hundisturbed _ List.mem_cons_self)
    | cons first past =>
      obtain ⟨rfl, hrest⟩ := List.cons.inj hsplit
      have hkeeps := h.episode_keeps depth hw (hundisturbed _ List.mem_cons_self)
      exact ih hkeeps hrest fun e' hmem => hundisturbed e' (List.mem_cons_of_mem _ hmem)

/-- A part of a run is a run from the container that the episode before it left, which is tidy. -/
theorem exists_rest (h : program.Toggling) (depth : Nat) (ht : w.container.Tidy)
    {past rest : List Episode} (hsplit : program.episodes depth w ops = past ++ rest) :
    ∃ v ops', v.container.Tidy ∧ program.episodes depth v ops' = rest ∧
      (past = [] → v = w) ∧ ∀ last ∈ past.getLast?, last.after = v.container := by
  induction past generalizing w ops with
  | nil => exact ⟨w, ops, ht, hsplit, fun _ => rfl, by simp⟩
  | cons first past ih =>
    cases ops with
    | nil => cases hsplit
    | cons op ops =>
      obtain ⟨rfl, hrest⟩ := List.cons.inj hsplit
      obtain ⟨v, ops', hv, hepisodes, hnone, hlast⟩ := ih (h.episode_tidy depth ht) hrest
      refine ⟨v, ops', hv, hepisodes, nofun, fun last hmem => ?_⟩
      cases past with
      | nil =>
        obtain rfl := Option.some.inj hmem
        rw [hnone rfl]
        rfl
      | cons second past => exact hlast last (List.getLast?_cons_cons ▸ hmem)

end Program.Toggling

/-- **Consistency.** Let the hooks of a program start and stop the container. Look at the episodes of
a run from its beginning, or from an episode after which no service counts as running, as after a
stop of a container whose history is on. As long as no hook of a start stops the container and no
hook of an invocation starts it anew, the container is consistent after each episode: if a start
succeeds it runs with all of its services, and where no record is live no service counts as
running. -/
theorem Program.episodes_consistent (program : Program σ) (htoggling : program.Toggling)
    (depth : Nat) (config : ContainerConfig) (context : Context) (token : Token)
    (nextIdentity : Identity) (host : σ) (ops : List Operation) {past since later : List Episode}
    {e : Episode}
    (hsplit : program.episodes depth (.fresh config context token nextIdentity host) ops =
      past ++ (since ++ e :: later))
    (hrests : ∀ last ∈ past.getLast?, last.Resting)
    (hundisturbed : ∀ e' ∈ since ++ [e], e'.Undisturbed) : e.Consistent := by
  have hnew := Container.new_inOrder config context token
  obtain ⟨v, ops', ht, hepisodes, hnone, hlast⟩ :=
    htoggling.exists_rest depth (w := .fresh config context token nextIdentity host) hnew.tidy hsplit
  refine htoggling.consistent_of_keeps depth (World.keeps_of_resting ht ?_) hepisodes hundisturbed
  cases hpast : past.getLast? with
  | none =>
    obtain rfl := hnone (List.getLast?_eq_none_iff.1 hpast)
    exact fun e hmem => hnew.status.resting_of_off rfl (hnew.status.sound.mem_entries.1 hmem)
  | some last => exact hlast last hpast ▸ hrests last hpast

/-! ## Hooks that stop -/

/-- A program all of whose hooks start the container. -/
def Program.eager : Program Unit where
  construct _ _ := .finish () (.ok ())
  supply _ _ := .finish () ⟨.made 0, none⟩
  assemble _ _ := .finish () (.ok ⟨.made 0, none⟩)
  up _ _ := .perform () .start fun _ => .finish () (.ok ())
  down _ := .perform () .start fun _ => .finish () (.ok ())

theorem Program.eager_toggling : eager.Toggling where
  construct _ _ := trivial
  supply _ _ := trivial
  assemble _ _ := trivial
  up _ _ := ⟨trivial, fun _ => trivial⟩
  down _ := ⟨trivial, fun _ => trivial⟩

/-- Two services that need nothing. -/
def Item.pair : List Item :=
  [.value ⟨.ofName "app::Job", .made 0, some ⟨.plain, .made 0⟩⟩,
    .value ⟨.ofName "app::Pool", .made 1, some ⟨.plain, .made 1⟩⟩]

/-- A start from within the stop, before the services wait again, succeeds and starts none. -/
def Program.eagerRun : List Episode :=
  eager.episodes 1 (.fresh default (.root 0) ⟨1⟩ 1 ())
    [.register Item.pair, .start, .stop, .start, .stop, .start]

/-- A program whose start hook that is called first stops the container. -/
def Program.tripping : Program Bool where
  construct _ _ := .look fun first _ => .finish first (.ok ())
  supply _ _ := .look fun first _ => .finish first ⟨.made 0, none⟩
  assemble _ _ := .look fun first _ => .finish first (.ok ⟨.made 0, none⟩)
  up _ _ := .look fun first _ =>
    if first then .perform false .stop fun _ => .finish false (.ok ()) else .finish false (.ok ())
  down _ := .look fun first _ => .finish first (.ok ())

theorem Program.tripping_toggling : tripping.Toggling where
  construct _ _ _ _ := trivial
  supply _ _ _ _ := trivial
  assemble _ _ _ _ := trivial
  up _ _ first _ := by
    cases first
    · trivial
    · exact ⟨trivial, fun _ => trivial⟩
  down _ _ _ := trivial

/-- It is started twice, stopped and started again. -/
def Program.trippingRun (items : List Item) : List Episode :=
  tripping.episodes 1 (.fresh default (.root 0) ⟨1⟩ 1 true)
    [.register items, .start, .start, .stop, .start]

theorem Program.episodes_consistent_toggled :
    eagerRun.map (fun e => (e.result.toOption.isSome, e.after.running, e.after.started)) =
        [(true, false, []), (true, true, ["app.Job", "app.Pool"]), (true, true, []),
          (false, true, []), (true, false, []), (true, true, ["app.Job", "app.Pool"])] ∧
      (∀ e ∈ eagerRun, e.Undisturbed ∧ e.Consistent) ∧
      ∀ e ∈ (trippingRun Item.pair)[4]?,
        e.after.started = ["app.Job", "app.Pool"] ∧ e.Consistent := by
  have hundisturbed : ∀ e ∈ eagerRun, e.Undisturbed := by decide +kernel
  refine ⟨by decide +kernel, fun e hmem => ⟨hundisturbed e hmem, ?_⟩, fun e hmem => ⟨?_, ?_⟩⟩
  · obtain ⟨since, later, hsplit⟩ := List.append_of_mem hmem
    have hsplit' : eagerRun = [] ++ (since ++ e :: later) := hsplit
    refine eager.episodes_consistent eager_toggling 1 default (.root 0) ⟨1⟩ 1 () _ hsplit' nofun
      fun e' hmem' => hundisturbed e' ?_
    rw [hsplit]
    exact (List.mem_append.1 hmem').elim (List.mem_append_left _) fun hlast =>
      List.mem_append_right _ (List.mem_singleton.1 hlast ▸ List.mem_cons_self)
  · have hstarted : ∀ e ∈ (trippingRun Item.pair)[4]?,
        e.after.started = ["app.Job", "app.Pool"] := by decide +kernel
    exact hstarted e hmem
  · -- What the first start has left is put in order by the stop.
    have hcalm : ∀ e ∈ (trippingRun Item.pair)[4]?, e.Undisturbed := by decide +kernel
    obtain ⟨hlast, heq⟩ := List.getElem?_eq_some_iff.1 hmem
    have hsplit : trippingRun Item.pair = (trippingRun Item.pair).take 4 ++
        ([] ++ e :: (trippingRun Item.pair).drop 5) := by
      rw [List.nil_append, ← heq, ← List.drop_eq_getElem_cons hlast, List.take_append_drop]
    exact tripping.episodes_consistent tripping_toggling 1 default (.root 0) ⟨1⟩ 1 true _ hsplit
      (by decide +kernel) fun e' hmem' => List.mem_singleton.1 hmem' ▸ hcalm e hmem

/-- The services that are marked as running at the end of an episode. -/
def Episode.marked (e : Episode) : List String :=
  (e.after.storage.entries.filter (·.service = .runningUp)).map (·.address.text)

/-- With one service the first start succeeds although the container does not run. With two services
it fails at the second and leaves the first marked without a record, so the next start starts the
second only. -/
theorem Program.episodes_not_consistent_tripping :
    tripping.Toggling ∧
      (∃ e ∈ trippingRun (Item.pair.take 1), e.operation = .start ∧ e.result = .ok none ∧
        e.after.running = false ∧ ¬ e.Consistent) ∧
      (∃ e ∈ trippingRun Item.pair, e.after.history.live = [] ∧ ¬ e.Consistent) ∧
      ((trippingRun Item.pair).take 3).map
          (fun e => (e.result.toOption, e.after.running, e.after.started, e.marked)) =
        [(some none, false, [], []), (none, false, [], ["app.Job"]),
          (some none, true, ["app.Pool"], ["app.Job", "app.Pool"])] := by
  refine ⟨tripping_toggling,
    ⟨_, List.mem_cons_of_mem _ List.mem_cons_self, rfl, ?_, ?_, fun h => ?_⟩,
    ⟨_, List.mem_cons_of_mem _ List.mem_cons_self, ?_, fun h => ?_⟩, by decide +kernel⟩
  · exact eq_ok_of_toOption (by decide +kernel)
  · decide +kernel
  · obtain ⟨hrunning, _⟩ := h.started rfl (eq_ok_of_toOption (by decide +kernel))
    revert hrunning
    decide +kernel
  · decide +kernel
  · have hresting := h.resting (by decide +kernel)
    revert hresting
    decide +kernel

end Wiring
