import Mathlib.Data.List.Sort
import Wiring.Proofs.Agreement
import Wiring.Proofs.Restart

/-!
# Rounds of starts and stops

The first start of a container starts a service where its provider runs, a later one at its own slot.
After the first start with success the graph no longer changes, as long as nothing is registered, since
storages that differ in service states have the same one (`Storage.Restates.graph_eq`). So all later
starts record the services of the storage in the order of that graph. The first one recorded the same
services, though maybe in another order (`Client.rounds_repeat`).
-/

namespace Wiring

/-! ## Graphs -/

/-- Lists that ascend by a key are the same if they have the same members. -/
theorem eq_of_ascending {α κ : Type} [LT κ] [Std.Irrefl (α := κ) (· < ·)]
    [Trans (α := κ) (· < ·) (· < ·) (· < ·)] (key : α → κ) {xs ys : List α}
    (hxs : xs.Pairwise fun x y => key x < key y) (hys : ys.Pairwise fun x y => key x < key y)
    (hmem : ∀ x, x ∈ xs ↔ x ∈ ys) : xs = ys := by
  let before : α → α → Prop := fun x y => key x < key y
  have hirrefl : ∀ k : κ, ¬ k < k := Std.Irrefl.irrefl
  have : Std.Irrefl before := ⟨fun x => hirrefl (key x)⟩
  have : Std.Antisymm before := ⟨fun x y hxy hyx => absurd (Trans.trans hxy hyx) (hirrefl (key x))⟩
  exact (hxs : xs.Pairwise before).eq_of_mem_iff hys fun {x} => hmem x

/-- Tables whose keys ascend are the same if they answer the same. -/
theorem Table.rows_eq {κ ν : Type} [DecidableEq κ] [LT κ] [Std.Irrefl (α := κ) (· < ·)]
    [Trans (α := κ) (· < ·) (· < ·) (· < ·)] {t t' : Table κ ν}
    (h : t.keys.Pairwise (· < ·)) (h' : t'.keys.Pairwise (· < ·))
    (hget : ∀ key, t.get? key = t'.get? key) : t.rows = t'.rows := by
  have hnodup : ∀ {keys : List κ}, keys.Pairwise (· < ·) → keys.Nodup := fun hkeys =>
    hkeys.imp fun {a b} hlt => by
      rintro rfl
      exact Std.Irrefl.irrefl (r := (· < ·)) a hlt
  refine eq_of_ascending Prod.fst (List.pairwise_map.1 h) (List.pairwise_map.1 h') fun row => ?_
  rw [← get?_eq_some_iff (hnodup h), ← get?_eq_some_iff (hnodup h'), hget]

variable {s s' : Storage}

/-- Storages that differ in service states have the same graph. -/
theorem Storage.Restates.graph_eq (h : s.Restates s') (hs : s.Sound) (hs' : s'.Sound) :
    s'.graph = s.graph := by
  have hrows : (s'.table.mapValues Entry.stateless).rows = (s.table.mapValues Entry.stateless).rows := by
    refine Table.rows_eq ?_ ?_ fun a => ?_
    · rw [Table.keys_mapValues]
      exact hs'.ascending
    · rw [Table.keys_mapValues]
      exact hs.ascending
    · rw [Table.get?_mapValues, Table.get?_mapValues]
      exact h a
  have hedges : ∀ s : Storage, s.entries.flatMap Entry.edges =
      (s.table.mapValues Entry.stateless).rows.flatMap fun row => row.2.edges := by
    intro s
    simp only [entries, Table.values, Table.mapValues, List.flatMap_map]
    rfl
  rw [graph, graph, Graph.ofEntries, Graph.ofEntries, hedges, hedges, hrows]

/-! ## Labels -/

/-- The labels of the services of a storage, along an order. -/
def Storage.serviceLabels (s : Storage) (order : List Address) : List String :=
  (order.filter fun a => (s.service? a).isSome).map Address.text

/-- If all start hooks succeed, each service on the way is recorded. -/
theorem Revives.labels {order : List Address} {calls : List Call}
    (h : Revives s order (.ok ()) calls) :
    (calls.filterMap Call.record?).map Record.label = s.serviceLabels order := by
  generalize hr : Except.ok () = r at h
  induction h with
  | nil => rfl
  | skip hnone _ ih => simpa [Storage.serviceLabels, hnone] using ih hr
  | up hservice _ ih => simpa [Storage.serviceLabels, hservice, Call.record?] using ih hr
  | fault => cases hr

/-- A start succeeds from a container that is off. -/
theorem Step.off_of_started {st st' : Status} {made : List Call}
    (h : Step st .start made (.ok none) st') : st.on = false := by
  cases h with
  | started _ hoff => exact hoff

/-- Where nothing is left to be run, a start with success records the services in the order of the
graph. -/
theorem Step.labels {st st' : Status} {made : List Call} {order : List Address}
    (h : Step st .start made (.ok none) st') (ho : st.InOrder) (hfinished : st.storage.Finished)
    (horder : st.storage.graph.order = .ok order) :
    st'.live.map Record.label = st.storage.serviceLabels order := by
  have hoff := h.off_of_started
  obtain ⟨_, order', result, horder', hr, hrevives⟩ := h.revives ho hoff hfinished
  obtain rfl : order = order' := Except.ok.inj (horder.symm.trans horder')
  cases result with
  | error => cases hr
  | ok _ => rw [h.live_of_start, ho.live_of_off hoff, List.nil_append, hrevives.labels]

/-- A start that succeeds and finds everything resolved finds nothing left to be run. -/
theorem Step.finished_before {st st' : Status} {made : List Call}
    (h : Step st .start made (.ok none) st') (ho : st.InOrder)
    (hresolved : ∀ e ∈ st.storage.entries, e.isResolved = true) : st.storage.Finished := by
  cases h with
  | started _ hoff horder hwalk =>
    refine ⟨fun a e hget => ?_, fun a e hget => ?_, ?_⟩
    · exact hresolved e (ho.sound.mem_entries.2 ((ho.sound.fits hget).address_eq.symm ▸ hget))
    · exact hwalk.uncounted (.start ho.sound (ho.resting_of_off hoff)) ho.sound
        (ho.sound.mem_order horder hget) hget
    · exact Graph.not_cyclic_of_order st.storage.graph_proper horder

/-- Storages that differ in service states have the same services. -/
theorem Storage.Restates.serviceLabels_eq (h : s.Restates s') (order : List Address) :
    s'.serviceLabels order = s.serviceLabels order := by
  simp only [serviceLabels, h.service?_eq]

/-- What is recorded after a start with success are the services of the storage. -/
theorem Settled.perm {labels : List String} {order : List Address} (h : Settled s labels)
    (hs : s.Sound) (horder : s.graph.order = .ok order) : labels.Perm (s.serviceLabels order) := by
  obtain ⟨hnodup, _, _⟩ := Graph.order_topological s.graph_proper horder
  have hinjective : Function.Injective Address.text := fun a b htext => congrArg Address.mk htext
  refine (List.perm_ext_iff_of_nodup h.nodup ((hnodup.filter _).map hinjective)).2 fun label => ?_
  rw [h.mem_labels, List.mem_map]
  refine ⟨?_, ?_⟩
  · rintro ⟨e, hmem, hservice, rfl⟩
    have hget := hs.mem_entries.1 hmem
    refine ⟨e.address, List.mem_filter.2 ⟨hs.mem_order horder hget, ?_⟩, rfl⟩
    rwa [hs.service?_eq hget]
  · rintro ⟨a, hmem, rfl⟩
    obtain ⟨_, hservice⟩ := List.mem_filter.1 hmem
    obtain ⟨service, hservice⟩ := Option.isSome_iff_exists.1 hservice
    obtain ⟨c, hc, _⟩ := Option.bind_eq_some_iff.1 hservice
    obtain ⟨e, hget, _⟩ := Storage.component?_eq_some.1 hc
    have haddr := (hs.fits hget).address_eq
    refine ⟨e, hs.mem_entries.2 (haddr ▸ hget), ?_, congrArg Address.text haddr⟩
    rw [← hs.service?_eq hget, hservice]
    rfl

/-! ## Rounds -/

variable {σ : Type} {client : Client σ}

/-- A turn of a run is that of one of its operations, after those before it. -/
theorem Client.exists_of_mem_play {w : World σ} {ops : List Operation} {turn : Turn}
    (h : turn ∈ client.play w ops) : ∃ earlier op later, ops = earlier ++ op :: later ∧
      turn = (client.perform (client.playOut w earlier) op).1 := by
  induction ops generalizing w with
  | nil => cases h
  | cons op ops ih =>
    rcases List.mem_cons.1 h with rfl | h
    · exact ⟨[], op, ops, rfl, rfl⟩
    · obtain ⟨earlier, op', later, rfl, rfl⟩ := ih h
      exact ⟨op :: earlier, op', later, rfl, rfl⟩

/-- Where nothing is left to be run and nothing is registered, a later start with success records the
services in the order of the graph. -/
theorem Client.started_later {w : World σ} {earlier : List Operation} {order : List Address}
    (ho : w.container.InOrder) (hfinished : w.container.storage.Finished)
    (horder : w.container.storage.graph.order = .ok order)
    (hregister : ∀ turn ∈ client.play w earlier, ∀ items, turn.operation = .register items →
      turn.after.storage = turn.before.storage)
    (hok : (client.perform (client.playOut w earlier) .start).1.result = .ok none) :
    (client.perform (client.playOut w earlier) .start).1.after.started =
      w.container.storage.serviceLabels order := by
  have hsame := Client.playOut_restates ho hfinished hregister
  have ho' : (client.playOut w earlier).container.InOrder := Client.playOut_inOrder ho earlier
  obtain ⟨hstep, _, _⟩ := client.perform_step .start ho'
  rw [hok] at hstep
  have hgraph := hsame.graph_eq ho.status.sound ho'.status.sound
  rw [Container.started_eq, ← hsame.serviceLabels_eq]
  exact hstep.labels ho'.status (hfinished.restates ho.status.sound ho'.status.sound hsame)
    ((congrArg Graph.order hgraph).trans horder)

/-- Let a start of a container succeed and nothing be registered afterwards. There is an order of the
graph that it leaves, and all later starts with success record the services of the storage in that
order. The first start recorded the same services, and it recorded them in that order if everything
was resolved before it. -/
theorem Client.rounds_repeat (client : Client σ) (config : ContainerConfig) (context : Context)
    (token : Token) (nextIdentity : Identity) (host : σ) (ops between : List Operation) :
    let w₀ := client.playOut (.fresh config context token nextIdentity host) ops
    let first := (client.perform w₀ .start).1
    let rounds := client.play (client.perform w₀ .start).2 between
    first.result = .ok none →
    (∀ turn ∈ rounds, ∀ items, turn.operation = .register items →
      turn.after.storage = turn.before.storage) →
    ∃ order, first.after.graph.order = .ok order ∧
      (∀ turn ∈ rounds, turn.Started →
        turn.after.started = first.after.storage.serviceLabels order) ∧
      first.after.started.Perm (first.after.storage.serviceLabels order) ∧
      ((∀ e ∈ first.before.storage.entries, e.isResolved = true) →
        first.after.started = first.after.storage.serviceLabels order) := by
  intro w₀ first rounds hresult hregister
  have hnew : (World.fresh config context token nextIdentity host).container.InOrder :=
    Container.new_inOrder config context token
  have ho : w₀.container.InOrder := Client.playOut_inOrder hnew ops
  obtain ⟨hstep, hafter, ho'⟩ := client.perform_step .start ho
  have hstep : Step w₀.container.status .start first.calls (.ok none) first.after.status :=
    hresult ▸ hstep
  have hs : first.after.storage.Sound := ho'.status.sound
  have hfinished : first.after.storage.Finished := hstep.finished ho.status
  obtain ⟨order, horder⟩ := Graph.exists_order first.after.storage.graph_proper hfinished.acyclic
  refine ⟨order, horder, fun turn hmem hstarted => ?_, ?_, fun hresolved => ?_⟩
  · obtain ⟨earlier, op, later, rfl, rfl⟩ := Client.exists_of_mem_play hmem
    obtain ⟨rfl, hok⟩ := hstarted
    have hafter : (client.perform w₀ .start).2.container = first.after := hafter
    rw [← hafter] at ho' hfinished horder ⊢
    exact Client.started_later ho' hfinished horder (fun turn hmem => hregister turn (by
      simp only [rounds, Client.play_append, List.mem_append]
      exact .inl hmem)) hok
  · exact (hstep.settled ho.status).perm hs horder
  · have hfinished₀ := hstep.finished_before ho.status hresolved
    obtain ⟨hsame, _⟩ := hstep.revives ho.status hstep.off_of_started hfinished₀
    have hgraph := hsame.graph_eq ho.status.sound hs
    have hsame : first.before.storage.Restates first.after.storage := hsame
    rw [Container.started_eq, hsame.serviceLabels_eq]
    exact hstep.labels ho.status hfinished₀ ((congrArg Graph.order hgraph).symm.trans horder)

/-- The samples are stopped and started twice more. -/
def Turn.sampleRounds : List Turn :=
  (Client.steady ⟨.made 3, some ⟨.token, .made 3⟩⟩).play Client.samplesStarted.2
    [.stop, .start, .stop, .start]

theorem Client.rounds_repeat_samples :
    samplesStarted.1.result = .ok none ∧ Turn.sampleRounds.map (fun turn => turn.result.toOption) =
        [some none, some none, some none, some none] ∧
      ∃ order, samplesStarted.1.after.graph.order = .ok order ∧
        ∀ turn ∈ Turn.sampleRounds, turn.Started →
          turn.after.started = samplesStarted.1.after.storage.serviceLabels order := by
  have hresult : samplesStarted.1.result = .ok none :=
    eq_ok_of_toOption (by decide +kernel)
  refine ⟨hresult, by decide +kernel, ?_⟩
  obtain ⟨order, horder, hrounds, _⟩ := Client.rounds_repeat
    (.steady ⟨.made 3, some ⟨.token, .made 3⟩⟩) default (.root 0) ⟨1⟩ 1 () [.register Item.samples]
    [.stop, .start, .stop, .start] hresult (fun turn hmem items hop => by
      have hmem := Client.operation_of_mem_play hmem
      rw [hop] at hmem
      simp at hmem)
  exact ⟨order, horder, hrounds⟩

/-- A constructor of two services, the second of which comes first in the order of addresses. -/
def Item.swapped : List Item :=
  [.constructor ⟨0, ⟨[], [.ofName "app::Pool", .ofName "app::Job"], 0⟩⟩]

/-- The second start starts them the other way round. -/
theorem Client.rounds_not_repeat_swapped :
    (Turn.firstRun Item.swapped)[1]?.map (fun turn => (turn.result.toOption, turn.after.started)) =
        some (some none, ["app.Pool", "app.Job"]) ∧
      ((Turn.secondStart Item.swapped).result.toOption,
        (Turn.secondStart Item.swapped).after.started) = (some none, ["app.Job", "app.Pool"]) := by
  decide +kernel

end Wiring
