import Wiring.Proofs.Collisions
import Wiring.Proofs.Completeness
import Wiring.Proofs.Diagnosis

/-!
# What hangs off the root

A start builds its graph before it resolves anything and does not ask whether the root leads to every
node. A slot that nobody provides (`Storage.Vacant`) is a node as soon as a provider requests it, and
nothing leads there. When the start succeeds, these are the only nodes that the root does not lead to
(`Paced.rooted_iff`): a constructor that has run once keeps its parameters (`Storage.Grounded`), and a
provider that has not fails over what is missing, unless it is never asked because a constructor has
given a component for its slot (`Displaces`).
-/

namespace Wiring

/-- A directed path leads from the root to a node. -/
def Graph.Rooted (g : Graph) (n : Node) : Prop := Relation.ReflTransGen g.Edge .root n

/-- The root does not lead to an address that nothing leads to. -/
theorem Graph.not_rooted_of_source {g : Graph} {a : Address}
    (h : ∀ n ∈ g.nodes, .key a ∉ g.next n) : ¬ g.Rooted (.key a) := by
  intro hrooted
  obtain heq | ⟨n, _, hedge⟩ := Relation.ReflTransGen.cases_tail hrooted
  · cases heq
  · exact h n (Graph.Edge.source hedge) hedge

/-- Nobody provides a slot: it has no entry, and no stored constructor has an output there. -/
def Storage.Vacant (s : Storage) (a : Address) : Prop :=
  s.get? a = none ∧ ∀ b e, s.get? b = some e → ∀ t ∈ e.outputs, t.descriptor.address ≠ a

/-- The parameters of the constructors that have run are held. -/
def Storage.Grounded (s : Storage) : Prop :=
  ∀ ⦃c⦄, s.Ran c → ∀ t ∈ c.callable.params, s.Held t.request.address

/-- In a walk a constructor displaces a provider that was not asked yet: it is run, and what it gives
for the slot of that provider is stored there. -/
structure Displaces (s₀ : Storage) (s : Scene) (e : Entry) (c : Constructor) : Prop where
  unresolved : e.isResolved = false
  registered : s₀.get? c.address = some (.provider c.address (.constructor c))
  run : ∃ args, .construct c args (.ok ()) ∈ s.calls
  stored : ∃ i t product state, c.callable.outputs[i]? = some t ∧ t.slot? = some e.address ∧
    .supply c i product ∈ s.calls ∧ s.storage.get? e.address =
      some { Entry.resolved e.address (.ofProduct t product) with service := state }

variable {s₀ : Storage} {s : Scene} {a : Address} {e : Entry} {t : ComponentType}
  {order : List Address}

/-! ## Slots that nobody provides -/

/-- Somebody provides a slot: it has an entry, or a stored constructor has an output there. -/
theorem Storage.not_vacant_iff {s : Storage} : ¬ s.Vacant a ↔ (∃ e, s.get? a = some e) ∨
    ∃ b e, s.get? b = some e ∧ ∃ t ∈ e.outputs, t.descriptor.address = a := by
  simp only [Vacant, not_and_or, not_forall, not_not, exists_prop]
  exact or_congr_left Option.ne_none_iff_exists'

namespace Storage.Vacant

variable {s : Storage}

/-- Nothing leads to a slot that nobody provides. -/
theorem not_edge (h : s.Vacant a) (hs : s.Sound) (n : Node) : ¬ s.graph.Edge n (.key a) := by
  intro hedge
  cases n with
  | root =>
    obtain ⟨e, hget, _⟩ := hs.edge_root.1 hedge
    cases h.1.symm.trans hget
  | key b =>
    rcases hs.edge_graph.1 hedge with ⟨e, hget, _⟩ | ⟨e, hget, t, ht, haddr⟩
    · cases h.1.symm.trans hget
    · exact h.2 b e hget t ht haddr

theorem not_rooted (h : s.Vacant a) (hs : s.Sound) : ¬ s.graph.Rooted (.key a) :=
  Graph.not_rooted_of_source fun n _ => h.not_edge hs n

end Storage.Vacant

/-- What comes about in a walk has a provider at its beginning. -/
theorem Progress.not_vacant (h : Progress s₀ s) (hget : s.storage.get? a = some e) :
    ¬ s₀.Vacant a := by
  intro hvacant
  cases h.comes hget with
  | kept hget₀ => cases hvacant.1.symm.trans hget₀
  | ran hget₀ => cases hvacant.1.symm.trans hget₀
  | stored _ _ hsourced =>
    cases hsourced with
    | output hrun houtput hslot =>
      have hget₀ := (h.of_run hrun).1
      exact hvacant.2 _ _ hget₀ _ (List.mem_of_getElem? houtput) (address_of_slot? hslot)
    | template hassemble hslot =>
      obtain ⟨b, hslot', hget₀, _⟩ := h.of_assembly hassemble
      obtain rfl := Option.some.inj (hslot.symm.trans hslot')
      cases hvacant.1.symm.trans hget₀

/-- A slot that nobody provides is not held in the course of a walk. -/
theorem Progress.not_held (h : Progress s₀ s) (hvacant : s₀.Vacant a) : ¬ s.storage.Held a := by
  intro hheld
  obtain ⟨c, hc⟩ := Option.isSome_iff_exists.1 hheld
  obtain ⟨e, hget, _⟩ := Storage.component?_eq_some.1 hc
  exact h.not_vacant hget hvacant

/-! ## Constructors that have run -/

/-- What a resolved entry requests is held: it is a constructor that has run. -/
theorem Storage.Grounded.held {s : Storage} (h : s.Grounded) (hs : s.Sound)
    (hget : s.get? a = some e) (hres : e.isResolved = true) (ht : t ∈ e.requirements) :
    s.Held t.request.address := by
  cases hs.fits hget with
  | value => cases ht
  | constructor c relation n haddr =>
    subst haddr
    exact h ((Storage.ran_iff hs).2 ⟨_, hget, rfl, hres⟩) t ht
  | template => cases hres

/-- Every operation keeps what the constructors that have run requested. -/
theorem Step.grounded {st st' : Status} {op : Operation} {made : List Call}
    {result : Except Error (Option Object)} (h : Step st op made result st') (ho : st.InOrder)
    (hg : st.storage.Grounded) : st'.storage.Grounded := by
  intro c hran t ht
  rcases h.ran_cases ho hran with hran | ⟨rfl, args, hrun⟩
  · exact (h.persists ho).keeps.held (hg hran t ht)
  · rcases h.walk_of_start with ⟨order, r, hoff, _, hwalk⟩ | hnone
    · have hp := hwalk.progress (.start ho.sound (ho.resting_of_off hoff))
      exact (hp.of_run hrun).2.2 t ht
    · rw [hnone] at hrun
      cases hrun

theorem Client.playOut_grounded {σ : Type} {client : Client σ} {w : World σ}
    (ho : w.container.InOrder) (hg : w.container.storage.Grounded) (ops : List Operation) :
    (client.playOut w ops).container.storage.Grounded := by
  induction ops generalizing w with
  | nil => exact hg
  | cons op ops ih =>
    obtain ⟨hstep, hafter, ho'⟩ := client.perform_step op ho
    have hg' := hstep.grounded ho.status hg
    rw [← hafter] at ho'
    exact ih ho' (hafter ▸ hg')

/-! ## The graph of a walk with success -/

namespace Paced

variable (hp : Paced s₀ order s) (hs : s₀.Sound) (hg : s₀.Grounded)
  (horder : s₀.graph.order = .ok order)

include hp hs hg horder

/-- A provider that requests a slot which nobody provides is displaced. -/
theorem displaced (hget : s₀.get? a = some e) (ht : t ∈ e.requirements)
    (hvacant : s₀.Vacant t.request.address) : ∃ c, Displaces s₀ s e c := by
  have hnot := hp.progress.not_held hvacant
  have hres : e.isResolved = false := Bool.eq_false_iff.2 fun hres =>
    hnot (hp.progress.keeps.held (hg.held hs hget hres ht))
  have haddr := (hs.fits hget).address_eq
  obtain ⟨e', hget'⟩ := hp.progress.stays hget
  have hres' := hp.resolved_of_mem (hs.mem_order horder hget) hget'
  cases hp.progress.comes hget' with
  | kept hget₀ =>
    obtain rfl := Option.some.inj (hget.symm.trans hget₀)
    cases hres.symm.trans hres'
  | ran hget₀ _ hrun =>
    obtain rfl := Option.some.inj (hget.symm.trans hget₀)
    exact absurd ((hp.progress.of_run hrun).2.2 t ht) hnot
  | stored _ _ hsourced =>
    subst haddr
    cases hsourced with
    | output hrun houtput hslot hsupply =>
      exact ⟨_, hres, (hp.progress.of_run hrun).1, ⟨_, hrun⟩, _, _, _, _, houtput, hslot, hsupply,
        hget'⟩
    | template hassemble hslot =>
      obtain ⟨b, hslot', hget₀, _, hfields⟩ := hp.progress.of_assembly hassemble
      obtain rfl := Option.some.inj (hslot.symm.trans hslot')
      rw [hget] at hget₀
      obtain ⟨field, hfield, rfl⟩ : ∃ field ∈ _, Field.type field = t :=
        List.mem_map.1 (Option.some.inj hget₀ ▸ ht)
      exact absurd (hfields field hfield) hnot

/-- Something leads to every slot that somebody provides: the root or another such slot. -/
theorem exists_edge (hnot : ¬ s₀.Vacant a) : s₀.graph.Edge .root (.key a) ∨
    ∃ b, s₀.graph.Edge (.key b) (.key a) ∧ ¬ s₀.Vacant b := by
  have houtput : ∀ {b e t}, s₀.get? b = some e → t ∈ e.outputs → t.descriptor.address = a →
      s₀.graph.Edge (.key b) (.key a) ∧ ¬ s₀.Vacant b := by
    intro b e t hget ht haddr
    exact ⟨hs.edge_graph.2 (.inr ⟨e, hget, t, ht, haddr⟩), Storage.not_vacant_iff.2 (.inl ⟨e, hget⟩)⟩
  rcases Storage.not_vacant_iff.1 hnot with ⟨e, hget⟩ | ⟨b, e, hget, t, ht, haddr⟩
  · cases hrequirements : e.requirements with
    | nil => exact .inl (hs.edge_root.2 ⟨e, hget, hrequirements⟩)
    | cons t types =>
      have ht : t ∈ e.requirements := hrequirements ▸ List.mem_cons_self
      by_cases hvacant : s₀.Vacant t.request.address
      · -- The provider was not asked, so the constructor that took its slot leads there.
        obtain ⟨c, hc⟩ := hp.displaced hs hg horder hget ht hvacant
        obtain ⟨i, t', _, _, houtput', hslot, _⟩ := hc.stored
        rw [(hs.fits hget).address_eq] at hslot
        exact .inr ⟨_, houtput hc.registered (List.mem_of_getElem? houtput') (address_of_slot? hslot)⟩
      · exact .inr ⟨_, hs.edge_graph.2 (.inl ⟨e, hget, t, ht, rfl⟩), hvacant⟩
  · exact .inr ⟨b, houtput hget ht haddr⟩

/-- The root leads to every slot that somebody provides, and to no other. -/
theorem rooted_iff : s₀.graph.Rooted (.key a) ↔ ¬ s₀.Vacant a := by
  refine ⟨fun hrooted hvacant => hvacant.not_rooted hs hrooted, fun hnot => ?_⟩
  have hmem : .key a ∈ s₀.graph.nodes := by
    rcases hp.exists_edge hs hg horder hnot with hedge | ⟨_, hedge, _⟩
    · exact s₀.graph_proper.target_mem hedge
    · exact s₀.graph_proper.target_mem hedge
  revert hnot
  refine Graph.order_induction s₀.graph_proper horder (p := fun a => ¬ s₀.Vacant a →
    s₀.graph.Rooted (.key a)) (fun a ih hnot => ?_) a hmem
  rcases hp.exists_edge hs hg horder hnot with hedge | ⟨b, hedge, hb⟩
  · exact .single hedge
  · exact .tail (ih b hedge hb) hedge

end Paced

/-! ## Starts -/

/-- The walk of a start with success kept pace to its end. -/
theorem Step.paced {st st' : Status} {made : List Call} (h : Step st .start made (.ok none) st')
    (ho : st.InOrder) : ∃ order, st.storage.graph.order = .ok order ∧
      Paced st.storage order ⟨st'.storage, made⟩ := by
  cases h with
  | started _ hoff horder hwalk =>
    exact ⟨_, horder, hwalk.paced_of_ok ho.sound (ho.resting_of_off hoff)⟩

/-- Whatever was done to a container before, let a start succeed. In its graph the root leads to every
node but the slots that nobody provides; so it leads to every entry and every output, and to all that
an entry requests unless nobody provides it, in which case the entry is displaced in the start. -/
theorem Client.start_rooted {σ : Type} (client : Client σ) (config : ContainerConfig)
    (context : Context) (token : Token) (nextIdentity : Identity) (host : σ)
    (ops : List Operation) :
    let w := client.playOut (.fresh config context token nextIdentity host) ops
    let turn := (client.perform w .start).1
    let s := turn.before.storage
    let g := turn.before.graph
    turn.result = .ok none →
      (∀ n ∈ g.nodes, g.Rooted n ↔ ∀ a, n = .key a → ¬ s.Vacant a) ∧
      ∀ a e, s.get? a = some e → g.Rooted (.key a) ∧ (∀ t ∈ e.outputs, g.Rooted t.outputNode) ∧
        ∀ t ∈ e.requirements, g.Rooted t.requestNode ∨
          s.Vacant t.request.address ∧ ∃ c, Displaces s ⟨turn.after.storage, turn.calls⟩ e c := by
  intro w turn s g hresult
  have hnew : (World.fresh config context token nextIdentity host).container.InOrder :=
    Container.new_inOrder config context token
  have ho : w.container.InOrder := Client.playOut_inOrder hnew ops
  have hg : s.Grounded := Client.playOut_grounded hnew
    (fun c hran => absurd hran (Container.not_ran_new config context token c)) ops
  have hs : s.Sound := ho.status.sound
  obtain ⟨hstep, _, _⟩ := client.perform_step .start ho
  have hstep : Step turn.before.status .start turn.calls (.ok none) turn.after.status :=
    hresult ▸ hstep
  obtain ⟨order, horder, hp⟩ := hstep.paced ho.status
  have hrooted : ∀ {a}, g.Rooted (.key a) ↔ ¬ s.Vacant a := hp.rooted_iff hs hg horder
  refine ⟨fun n _ => ?_, fun a e hget => ⟨?_, fun t ht => ?_, fun t ht => ?_⟩⟩
  · cases n with
    | root => exact iff_of_true .refl fun _ heq => nomatch heq
    | key a =>
      refine hrooted.trans ⟨fun hnot b heq => ?_, fun hall => hall a rfl⟩
      cases heq
      exact hnot
  · exact hrooted.2 (Storage.not_vacant_iff.2 (.inl ⟨e, hget⟩))
  · exact hrooted.2 (Storage.not_vacant_iff.2 (.inr ⟨a, e, hget, t, ht, rfl⟩))
  · by_cases hvacant : s.Vacant t.request.address
    · exact .inr ⟨hvacant, hp.displaced hs hg horder hget ht hvacant⟩
    · exact .inl (hrooted.2 hvacant)

/-- A template with a field that nobody provides, and a constructor that gives its type. -/
def Item.overtaken : List Item :=
  let app := ComponentType.ofName "app::App"
  [.constructor ⟨0, ⟨[], [app], 0⟩⟩, .template ⟨app, [⟨"clock", .ofName "app::Clock"⟩], 1⟩]

/-- The root leads to the template, which is displaced, since its field is vacant. -/
theorem Client.start_rooted_overtaken :
    let turn := Turn.firstStart Item.overtaken
    let app := Entry.provider ⟨"app.App"⟩ (.template ⟨.ofName "app::App",
      [⟨"clock", .ofName "app::Clock"⟩], 1⟩)
    turn.result = .ok none ∧ turn.before.storage.get? ⟨"app.App"⟩ = some app ∧
      turn.before.graph.Rooted (.key ⟨"app.App"⟩) ∧
      ∃ c, Displaces turn.before.storage ⟨turn.after.storage, turn.calls⟩ app c := by
  intro turn app
  have hresult : turn.result = .ok none := eq_ok_of_toOption (by decide +kernel)
  have hget : turn.before.storage.get? ⟨"app.App"⟩ = some app := by decide +kernel
  obtain ⟨_, hentries⟩ := Client.start_rooted .serving default (.root 0) ⟨1⟩ 1 ()
    [.register Item.overtaken] hresult
  obtain ⟨hrooted, _, hrequests⟩ := hentries _ _ hget
  have hclock : ¬ turn.before.graph.Rooted (.key ⟨"app.Clock"⟩) :=
    Graph.not_rooted_of_source (by decide +kernel)
  refine ⟨hresult, hget, hrooted, ?_⟩
  exact ((hrequests _ List.mem_cons_self).resolve_left hclock).2

/-- The vacant field is a node to which the root does not lead, though the start succeeds. -/
theorem Client.start_not_rooted_overtaken :
    (Turn.firstStart Item.overtaken).result = .ok none ∧
      .key ⟨"app.Clock"⟩ ∈ (Turn.firstStart Item.overtaken).before.graph.nodes ∧
      ¬ (Turn.firstStart Item.overtaken).before.graph.Rooted (.key ⟨"app.Clock"⟩) := by
  refine ⟨eq_ok_of_toOption (by decide +kernel), by decide +kernel, ?_⟩
  exact Graph.not_rooted_of_source (by decide +kernel)

end Wiring
