import Wiring.Proofs.Constancy
import Wiring.Proofs.Wired

/-!
# Duplicate values

A plain value registered for a slot that is resolved already is not stored: the entry there counts
it, and nothing else comes of it. The count never gets smaller, and no start goes past an entry with
a count. So from then on no start succeeds, whatever is done to the container and also where
callbacks call it, and what the slot holds stays the same (`Program.duplicates_bar`). A registration
may itself be made by a callback, in the middle of another operation; what it finds is the container
of the moment before (`Trail`).
-/

namespace Wiring

open World

variable {σ τ : Type} {a : Address} {first e : Entry} {s s' : Storage}

/-! ## Slots that bar every start -/

/-- A slot is resolved to what `first` is, and more values have been counted for it. -/
structure Storage.Bars (s : Storage) (a : Address) (first : Entry) : Prop where
  address : first.address = a
  resolved : first.isResolved = true
  counted : ∃ state shadowed, first.shadowed < shadowed ∧
    s.get? a = some { first with service := state, shadowed := shadowed }

/-- At this moment a slot is resolved to what `first` is, with more values counted. What reaches the
program from it is the component of `first`, and whatever the program is, a start from here fails. -/
structure Moment.Barred (m : Moment) (a : Address) (first : Entry) : Prop where
  keeps : m.container.storage.Bars a first
  takes : ∀ c, first.component? = some c → m.Takes a c
  refuses : ∀ {σ : Type} (program : Program σ) (depth : Nat) (w : World (Logged σ)),
    w.container = m.container → ∃ err, (program.perform depth .start w).1 = .error err

/-- A start that ends at this moment has failed. -/
def Moment.Fails (m : Moment) : Prop :=
  ∀ result, m.event = .ends .start result → ∃ err, result = .error err

namespace Storage

theorem Bars.accrues (h : s.Bars a first) (hs : s.Accrues s') : s'.Bars a first := by
  obtain ⟨state, shadowed, hlt, hget⟩ := h.counted
  obtain ⟨state', shadowed', hle, hget'⟩ := hs.exists_entry hget h.resolved
  exact ⟨h.address, h.resolved, state', shadowed', Nat.lt_of_lt_of_le hlt hle, hget'⟩

theorem Bars.component?_eq (h : s.Bars a first) : s.component? a = first.component? := by
  obtain ⟨state, shadowed, _, hget⟩ := h.counted
  rw [component?, hget]
  rfl

/-- The address of an entry that is stored is part of the order. -/
theorem address_mem_order {order : List Address} (hget : s.get? a = some e)
    (horder : s.graph.order = .ok order) : e.address ∈ order := by
  obtain ⟨row, hfind, rfl⟩ := Option.map_eq_some_iff.1 hget
  have hmem : row.2 ∈ s.entries := List.mem_map.2 ⟨row, List.mem_of_find?_eq_some hfind, rfl⟩
  obtain ⟨edge, hedge, hends⟩ := row.2.address_mem_edges
  obtain ⟨_, hnodes, _⟩ := Graph.order_topological s.graph_proper horder
  refine (hnodes _).2 (Graph.mem_nodes_addEdges.2 (.inr ⟨edge, ?_, hends⟩))
  exact List.mem_flatMap.2 ⟨_, hmem, hedge⟩

/-- Registration accrues. -/
theorem Accrues.addAll (s : Storage) (items : List Item) : s.Accrues (s.addAll items).2 :=
  addAll_induction (fun h hadd => h.trans (.add hadd)) items (.refl s)

end Storage

/-! ## No start succeeds -/

namespace Container

variable {client : Client (World τ)} {w : World τ}
  (hsettle : ∀ (e : Entry) (w : World τ), w.container.storage.Bars a first →
    ((settle client e).outcome w).2.container.storage.Bars a first)

include hsettle

/-- A walk does not get past the slot. -/
theorem settleAll_fails {order : List Address} (hbars : w.container.storage.Bars a first)
    (hmem : a ∈ order) : ∃ err, ((settleAll client order).outcome w).1 = .error err := by
  induction order generalizing w with
  | nil => cases hmem
  | cons b rest ih =>
    obtain ⟨state, shadowed, hlt, hget⟩ := hbars.counted
    simp only [settleAll, Action.outcome_bind, Action.outcome_get]
    by_cases heq : a = b
    · subst heq
      have hcounted : shadowed ≠ 0 := by omega
      simp only [hget, Action.outcome_bind, settle, if_pos hcounted, Action.outcome_throw]
      exact ⟨_, rfl⟩
    · have hrest := (List.mem_cons.1 hmem).resolve_left heq
      cases w.container.storage.get? b with
      | none => exact ih hbars hrest
      | some e =>
        have hafter := hsettle e w hbars
        simp only [Action.outcome_bind]
        generalize (settle client e).outcome w = out at hafter
        obtain ⟨err | _, w₁⟩ := out
        · exact ⟨err, rfl⟩
        · exact ih hafter hrest

/-- Resolving fails: the slot is part of the order, if there is one. -/
theorem resolveAll_fails (hbars : w.container.storage.Bars a first) :
    ∃ err, ((resolveAll client).outcome w).1 = .error err := by
  have hwalk : ∀ {order : List Address} {v : World τ},
      v.container.storage = w.container.storage → w.container.storage.graph.order = .ok order →
        ∃ err, (Action.outcome (do
          settleAll client order
          change fun c => { c with history := c.history.rewindToLatest }) v).1 = .error err := by
    intro order v hstorage horder
    obtain ⟨_, _, _, hget⟩ := hbars.counted
    have hmem := Storage.address_mem_order hget horder
    have hfails : ∃ err, ((settleAll client order).outcome v).1 = .error err :=
      settleAll_fails hsettle (hstorage ▸ hbars) (hbars.address ▸ hmem)
    obtain ⟨err, herr⟩ := hfails
    rw [Action.outcome_bind]
    generalize (settleAll client order).outcome v = out at herr
    obtain ⟨result, v'⟩ := out
    obtain rfl : result = .error err := herr
    exact ⟨err, rfl⟩
  simp only [resolveAll, Action.outcome_bind, Action.outcome_get, Action.outcome_liftExcept]
  cases w.container.history.turnOn with
  | error err => exact ⟨err, rfl⟩
  | ok history =>
    simp only [Action.outcome_setHistory]
    cases horder : w.container.storage.graph.order with
    | error err => exact ⟨err, rfl⟩
    | ok order =>
      simp only
      split
      · rw [Action.outcome_bind, Action.outcome_announce]
        exact hwalk rfl horder
      · exact hwalk rfl horder

theorem start_fails (hbars : w.container.storage.Bars a first) :
    ∃ err, ((start client).outcome w).1 = .error err := by
  simp only [start, Action.outcome_bind, Action.outcome_get]
  split
  · exact ⟨_, rfl⟩
  · simp only [Action.outcome_bind, Action.outcome_setRunning, Action.outcome_attempt]
    obtain ⟨err, herr⟩ := resolveAll_fails hsettle (w := { w with
      container := { w.container with running := true } }) hbars
    simp only [herr]
    exact ⟨_, rfl⟩

end Container

/-- Where callbacks let the storage accrue, a start of a container in which a slot bars it fails. -/
theorem Client.act_start_fails {within : Container → List Moment → Container → Prop}
    {client : Client (World (Logged σ))} (henter : ∀ k, within k [] k)
    (haccrues : ∀ ⦃k ms k'⦄, within k ms k' → k.storage.Accrues k'.storage)
    (hclient : ∀ w₀ : World (Logged σ),
      Client.Simulates (fun w w' => w' = w ∧ w₀.Unfolds within w) client client)
    {w : World (Logged σ)} (hbars : w.container.storage.Bars a first) :
    ∃ err, ((Operation.start.act client).outcome w).1 = .error err := by
  have hsettle : ∀ (e : Entry) (w : World (Logged σ)), w.container.storage.Bars a first →
      ((Container.settle client e).outcome w).2.container.storage.Bars a first := by
    intro e w hbars
    obtain ⟨_, _, _, _, hwithin⟩ := Container.settle_simulates (hclient w) e (w := w)
      ⟨rfl, [], by simp, henter _⟩
    exact hbars.accrues (haccrues hwithin)
  obtain ⟨err, herr⟩ := Container.start_fails hsettle hbars
  refine ⟨err, ?_⟩
  rw [Operation.act, Action.outcome_bind_pure, herr]
  rfl

/-- That starts fail once a slot bars them is kept throughout a run. -/
theorem Storage.Bars.course (a : Address) (first : Entry) :
    let fits : Container → List Moment → Container → Prop := fun k ms k' =>
      k.storage.Accrues k'.storage ∧ (k.storage.Bars a first → ∀ m ∈ ms, m.Fails)
    Course σ fits fits where
  rest _ := ⟨.refl _, fun _ _ hmem => nomatch hmem⟩
  append k k₁ k' ms ms' h h' := by
    refine ⟨h.1.trans h'.1, fun hbars m hmem => ?_⟩
    rcases List.mem_append.1 hmem with hmem | hmem
    · exact h.2 hbars m hmem
    · exact h'.2 (hbars.accrues h.1) m hmem
  enter _ := ⟨.refl _, fun _ _ hmem => nomatch hmem⟩
  accrue k k₁ k' ms h haccrues := ⟨h.1.trans haccrues, h.2⟩
  call k k₁ k' ms ms' call h _ h' := by
    refine ⟨h.1.trans h'.1, fun hbars m hmem => ?_⟩
    rcases List.mem_append.1 hmem with hmem | hmem
    · exact h.2 hbars m hmem
    · rcases List.mem_cons.1 hmem with rfl | hmem
      · exact fun _ hends => nomatch hends
      · exact h'.2 (hbars.accrues h.1) m hmem
  ends client hclient op w new _ h := by
    refine ⟨h.1, fun hbars m hmem => ?_⟩
    rcases List.mem_append.1 hmem with hmem | hmem
    · exact h.2 hbars m hmem
    · obtain rfl := List.mem_singleton.1 hmem
      intro result hends
      obtain ⟨rfl, rfl⟩ := Event.ends.inj hends
      exact Client.act_start_fails (fun _ => ⟨.refl _, fun _ _ hmem => nomatch hmem⟩)
        (fun _ _ _ h => h.1) hclient hbars

/-- A start from a container in which a slot bars it fails, whatever the program is. -/
theorem Program.start_fails (program : Program σ) (depth : Nat) {w : World (Logged σ)}
    (hbars : w.container.storage.Bars a first) :
    ∃ err, (program.perform depth .start w).1 = .error err := by
  obtain ⟨client, hperform, hclient⟩ := Timeline.course.exists_client program depth
  rw [hperform]
  exact Client.act_start_fails (fun _ => .nil (.refl _)) (fun _ _ _ h => h.accrues) hclient hbars

/-! ## Registration -/

/-- A value for a slot that is resolved already is counted. -/
theorem Storage.bars_insertValue {c : Component} (hslot : c.type.slot? = some a)
    (hget : s.get? a = some first) (haddr : first.address = a) (hres : first.isResolved = true) :
    s.insertValue c = ⟨s.table.update a Entry.shadow⟩ ∧ (s.insertValue c).Bars a first := by
  have hoccupied : ¬ s.Free a := fun hfree => Bool.noConfusion (hres.symm.trans (hfree first hget))
  obtain ⟨hfree, _⟩ | ⟨_, hcounts⟩ := s.insertValue_cases hslot
  · exact absurd hfree hoccupied
  · refine ⟨hcounts, haddr, hres, first.service, first.shadowed + 1, Nat.lt_succ_self _, ?_⟩
    rw [hcounts]
    refine (Table.get?_update _ _ _ _).trans ?_
    rw [if_pos rfl]
    exact congrArg (Option.map Entry.shadow) hget

/-- How a registration ends, and the container that it leaves. -/
def Container.registering (k : Container) (items : List Item) :
    Except Error (Option Object) × Container :=
  if k.running then (.error .running, k)
  else ((k.storage.addAll items).1.map fun _ => none,
    { k with storage := (k.storage.addAll items).2 })

theorem Container.registering_stopped {k : Container} (h : k.running = false) (items : List Item) :
    k.registering items = ((k.storage.addAll items).1.map fun _ => none,
      { k with storage := (k.storage.addAll items).2 }) :=
  if_neg (by simp [h])

theorem Operation.register_outcome (client : Client (World σ)) (items : List Item) (w : World σ) :
    ((register items).act client).outcome w =
      ((w.container.registering items).1, { w with
        container := (w.container.registering items).2 }) := by
  simp only [act, Container.register, Container.registering, Action.outcome_bind,
    Action.outcome_get]
  by_cases hrunning : w.container.running = true
  · simp only [if_pos hrunning]
    rfl
  · simp only [if_neg hrunning, addItems_outcome]
    cases (w.container.storage.addAll items).1 <;> rfl

/-- If a registration ends at this moment, it found the container `k`. -/
def Moment.Follows (m : Moment) (k : Container) : Prop :=
  ∀ items result, m.event = .ends (.register items) result →
    (result, m.container) = k.registering items

/-- Moments from a container on, at which every registration finds the container of the moment
before. -/
inductive Trail : Container → List Moment → Container → Prop
  | nil : Trail k [] k
  | cons : m.Follows k → Trail m.container ms k' → Trail k (m :: ms) k'

namespace Trail

variable {k k₁ k' : Container} {ms ms' : List Moment}

theorem append (h : Trail k ms k₁) (h' : Trail k₁ ms' k') : Trail k (ms ++ ms') k' := by
  induction h with
  | nil => exact h'
  | cons hfollows _ ih => exact .cons hfollows (ih h')

theorem follows {past later : List Moment} {m₁ m₂ : Moment}
    (h : Trail k (past ++ m₁ :: m₂ :: later) k') : m₂.Follows m₁.container := by
  induction past generalizing k with
  | nil =>
    cases h with
    | cons _ hrest =>
      cases hrest with
      | cons hfollows _ => exact hfollows
  | cons m past ih =>
    cases h with
    | cons _ hrest => exact ih hrest

/-- Every run leaves a trail: no callback is called while items are added. -/
theorem course : Course σ Trail fun k ms _ => ∃ last, Trail k ms last where
  rest _ := .nil
  append _ _ _ _ _ := .append
  enter k := ⟨k, .nil⟩
  accrue _ _ _ _ h _ := h
  call k k₁ k' ms ms' call h _ h' := by
    obtain ⟨last, h⟩ := h
    exact ⟨k', h.append (.cons (fun _ _ hends => nomatch hends) h')⟩
  ends client _ op w new hlog h := by
    obtain ⟨last, h⟩ := h
    cases op with
    | register items =>
      have hnone : new = [] := by
        rw [Operation.register_outcome] at hlog
        simpa using hlog
      subst hnone
      refine .cons (fun items' result hends => ?_) .nil
      obtain ⟨hop, rfl⟩ := Event.ends.inj hends
      cases hop
      rw [Operation.register_outcome]
    | start | invoke _ | resolve _ | stop =>
      exact h.append (.cons (fun _ _ hends => nomatch hends) .nil)

end Trail

/-! ## Duplicates -/

/-- Nothing of a value comes into the storage if its slot is resolved to `first` when the items before
it have been added, and from then on the slot bars every start. -/
theorem Storage.bars_addAll {before : List Item} {c : Component} (after : List Item)
    (hbefore : (s.addAll before).1 = .ok ()) (hslot : c.type.slot? = some a)
    (hfound : (s.addAll before).2.get? a = some first) (haddr : first.address = a)
    (hres : first.isResolved = true) :
    (∀ c', c'.type.slot? = some a →
        s.addAll (before ++ .value c' :: after) = s.addAll (before ++ .value c :: after)) ∧
      (s.addAll (before ++ .value c :: after)).2.Bars a first := by
  have hcounts := fun c hslot => bars_insertValue (c := c) hslot hfound haddr hres
  refine ⟨fun c' hslot' => ?_, ?_⟩
  · rw [addAll_append _ hbefore, addAll_append _ hbefore, addAll, addAll]
    simp only [add, (hcounts c hslot).1, (hcounts c' hslot').1]
  · rw [addAll_append _ hbefore]
    exact (hcounts c hslot).2.accrues (.addAll _ _)

/-- A registration finds the container of the moment before. -/
theorem Program.moments_register (program : Program σ) (depth : Nat) {w : World σ}
    {ops : List Operation} {past later : List Moment} {m₁ m₂ : Moment} {items : List Item}
    {result : Except Error (Option Object)}
    (hmoments : program.moments depth w ops = past ++ m₁ :: m₂ :: later)
    (hevent : m₂.event = .ends (.register items) result) :
    (result, m₂.container) = m₁.container.registering items := by
  obtain ⟨new, k, hnew, htrail⟩ := Trail.course.exists_moments program depth w ops
  have hbegins : Trail w.container (program.moments depth w ops) k := by
    rw [hnew]
    exact .cons (fun _ _ hends => nomatch hends) htrail
  rw [hmoments] at hbegins
  exact hbegins.follows items result hevent

theorem Program.playOut_append (program : Program σ) (depth : Nat) (w : World (Logged σ))
    (ops ops' : List Operation) :
    program.playOut depth w (ops ++ ops') = program.playOut depth (program.playOut depth w ops) ops' :=
  List.foldl_append

/-- After a registration by the caller of the operations, all starts fail if a slot bars them. -/
theorem Program.playOut_register (program : Program σ) (depth : Nat) (w : World (Logged σ))
    (items : List Item) (ops : List Operation) (a : Address) (first : Entry) :
    ∃ m new, (program.playOut depth w (.register items :: ops)).host.moments =
        w.host.moments ++ m :: new ∧ (m.container.storage.Bars a first → ∀ m ∈ new, m.Fails) := by
  obtain ⟨client, hperform, _⟩ := Timeline.course.exists_client program depth
  obtain ⟨new, hlog, _, hfails⟩ := (Storage.Bars.course a first).playOut program depth
    (program.perform depth (.register items) w).2 ops
  let m : Moment := ⟨(program.perform depth (.register items) w).2.container,
    .ends (.register items) (w.container.registering items).1⟩
  have hregister : (program.perform depth (.register items) w).2.host.moments =
      w.host.moments ++ [m] := by
    simp only [m, hperform, Operation.conclude, Operation.register_outcome]
  refine ⟨m, new, hlog.trans ?_, hfails⟩
  rw [hregister, List.append_assoc]
  rfl

/-- Let a registration, by whomever it is made, come to a plain value whose slot is resolved already.
It leaves the same container whichever value that is, and from then on the slot is what it was and
every start fails. -/
theorem Program.duplicates_bar (program : Program σ) (depth : Nat) (config : ContainerConfig)
    (context : Context) (token : Token) (nextIdentity : Identity) (host : σ) (ops : List Operation)
    (before after : List Item) {past later : List Moment} {m₁ m₂ : Moment} {c : Component}
    {result : Except Error (Option Object)}
    (hmoments : program.moments depth (.fresh config context token nextIdentity host) ops =
      past ++ m₁ :: m₂ :: later)
    (hevent : m₂.event = .ends (.register (before ++ .value c :: after)) result)
    (hrunning : m₁.container.running = false)
    (hbefore : (m₁.container.storage.addAll before).1 = .ok ()) (hslot : c.type.slot? = some a)
    (hfound : (m₁.container.storage.addAll before).2.get? a = some first)
    (hres : first.isResolved = true) :
    (∀ c', c'.type.slot? = some a →
        m₂.container = (m₁.container.registering (before ++ .value c' :: after)).2) ∧
      (∀ m ∈ m₂ :: later, m.Barred a first) ∧
      ∀ ops₁ ops₂, ops = ops₁ ++ .register (before ++ .value c :: after) :: ops₂ →
        program.moments depth (.fresh config context token nextIdentity host) ops₁ = past ++ [m₁] →
          ∀ m ∈ later, m.Fails := by
  -- The entries stand at their addresses at the beginning, hence also where the value is added.
  have hnew : (Container.new config context token).InOrder :=
    Container.new_inOrder config context token
  have haddressed : (Container.new config context token).storage.Addressed := fun _ _ hget =>
    (hnew.status.sound.fits hget).address_eq
  obtain ⟨s, htime⟩ := program.moments_timeline depth
    (.fresh config context token nextIdentity host) ops
  rw [hmoments] at htime
  obtain ⟨haccrues, _⟩ := htime.mem (m := m₁) (by simp)
  have haddr := (haccrues.trans (.addAll _ before)).addressed haddressed hfound
  obtain ⟨hsame, hbars⟩ := Storage.bars_addAll after hbefore hslot hfound haddr hres
  have hregister := program.moments_register depth hmoments hevent
  rw [Container.registering_stopped hrunning] at hregister
  have hbars₂ : m₂.container.storage.Bars a first := (Prod.mk.inj hregister).2 ▸ hbars
  refine ⟨fun c' hslot' => ?_, fun m hmem => ?_, fun ops₁ ops₂ hops hmoments₁ => ?_⟩
  · rw [(Prod.mk.inj hregister).2, Container.registering_stopped hrunning, hsame c' hslot']
  · have hlater : m₂.container.storage.Accrues m.container.storage ∧ m.Faithful := by
      rcases List.mem_cons.1 hmem with rfl | hmem
      · exact ⟨.refl _, (htime.mem (by simp)).2⟩
      · have hpairs := (List.pairwise_append.1 htime.pairwise).2.1
        exact (List.pairwise_cons.1 (List.pairwise_cons.1 hpairs).2).1 m hmem
    have hkeeps := hbars₂.accrues hlater.1
    exact ⟨hkeeps, fun c hc => hlater.2.takes (hkeeps.component?_eq.trans hc),
      fun program depth w hw => program.start_fails depth (hw ▸ hkeeps)⟩
  · let w₀ := World.fresh config context token nextIdentity host
    obtain ⟨m, new, hlog, hfails⟩ := program.playOut_register depth
      (program.playOut depth w₀.unlogged ops₁) (before ++ .value c :: after) ops₂ a first
    have hsplit : program.moments depth w₀ ops = program.moments depth w₀ ops₁ ++ m :: new := by
      have hplay := (program.playOut_append depth w₀.unlogged ops₁ _).symm ▸ hlog
      rw [← hops] at hplay
      exact congrArg (List.cons _) hplay
    rw [hmoments, hmoments₁, List.append_assoc] at hsplit
    obtain ⟨_, hsplit⟩ := List.cons.inj (List.append_cancel_left hsplit)
    obtain ⟨rfl, rfl⟩ := List.cons.inj hsplit
    exact hfails hbars₂

/-- The items whose registration ends at a moment. -/
def Moment.registered? (m : Moment) : Option (List Item) :=
  match m.event with
  | .ends (.register items) _ => some items
  | _ => none

/-- A program in which every stop hook registers a pool. -/
def Program.refilling : Program Unit where
  construct _ _ := .finish () (.ok ())
  supply _ _ := .finish () ⟨.made 0, none⟩
  assemble _ _ := .finish () (.ok ⟨.made 0, none⟩)
  up _ _ := .finish () (.ok ())
  down _ := .perform () (.register [.value ⟨.ofName "app::Pool", .made 1, none⟩]) fun _ =>
    .finish () (.ok ())

/-- It is run with a pool that is a service. The fifth moment is the call of the stop hook. -/
def Program.refilled : List Moment :=
  refilling.moments 1 (.fresh default (.root 0) ⟨1⟩ 1 ())
    [.register [.value ⟨.ofName "app::Pool", .made 0, some ⟨.plain, .made 0⟩⟩], .start, .stop, .start]

theorem Program.duplicates_bar_refilled :
    ∃ past m₁ m₂ later result a first, refilled = past ++ m₁ :: m₂ :: later ∧
      m₂.event = .ends (.register [.value ⟨.ofName "app::Pool", .made 1, none⟩]) result ∧
      m₁.container.running = false ∧ (ComponentType.ofName "app::Pool").slot? = some a ∧
      m₁.container.storage.get? a = some first ∧ first.isResolved = true ∧
      ∀ m ∈ m₂ :: later, m.Barred a first := by
  let c : Component := ⟨.ofName "app::Pool", .made 1, none⟩
  have hsplit := (List.take_append_drop 4 refilled).symm
  have hrunning : (refilled.drop 4).head?.map (·.container.running) = some false := by
    decide +kernel
  have hregistered : ((refilled.drop 4).tail.head?.bind Moment.registered?) = some [.value c] := by
    decide +kernel
  have hresolved : (refilled.drop 4).head?.bind (fun m => c.type.slot?.bind fun a =>
      (m.container.storage.get? a).map Entry.isResolved) = some true := by decide +kernel
  generalize refilled.drop 4 = rest at hsplit hrunning hregistered hresolved
  obtain _ | ⟨m₁, _ | ⟨m₂, later⟩⟩ := rest
  · cases hrunning
  · cases hregistered
  · have hresolved : (c.type.slot?.bind fun a =>
        (m₁.container.storage.get? a).map Entry.isResolved) = some true := hresolved
    obtain ⟨a, hslot, hfound⟩ := Option.bind_eq_some_iff.1 hresolved
    obtain ⟨first, hget, hres⟩ := Option.map_eq_some_iff.1 hfound
    obtain ⟨result, hevent⟩ : ∃ result, m₂.event = .ends (.register [.value c]) result := by
      revert hregistered
      simp only [List.tail_cons, List.head?_cons, Option.bind_some, Moment.registered?]
      split
      · next items result hevent =>
        rintro ⟨rfl⟩
        exact ⟨result, hevent⟩
      · exact nofun
    have hrunning : m₁.container.running = false := Option.some.inj hrunning
    have hbarred := refilling.duplicates_bar 1 default (.root 0) ⟨1⟩ 1 () _ [] [] hsplit hevent
      hrunning rfl hslot hget hres
    exact ⟨_, m₁, m₂, later, result, a, first, hsplit, hevent, hrunning, hslot, hget, hres,
      hbarred.2.1⟩

end Wiring
