import Wiring.Proofs.Moments
import Wiring.Proofs.Simulation

/-!
# A resolved slot is constant

Once a slot is resolved, its entry endures, and all that reaches the program from it is the component
that it held first: every later argument, field and answer to a request, whatever callbacks and
operations come in between, and also where callbacks call the container
(`Program.moments_constant`). Two facts make this up. In the course of a run the storage accrues from
each moment to the next, and what is handed over at a moment is what the storage of that moment
answers (`Timeline`).
-/

namespace Wiring

open World

variable {σ α : Type}

/-! ## What a moment hands over -/

/-- The answer to a request for a type that finds a component in a slot. -/
def Component.answer (c : Component) (a : Address) (t : ComponentType) : Except Error Object :=
  match c.share? t with
  | some object => .ok object
  | none => .error (.typeMismatch a t.name)

/-- The answer of a container to a request for a type. -/
def Container.answer (container : Container) (t : ComponentType) : Except Error Object :=
  if container.running then do
    let (a, c) ← container.storage.lookup t
    c.answer a t
  else .error .notStarted

/-- The component that reaches the program from a slot at this moment, if any does, is `c`. -/
def Moment.Takes (m : Moment) (a : Address) (c : Component) : Prop :=
  match m.event with
  | .calls (.construct k args _) =>
    -- Each argument for a parameter in the slot.
    List.Forall₂ (fun t object => t.shared.slot? = some a → c.share? t = some object)
      k.callable.params args
  | .calls (.assemble k values _) =>
    -- Each value from the slot, and there is one for each field in it that has a name of its own.
    (∀ value ∈ values.values, value.address = a → value.component = c) ∧
      ∀ field ∈ k.fields, field.type.shared.slot? = some a →
        (∀ other ∈ k.fields, other.name = field.name → other = field) →
          ⟨field.name, a, c⟩ ∈ values.values
  | .ends (.resolve t) result =>
    -- The answer to a request in the slot.
    t.shared.slot? = some a → result =
      if m.container.running then (c.answer a t).map some else .error .notStarted
  | _ => True

/-- What is handed over at a moment is what the container of that moment answers. -/
def Moment.Faithful (m : Moment) : Prop :=
  match m.event with
  | .calls (.construct k args _) =>
    m.container.storage.arguments k.callable.params = .ok args
  | .calls (.assemble k values _) =>
    ∃ a, m.container.storage.fillFields k.fields (.empty a) = .ok values
  | .ends (.resolve t) result => result = (m.container.answer t).map some
  | _ => True

theorem Moment.Faithful.takes {m : Moment} (h : m.Faithful) {a : Address} {c : Component}
    (hc : m.container.storage.component? a = some c) : m.Takes a c := by
  have hlookup : ∀ {t : ComponentType}, t.shared.slot? = some a →
      m.container.storage.lookup t = .ok (a, c) := fun hslot =>
    Storage.lookup_eq_ok.2 ⟨hslot, hc⟩
  obtain ⟨container, event⟩ := m
  cases event with
  | begins => trivial
  | calls call =>
    cases call with
    | construct k args result =>
      refine (Storage.forall_of_arguments h).imp ?_
      rintro t object ⟨b, c', hfound, hshare⟩ hslot
      cases (hlookup hslot).symm.trans hfound
      exact hshare
    | assemble k values result =>
      obtain ⟨b, hvalues⟩ := h
      refine ⟨fun value hmem haddr => ?_, fun field hmem hslot hname => ?_⟩
      · rcases Storage.exists_field_of_fillFields hvalues hmem with hnone | ⟨field, _, _, hfound⟩
        · cases hnone
        · obtain ⟨_, hc'⟩ := Storage.lookup_eq_ok.1 hfound
          rw [haddr] at hc'
          exact Option.some.inj (hc'.symm.trans hc)
      · obtain ⟨b', c', hfound, hfind⟩ := Storage.find?_fillFields_self hvalues hmem hname
        cases (hlookup hslot).symm.trans hfound
        exact List.mem_of_find?_eq_some hfind
    | _ => trivial
  | ends op result =>
    cases op with
    | resolve t =>
      intro hslot
      have hresult : result = (container.answer t).map some := h
      rw [hresult, Container.answer, hlookup hslot]
      split <;> rfl
    | _ => trivial

/-! ## The course of a run -/

/-- Moments between two storages: the storage accrues from each to the next, and what is handed over
is what the storage answers. -/
inductive Timeline : Storage → List Moment → Storage → Prop
  | nil : s.Accrues s' → Timeline s [] s'
  | cons : s.Accrues m.container.storage → m.Faithful →
      Timeline m.container.storage ms s' → Timeline s (m :: ms) s'

namespace Timeline

variable {s s₁ s' : Storage} {ms ms' : List Moment}

theorem of_accrues (haccrues : s.Accrues s₁) (h : Timeline s₁ ms s') : Timeline s ms s' := by
  cases h with
  | nil hend => exact .nil (haccrues.trans hend)
  | cons hnext hfaithful hrest => exact .cons (haccrues.trans hnext) hfaithful hrest

theorem append (h : Timeline s ms s₁) (h' : Timeline s₁ ms' s') : Timeline s (ms ++ ms') s' := by
  induction h with
  | nil hend => exact h'.of_accrues hend
  | cons hnext hfaithful _ ih => exact .cons hnext hfaithful (ih h')

theorem accrues (h : Timeline s ms s') : s.Accrues s' := by
  induction h with
  | nil hend => exact hend
  | cons hnext _ _ ih => exact hnext.trans ih

/-- From the beginning on, the storage accrues to every moment. -/
theorem mem (h : Timeline s ms s') {m : Moment} (hmem : m ∈ ms) :
    s.Accrues m.container.storage ∧ m.Faithful := by
  induction h with
  | nil => cases hmem
  | cons hnext hfaithful _ ih =>
    rcases List.mem_cons.1 hmem with rfl | hmem
    · exact ⟨hnext, hfaithful⟩
    · obtain ⟨haccrues, hfaithful⟩ := ih hmem
      exact ⟨hnext.trans haccrues, hfaithful⟩

theorem pairwise (h : Timeline s ms s') : ms.Pairwise fun earlier later =>
    earlier.container.storage.Accrues later.container.storage ∧ later.Faithful := by
  induction h with
  | nil => exact .nil
  | cons _ _ hrest ih => exact .cons (fun m hmem => hrest.mem hmem) ih

end Timeline

/-! ## Courses of a run -/

/-- What was logged from one world to the other fits in between their containers. -/
def World.Unfolds (fits : Container → List Moment → Container → Prop)
    (w w' : World (Logged σ)) : Prop :=
  ∃ new, w'.host.moments = w.host.moments ++ new ∧ fits w.container new w'.container

/-- A request does nothing but answer. -/
theorem Container.resolve_outcome (t : ComponentType) (w : World σ) :
    (resolve t).outcome w = (w.container.answer t, w) := by
  simp only [resolve, answer, Action.outcome_bind, Action.outcome_get]
  cases w.container.running with
  | false => rfl
  | true =>
    simp only [if_true, Action.outcome_bind, Action.outcome_liftExcept]
    cases w.container.storage.lookup t with
    | error e => rfl
    | ok found =>
      simp only [bind, Except.bind, Component.answer]
      cases found.2.share? t <;> rfl

@[inherit_doc Container.resolve_outcome]
theorem Operation.resolve_outcome (client : Client (World σ)) (t : ComponentType) (w : World σ) :
    ((resolve t).act client).outcome w = ((w.container.answer t).map some, w) := by
  rw [act, Action.outcome_bind, Container.resolve_outcome]
  cases w.container.answer t <;> rfl

/-- A way in which the moments of operations fit in between two containers that every run keeps to.
`within` is how far it goes in the middle of an operation: a change lets the storage accrue, a call is
made with what the storage answers, and what its callback does fits in again. Where an operation ends
whose callbacks keep to it, its moments fit in. -/
structure Course (σ : Type) (fits within : Container → List Moment → Container → Prop) : Prop where
  rest : ∀ k, fits k [] k
  append : ∀ ⦃k k₁ k' ms ms'⦄, fits k ms k₁ → fits k₁ ms' k' → fits k (ms ++ ms') k'
  enter : ∀ k, within k [] k
  accrue : ∀ ⦃k k₁ k' ms⦄, within k ms k₁ → k₁.storage.Accrues k'.storage → within k ms k'
  call : ∀ ⦃k k₁ k' ms ms' call⦄, within k ms k₁ → Moment.Faithful ⟨k₁, .calls call⟩ →
    fits k₁ ms' k' → within k (ms ++ ⟨k₁, .calls call⟩ :: ms') k'
  ends : ∀ ⦃client : Client (World (Logged σ))⦄,
    (∀ w₀ : World (Logged σ), Client.Simulates (fun w w' => w' = w ∧ w₀.Unfolds within w)
      client client) →
    ∀ (op : Operation) (w : World (Logged σ)) new,
      let out := (op.act client).outcome w
      out.2.host.moments = w.host.moments ++ new → within w.container new out.2.container →
        fits w.container (new ++ [⟨out.2.container, .ends op out.1⟩]) out.2.container

namespace Course

variable {fits within : Container → List Moment → Container → Prop} (h : Course σ fits within)

include h

theorem refl (w : World (Logged σ)) : w.Unfolds fits w := ⟨[], by simp, h.rest _⟩

theorem trans {w₁ w₂ w₃ : World (Logged σ)} (h₁ : w₁.Unfolds fits w₂) (h₂ : w₂.Unfolds fits w₃) :
    w₁.Unfolds fits w₃ := by
  obtain ⟨new₁, hlog₁, hfits₁⟩ := h₁
  obtain ⟨new₂, hlog₂, hfits₂⟩ := h₂
  exact ⟨new₁ ++ new₂, by rw [hlog₂, hlog₁, List.append_assoc], h.append hfits₁ hfits₂⟩

/-- A callback leads to a call and what comes of it, provided that what it is called with is what the
storage answers. -/
theorem logging {callback : StateM (World (Logged σ)) α} {call : Container → α → Call}
    (hcallback : ∀ w : World (Logged σ), w.Unfolds fits (callback w).2)
    {w₀ w : World (Logged σ)} (hw : w₀.Unfolds within w)
    (hcall : ∀ a, Moment.Faithful ⟨w.container, .calls (call w.container a)⟩) :
    w₀.Unfolds within (World.logging callback call w).2 := by
  obtain ⟨before, hbefore, hwithin⟩ := hw
  obtain ⟨new, hlog, hfits⟩ := hcallback { w with host := ⟨w.host.state, []⟩ }
  let answer := (callback { w with host := ⟨w.host.state, []⟩ }).1
  have hnew : (callback { w with host := ⟨w.host.state, []⟩ }).2.host.moments = new := by simp [hlog]
  refine ⟨before ++ ⟨w.container, .calls (call w.container answer)⟩ :: new, ?_,
    h.call hwithin (hcall answer) hfits⟩
  rw [← List.append_assoc, ← hbefore, ← hnew]
  rfl

theorem script {perform : Performer σ}
    (hperform : ∀ op (w : World (Logged σ)), w.Unfolds fits (perform op w).2)
    (script : Script σ α) (w : World (Logged σ)) : w.Unfolds fits (script.run perform w).2 := by
  induction script generalizing w with
  | finish state answer => exact h.refl w
  | look next ih => exact ih w.host.state w.container w
  | perform state op next ih =>
    have hop := hperform op { w with host := { w.host with state } }
    exact h.trans hop (ih _ _)

/-- The callbacks of a program keep to the course, and so does what an operation does besides. -/
theorem client_simulates (program : Program σ) {perform : Performer σ}
    (hperform : ∀ op (w : World (Logged σ)), w.Unfolds fits (perform op w).2) (w₀ : World (Logged σ)) :
    Client.Simulates (fun w w' => w' = w ∧ w₀.Unfolds within w) (program.client perform)
      (program.client perform) := by
  have hcalls : ∀ {β : Type} (script : Script σ β) (call : Container → β → Call)
      {w w' : World (Logged σ)}, (w' = w ∧ w₀.Unfolds within w) →
        (∀ b, Moment.Faithful ⟨w.container, .calls (call w.container b)⟩) →
          (World.logging (script.run perform) call w').1 =
              (World.logging (script.run perform) call w).1 ∧
            (World.logging (script.run perform) call w').2 =
              (World.logging (script.run perform) call w).2 ∧
            w₀.Unfolds within (World.logging (script.run perform) call w).2 := by
    intro β script call w w' hw hfaithful
    obtain ⟨rfl, hw⟩ := hw
    exact ⟨rfl, rfl, h.logging (h.script hperform script) hw hfaithful⟩
  exact {
    container := by
      rintro w _ ⟨rfl, _⟩
      rfl
    nextIdentity := by
      rintro w _ ⟨rfl, _⟩
      rfl
    change := by
      rintro w _ ⟨rfl, new, hlog, hwithin⟩ c hc
      exact ⟨rfl, new, hlog, h.accrue hwithin hc⟩
    announce := by
      rintro w _ ⟨rfl, hw⟩ notice
      exact ⟨rfl, hw⟩
    identify := by
      rintro w _ ⟨rfl, hw⟩
      exact ⟨rfl, hw⟩
    construct := fun _ _ _ _ hw hargs => hcalls _ _ hw fun _ => hargs
    supply := fun _ _ _ _ hw => hcalls _ _ hw fun _ => trivial
    assemble := fun _ _ _ a _ hw hvalues => hcalls _ _ hw fun _ => ⟨a, hvalues⟩
    up := fun _ _ _ _ hw => hcalls _ _ hw fun _ => trivial
    down := fun _ _ _ hw => hcalls _ _ hw fun _ => trivial }

/-- An operation keeps to the course, and its result is logged as it is. -/
theorem conclude {client : Client (World (Logged σ))}
    (hclient : ∀ w₀ : World (Logged σ),
      Client.Simulates (fun w w' => w' = w ∧ w₀.Unfolds within w) client client)
    (op : Operation) (w : World (Logged σ)) : w.Unfolds fits (Operation.conclude client op w).2 := by
  have henter : w.Unfolds within w := ⟨[], by simp, h.enter _⟩
  obtain ⟨_, _, new, hlog, hwithin⟩ := op.act_simulates (hclient w) (w := w) ⟨rfl, henter⟩
  refine ⟨new ++ [_], ?_, h.ends hclient op w new hlog hwithin⟩
  rw [← List.append_assoc, ← hlog]
  rfl

theorem perform (program : Program σ) (depth : Nat) :
    ∀ op (w : World (Logged σ)), w.Unfolds fits (program.perform depth op w).2 := by
  induction depth with
  | zero => exact h.conclude (h.client_simulates program fun _ => h.refl)
  | succ depth ih => exact h.conclude (h.client_simulates program ih)

/-- What performs the operations of a program is a client that keeps to the course. -/
theorem exists_client (program : Program σ) (depth : Nat) :
    ∃ client, program.perform depth = Operation.conclude client ∧
      ∀ w₀ : World (Logged σ), Client.Simulates (fun w w' => w' = w ∧ w₀.Unfolds within w)
        client client := by
  cases depth with
  | zero => exact ⟨_, rfl, h.client_simulates program fun _ => h.refl⟩
  | succ depth => exact ⟨_, rfl, h.client_simulates program (h.perform program depth)⟩

/-- A run keeps to the course. -/
theorem playOut (program : Program σ) (depth : Nat) (w : World (Logged σ)) (ops : List Operation) :
    w.Unfolds fits (program.playOut depth w ops) := by
  induction ops generalizing w with
  | nil => exact h.refl w
  | cons op ops ih => exact h.trans (h.perform program depth op w) (ih _)

/-- The moments of a run fit in between the container at its beginning and some other. -/
theorem exists_moments (program : Program σ) (depth : Nat) (w : World σ) (ops : List Operation) :
    ∃ new k, program.moments depth w ops = ⟨w.container, .begins⟩ :: new ∧
      fits w.container new k := by
  obtain ⟨new, hlog, hfits⟩ := h.playOut program depth w.unlogged ops
  exact ⟨new, _, congrArg (List.cons _) hlog, hfits⟩

end Course

/-- The result that is logged at the end of an operation is the one to which it came. -/
theorem Operation.faithful (client : Client (World (Logged σ))) (op : Operation)
    (w : World (Logged σ)) : Moment.Faithful
      ⟨((op.act client).outcome w).2.container, .ends op ((op.act client).outcome w).1⟩ := by
  cases op with
  | resolve t => simp only [Moment.Faithful, Operation.resolve_outcome]
  | _ => trivial

/-- That the storage accrues from moment to moment is a course. -/
theorem Timeline.course : Course σ (fun k ms k' => Timeline k.storage ms k'.storage)
    fun k ms k' => Timeline k.storage ms k'.storage where
  rest _ := .nil (.refl _)
  append _ _ _ _ _ := .append
  enter _ := .nil (.refl _)
  accrue _ _ _ ms htime haccrues :=
    List.append_nil ms ▸ htime.append (.nil haccrues)
  call _ _ _ _ _ _ htime hfaithful hrest := htime.append (.cons (.refl _) hfaithful hrest)
  ends client _ op w _ _ htime :=
    htime.append (.cons (.refl _) (op.faithful client w) (.nil (.refl _)))

/-- The moments of a run are a course from its beginning. -/
theorem Program.moments_timeline (program : Program σ) (depth : Nat) (w : World σ)
    (ops : List Operation) : ∃ s, Timeline w.container.storage (program.moments depth w ops) s := by
  obtain ⟨new, k, hmoments, htime⟩ := Timeline.course.exists_moments program depth w ops
  rw [hmoments]
  exact ⟨k.storage, .cons (.refl _) trivial htime⟩

/-- From each moment of a run to every later one the storage endures: no entry is lost, and a
resolved one keeps its payload. And what reaches the program from a slot that held a component before
is that component. -/
theorem Program.moments_constant (program : Program σ) (depth : Nat) (w : World σ)
    (ops : List Operation) :
    (program.moments depth w ops).Pairwise fun earlier later =>
      earlier.container.storage.Endures later.container.storage ∧
        ∀ a c, earlier.container.storage.component? a = some c → later.Takes a c := by
  obtain ⟨s, htime⟩ := program.moments_timeline depth w ops
  refine htime.pairwise.imp fun ⟨haccrues, hfaithful⟩ => ⟨haccrues.endures, fun a c hc => ?_⟩
  exact hfaithful.takes (haccrues.endures.keeps hc)

end Wiring
