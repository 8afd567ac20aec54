import Wiring.Proofs.Constancy

/-!
# Ways to ask for a component

A component is asked for by a request to a running container, by a parameter of a callable, and by a
field of a template. What there is for a type is said once, from the slot of the type and the component
that it holds (`Storage.access`). A request reports just this; a callable is called with what there is
for its parameters, or else not at all (`Storage.gather`); and a field that is taken once at the type it
is declared with gives just this again (`Storage.take_declared`).

So the ways agree at every moment at which a container runs (`World.Concords`), and in no run does a
constructor or a template get a component of another type (`Container.accesses_agree`).
-/

namespace Wiring

open World

/-! ## What there is for a type -/

/-- What there is for a request. -/
inductive Access where
  /-- A shared handle. -/
  | delivers (object : Object)
  /-- Nothing, for this reason. -/
  | fails (error : Error)
  /-- A component of another type in the slot. -/
  | mismatch (a : Address)

namespace Access

/-- Why there is nothing. -/
def failure? : Access → Option Error
  | fails error => some error
  | _ => none

/-- How it is reported where the type goes by a name. -/
def result (name : String) : Access → Except Error Object
  | delivers object => .ok object
  | fails error => .error error
  | mismatch a => .error (.typeMismatch a name)

end Access

/-- What there is for a request for a type: a handle on the component in its slot if that is of the
type itself, the component if it is such a handle already. -/
def Storage.access (s : Storage) (t : ComponentType) : Access :=
  match t.slot? with
  | none => .fails (.unsupported t.request.name)
  | some a =>
    match s.component? a with
    | none => .fails (.notInitiated a)
    | some c =>
      if c.type = t then .delivers (.handle c.object)
      else if c.type = t.shared then .delivers c.object
      else .mismatch a

/-- What parameters of the given types are called with: what there is for each of them. If there is
nothing for one, the first such one is reported; else the first component of another type is. -/
def Storage.gather (s : Storage) (params : List ComponentType) : Except Error (List Object) :=
  match params.findSome? fun t => (s.access t).failure? with
  | some error => .error error
  | none => params.mapM fun t => (s.access t).result t.shared.name

/-- The type that a name is declared with. Of several fields of the name the last one counts. -/
def Field.declared? (fields : List Field) (name : String) : Option ComponentType :=
  match fields with
  | [] => none
  | field :: rest => (declared? rest name).or (if field.name = name then some field.type else none)

/-- The field values that are left when some were taken. -/
def FieldValues.takeAll (v : FieldValues) : List (ComponentType × String) → FieldValues
  | [] => v
  | (t, name) :: rest => (v.take t name).2.takeAll rest

namespace Storage

variable {s : Storage} {t : ComponentType} {a : Address}

/-- Something is delivered exactly if the slot of the type holds a component of the type or of a
handle on it. -/
theorem exists_delivers_iff : (∃ object, s.access t = .delivers object) ↔
    ∃ a c, t.slot? = some a ∧ s.component? a = some c ∧ (c.type = t ∨ c.type = t.shared) := by
  unfold access
  cases hslot : t.slot? with
  | none => simp
  | some a =>
    cases hc : s.component? a with
    | none => simp [hc]
    | some c =>
      simp only [hc]
      split_ifs with htype hshared
      · simp [hc, htype]
      · simp [hc, hshared]
      · simp [hc, htype, hshared]

theorem access_of_lookup_error {e : Error} (h : s.lookup t = .error e) : s.access t = .fails e := by
  rcases lookup_eq_error h with ⟨hslot, rfl⟩ | ⟨a, hslot, hnone, rfl⟩
  · rw [slot?_shared_eq] at hslot
    simp only [access, hslot]
  · rw [slot?_shared_eq] at hslot
    simp only [access, hslot, hnone]

theorem access_of_lookup {c : Component} (h : s.lookup t = .ok (a, c)) :
    s.access t = match c.share? t with
      | some object => .delivers object
      | none => .mismatch a := by
  obtain ⟨hslot, hc⟩ := lookup_eq_ok.1 h
  rw [slot?_shared_eq] at hslot
  simp only [access, hslot, hc, Component.share?]
  split_ifs <;> rfl

/-- There is nothing for a type exactly if a lookup fails. -/
theorem failure?_access (s : Storage) (t : ComponentType) : (s.access t).failure? =
    match s.lookup t with
    | .ok _ => none
    | .error e => some e := by
  cases h : s.lookup t with
  | error e => rw [access_of_lookup_error h, Access.failure?]
  | ok found =>
    rw [access_of_lookup h]
    cases found.2.share? t <;> rfl

/-- What is reported where the lookup found a component. -/
theorem result_access {c : Component} (h : s.lookup t = .ok (a, c)) (name : String) :
    (s.access t).result name = match c.share? t with
      | some object => .ok object
      | none => .error (.typeMismatch a name) := by
  rw [access_of_lookup h]
  cases c.share? t <;> rfl

/-! ## Requests -/

/-- A running container answers a request with what there is. -/
theorem result_of_running {container : Container} (hrunning : container.running = true) :
    container.answer t = (container.storage.access t).result t.name := by
  rw [Container.answer, if_pos hrunning]
  cases h : container.storage.lookup t with
  | error e =>
    rw [access_of_lookup_error h]
    rfl
  | ok found =>
    rw [result_access h]
    rfl

/-! ## Parameters -/

theorem lookupAll_of_failure {params : List ComponentType} {e : Error}
    (h : (params.findSome? fun t => (s.access t).failure?) = some e) :
    s.lookupAll params = .error e := by
  induction params with
  | nil => cases h
  | cons t params ih =>
    rw [List.findSome?_cons, failure?_access] at h
    rw [lookupAll]
    cases hlookup : s.lookup t with
    | error e' =>
      rw [hlookup] at h
      exact congrArg Except.error (Option.some.inj h)
    | ok found =>
      rw [hlookup] at h
      simp only [bind, Except.bind, ih h]

theorem lookupAll_of_no_failure {params : List ComponentType}
    (h : (params.findSome? fun t => (s.access t).failure?) = none) :
    ∃ components, s.lookupAll params = .ok components ∧
      List.Forall₂ (fun t c => ∃ a, s.lookup t = .ok (a, c)) params components := by
  induction params with
  | nil => exact ⟨[], rfl, .nil⟩
  | cons t params ih =>
    rw [List.findSome?_cons, failure?_access] at h
    cases hlookup : s.lookup t with
    | error e =>
      rw [hlookup] at h
      cases h
    | ok found =>
      rw [hlookup] at h
      obtain ⟨components, hall, hforall⟩ := ih h
      exact ⟨found.2 :: components, by simp [lookupAll, hlookup, hall, bind, Except.bind, pure, Except.pure],
        .cons ⟨found.1, hlookup⟩ hforall⟩

theorem shareAll_eq {params : List ComponentType} {components : List Component}
    (h : List.Forall₂ (fun t c => ∃ a, s.lookup t = .ok (a, c)) params components) :
    shareAll params components = params.mapM fun t => (s.access t).result t.shared.name := by
  induction h with
  | nil => rfl
  | @cons t c params components hlookup _ ih =>
    obtain ⟨a, hlookup⟩ := hlookup
    rw [shareAll, List.mapM_cons, result_access hlookup, ← ih]
    cases c.share? t with
    | some object => rfl
    | none =>
      rw [slot?_shared (lookup_eq_ok.1 hlookup).1]
      rfl

/-- Arguments are gathered. -/
theorem arguments_eq_gather (s : Storage) (params : List ComponentType) :
    s.arguments params = s.gather params := by
  rw [arguments, gather]
  split
  · next e h => rw [lookupAll_of_failure h]; rfl
  · next h =>
    obtain ⟨components, hlookup, hforall⟩ := lookupAll_of_no_failure h
    rw [hlookup]
    exact shareAll_eq hforall

/-! ## Fields -/

theorem fillFields_of_failure {fields : List Field} {v : FieldValues} {e : Error}
    (h : (fields.findSome? fun field => (s.access field.type).failure?) = some e) :
    s.fillFields fields v = .error e := by
  induction fields generalizing v with
  | nil => cases h
  | cons field fields ih =>
    rw [List.findSome?_cons, failure?_access] at h
    rw [fillFields]
    cases hlookup : s.lookup field.type with
    | error e' =>
      rw [hlookup] at h
      exact congrArg Except.error (Option.some.inj h)
    | ok found =>
      rw [hlookup] at h
      exact ih h

theorem fillFields_of_no_failure {fields : List Field} {v : FieldValues}
    (h : (fields.findSome? fun field => (s.access field.type).failure?) = none) :
    ∃ values, s.fillFields fields v = .ok values := by
  induction fields generalizing v with
  | nil => exact ⟨v, rfl⟩
  | cons field fields ih =>
    rw [List.findSome?_cons, failure?_access] at h
    cases hlookup : s.lookup field.type with
    | error e =>
      rw [hlookup] at h
      cases h
    | ok found =>
      rw [hlookup] at h
      obtain ⟨values, hvalues⟩ := ih (v := v.insert ⟨field.name, found.1, found.2⟩) h
      exact ⟨values, by rw [fillFields, hlookup]; exact hvalues⟩

/-- A declared name stands for the component in the slot of the type that it is declared with. -/
theorem find?_of_declared {fields : List Field} {v values : FieldValues} (name : String)
    (h : s.fillFields fields v = .ok values) : match Field.declared? fields name with
      | some t => ∃ a c, s.lookup t = .ok (a, c) ∧
        values.values.find? (·.name = name) = some ⟨name, a, c⟩
      | none => values.values.find? (·.name = name) = v.values.find? (·.name = name) := by
  induction fields generalizing v with
  | nil =>
    cases h
    rfl
  | cons field fields ih =>
    simp only [fillFields, bind, Except.bind] at h
    split at h
    · cases h
    · next found hlookup =>
      have ih := ih h
      rw [Field.declared?]
      cases hlater : Field.declared? fields name with
      | some t => rwa [hlater] at ih
      | none =>
        rw [hlater, find?_insert] at ih
        by_cases hname : field.name = name
        · subst hname
          rw [if_pos rfl] at ih ⊢
          exact ⟨found.1, found.2, hlookup, ih⟩
        · rwa [if_neg hname] at ih ⊢

theorem find?_takeAll {v : FieldValues} {others : List (ComponentType × String)} {name : String}
    (h : ∀ other ∈ others, other.2 ≠ name) :
    (v.takeAll others).values.find? (·.name = name) = v.values.find? (·.name = name) := by
  induction others generalizing v with
  | nil => rfl
  | cons other others ih =>
    have hne := h other List.mem_cons_self
    have herase : (v.erase other.2).values.find? (·.name = name) = v.values.find? (·.name = name) := by
      rw [FieldValues.erase, List.find?_filter]
      congr 1
      funext value
      by_cases hvalue : value.name = name <;> simp [hvalue, hne.symm]
    rw [FieldValues.takeAll, ih fun other' hmem => h other' (List.mem_cons_of_mem _ hmem)]
    unfold FieldValues.take
    split
    · rfl
    · split <;> exact herase

/-- A field that is taken at the type it is declared with, once but at any time, gives what there is
for the type. -/
theorem take_declared {fields : List Field} {v values : FieldValues} {name : String}
    (h : s.fillFields fields v = .ok values) (hdeclared : Field.declared? fields name = some t)
    {others : List (ComponentType × String)} (hothers : ∀ other ∈ others, other.2 ≠ name) :
    ((values.takeAll others).take t name).1 = (s.access t).result t.name := by
  have hfind := find?_of_declared name h
  rw [hdeclared] at hfind
  obtain ⟨a, c, hlookup, hfind⟩ := hfind
  rw [result_access hlookup, FieldValues.take, find?_takeAll hothers, hfind]
  dsimp only
  cases c.share? t <;> rfl

/-- The type that a name is declared with is that of a field. -/
theorem exists_of_declared {fields : List Field} {name : String}
    (h : Field.declared? fields name = some t) : ∃ field ∈ fields, field.type = t := by
  induction fields with
  | nil => cases h
  | cons field fields ih =>
    rw [Field.declared?, Option.or_eq_some_iff] at h
    rcases h with h | ⟨-, h⟩
    · obtain ⟨field', hmem, htype⟩ := ih h
      exact ⟨field', List.mem_cons_of_mem _ hmem, htype⟩
    · split at h
      · exact ⟨field, List.mem_cons_self, Option.some.inj h⟩
      · cases h

end Storage

/-! ## Agreement -/

section

variable {σ : Type} (client : Client (World σ))

/-- Calls a constructor with arguments. -/
def Container.callWith (c : Constructor) (args : List Object) : Action σ (List Component) := do
  match ← client.construct c args with
  | .ok () => supplyFrom client c 0 c.callable.outputs
  | .error fault => throw (.constructorFailed c.address fault)

/-- Assembles a template from field values and absorbs the component. -/
def Container.assembleWith (a : Address) (t : Template) (values : FieldValues) : Action σ Unit := do
  match ← ExceptT.lift (client.assemble t values) with
  | .ok product => absorb client (.ofProduct t.type product)
  | .error e => throw (assemblyError a e)

/-- In this world, all ways to ask for components come to what there is for their types. -/
structure World.Concords (w : World σ) : Prop where
  /-- A request is answered with what there is. -/
  request : ∀ t, (Container.resolve t).outcome w =
    ((w.container.storage.access t).result t.name, w)
  /-- A callable is called with what there is for its parameters, or else nothing is. -/
  invoke : ∀ callable : Callable, (Container.invoke client callable).outcome w =
    let wrapped := { w with nextIdentity := w.nextIdentity + 1 }
    match w.container.storage.gather callable.params with
    | .error e => (.error e, wrapped)
    | .ok args => (Container.callWith client ⟨w.nextIdentity, callable⟩ args >>=
        Container.startOutputs client).outcome wrapped
  /-- So is a constructor. -/
  construct : ∀ c : Constructor, (Container.call client c).outcome w =
    match w.container.storage.gather c.callable.params with
    | .error e => (.error e, w)
    | .ok args => (Container.callWith client c args).outcome w
  /-- A template is assembled unless there is nothing for one of its fields. What is taken out of a
  field at the type it is declared with is what there is for this type, and if it is of another type,
  an assembly that hands on this error is reported with the error inside. -/
  assemble : ∀ (a : Address) (k : Template),
    match k.fields.findSome? fun field => (w.container.storage.access field.type).failure? with
    | some e => (Container.runTemplate client a k).outcome w = (.error e, w)
    | none => ∃ values,
      (Container.runTemplate client a k).outcome w =
          (Container.assembleWith client a k values).outcome w ∧
        ∀ name t others, Field.declared? k.fields name = some t →
          (∀ other : ComponentType × String, other ∈ others → other.2 ≠ name) →
            let taken := ((values.takeAll others).take t name).1
            taken = (w.container.storage.access t).result t.name ∧
              ∀ e w', taken = .error e → client.assemble k values w = (.error e, w') →
                (Container.runTemplate client a k).outcome w = (.error (.assemblyFailed a e), w')

namespace Container

theorem call_outcome (c : Constructor) (w : World σ) : (call client c).outcome w =
    match w.container.storage.gather c.callable.params with
    | .error e => (.error e, w)
    | .ok args => (callWith client c args).outcome w := by
  rw [← Storage.arguments_eq_gather, call]
  simp only [Action.outcome_bind, Action.outcome_get, Action.outcome_liftExcept]
  cases w.container.storage.arguments c.callable.params <;> rfl

theorem runTemplate_outcome (a : Address) (k : Template) (w : World σ) :
    (runTemplate client a k).outcome w =
      match w.container.storage.fillFields k.fields (.empty a) with
      | .error e => (.error e, w)
      | .ok values => (assembleWith client a k values).outcome w := by
  rw [runTemplate]
  simp only [Action.outcome_bind, Action.outcome_get, Action.outcome_liftExcept]
  cases w.container.storage.fillFields k.fields (.empty a) <;> rfl

end Container

/-- Where a container runs, all ways to ask agree. -/
theorem World.concords_of_running {w : World σ} (hrunning : w.container.running = true) :
    w.Concords client where
  request t := by rw [Container.resolve_outcome, Storage.result_of_running hrunning]
  invoke callable := by
    rw [Container.invoke]
    simp only [Action.outcome_bind, Action.outcome_get, hrunning, if_true,
      Action.outcome_freshIdentity, Container.call_outcome]
    cases w.container.storage.gather callable.params <;> rfl
  construct c := Container.call_outcome client c w
  assemble a k := by
    have houtcome := Container.runTemplate_outcome client a k w
    split
    · next e h => rw [houtcome, Storage.fillFields_of_failure h]
    · next h =>
      obtain ⟨values, hvalues⟩ := Storage.fillFields_of_no_failure (v := .empty a) h
      rw [hvalues] at houtcome
      refine ⟨values, houtcome, fun name t others hdeclared hothers => ?_⟩
      have htaken := Storage.take_declared hvalues hdeclared hothers
      refine ⟨htaken, fun e w' he hassemble => ?_⟩
      -- There is something for the type of each field, so the error can only be a mismatch.
      obtain ⟨field, hmem, rfl⟩ := Storage.exists_of_declared hdeclared
      have hsome := List.findSome?_eq_none_iff.1 h field hmem
      rw [htaken] at he
      simp only [houtcome, Container.assembleWith, Action.outcome_bind, Action.outcome_lift, hassemble]
      cases haccess : w.container.storage.access field.type with
      | delivers object =>
        rw [haccess] at he
        cases he
      | fails error =>
        rw [haccess] at hsome
        cases hsome
      | mismatch b =>
        rw [haccess] at he
        cases he
        rfl

end

/-! ## Types -/

/-- What is handed over at this moment is of the types asked for: each argument of a constructor is
what there is for its parameter, and what the assembly of a template takes out of a field at the type
it is declared with is what there is for this type. -/
def Moment.Typed (m : Moment) : Prop :=
  match m.event with
  | .calls (.construct c args _) =>
    List.Forall₂ (fun t object => m.container.storage.access t = .delivers object)
      c.callable.params args
  | .calls (.assemble k values _) =>
    ∀ name t others, Field.declared? k.fields name = some t →
      (∀ other : ComponentType × String, other ∈ others → other.2 ≠ name) →
        ((values.takeAll others).take t name).1 = (m.container.storage.access t).result t.name
  | _ => True

theorem Moment.Faithful.typed {m : Moment} (h : m.Faithful) : m.Typed := by
  obtain ⟨container, event⟩ := m
  cases event with
  | calls call =>
    cases call with
    | construct c args result =>
      refine (Storage.forall_of_arguments h).imp ?_
      rintro t object ⟨a, c, hlookup, hshare⟩
      rw [Storage.access_of_lookup hlookup, hshare]
    | assemble k values result =>
      obtain ⟨a, hvalues⟩ := h
      exact fun name t others hdeclared hothers => Storage.take_declared hvalues hdeclared hothers
    | _ => trivial
  | _ => trivial

/-- All ways to ask for components of a type agree. Wherever a container runs, a request, a parameter
of a callable or a constructor and a field of a template come to what there is for the type; this is a
component exactly if the slot of the type holds one of the type or of a handle on it. At no moment of
any run, whatever its callbacks do to the container, does a provider get anything else. -/
theorem Container.accesses_agree {σ : Type} :
    (∀ (client : Client (World σ)) (w : World σ), w.container.running = true → w.Concords client) ∧
      (∀ (s : Storage) (t : ComponentType), (∃ object, s.access t = .delivers object) ↔
        ∃ a c, t.slot? = some a ∧ s.component? a = some c ∧ (c.type = t ∨ c.type = t.shared)) ∧
      ∀ (program : Program σ) (depth : Nat) (w : World σ) (ops : List Operation),
        ∀ m ∈ program.moments depth w ops, m.Typed := by
  refine ⟨fun client w hrunning => World.concords_of_running client hrunning,
    fun s t => Storage.exists_delivers_iff, fun program depth w ops m hmem => ?_⟩
  obtain ⟨s, htime⟩ := program.moments_timeline depth w ops
  exact (htime.mem hmem).2.typed

/-- The slot of a type was filled from a handle on it. A request for the type gets this handle. For a
box around the type, which has the same slot, a request, a parameter and a field are mismatches in this
slot, the last one inside the failed assembly. -/
theorem Container.accesses_agree_boxed :
    let part := ComponentType.ofName "app::Part"
    let boxed : ComponentType := ⟨"Box<app::Part>", .element "Box<app::Part>" part.descriptor⟩
    let client : Client (World Unit) :=
      { (Client.steady default).lift with
        assemble := fun _ values => pure ((values.take boxed "part").1.map fun object => ⟨object, none⟩) }
    let container := Container.new {} (.root 0) ⟨1⟩
    let storage := container.storage.insertValue ⟨part.shared, .made 7, none⟩
    let w : World Unit := ⟨{ container with running := true, storage }, 0, [], ()⟩
    let name := "alloc::sync::Arc<Box<app::Part>>"
    w.container.running = true ∧
      ((Container.resolve part).outcome w).1 = .ok (.made 7) ∧
      ((Container.resolve boxed).outcome w).1 = .error (.typeMismatch ⟨"app.Part"⟩ "Box<app::Part>") ∧
      ((Container.invoke client ⟨[boxed], [], 0⟩).outcome w).1 =
        .error (.typeMismatch ⟨"app.Part"⟩ name) ∧
      ((Container.runTemplate client ⟨"app.Whole"⟩
          ⟨.ofName "app::Whole", [⟨"part", boxed⟩], 0⟩).outcome w).1 =
        .error (.assemblyFailed ⟨"app.Whole"⟩ (.typeMismatch ⟨"app.Part"⟩ "Box<app::Part>")) := by
  intro part boxed client container storage w name
  have hconcords : w.Concords client := Container.accesses_agree.1 client w rfl
  have hpart : part.slot? = some ⟨"app.Part"⟩ := by decide
  have hboxed : boxed.slot? = some ⟨"app.Part"⟩ := by decide
  have hheld : w.container.storage.component? ⟨"app.Part"⟩ = some ⟨part.shared, .made 7, none⟩ := by
    decide
  have hdelivers : w.container.storage.access part = .delivers (.made 7) := by
    rw [Storage.access, hpart]
    simp only [hheld]
    rfl
  have hmismatch : w.container.storage.access boxed = .mismatch ⟨"app.Part"⟩ := by
    rw [Storage.access, hboxed]
    simp only [hheld]
    rfl
  refine ⟨rfl, ?_, ?_, ?_, ?_⟩
  · rw [hconcords.request, hdelivers]
    rfl
  · rw [hconcords.request, hmismatch]
    rfl
  · have hgather : w.container.storage.gather [boxed] = .error (.typeMismatch ⟨"app.Part"⟩ name) := by
      simp only [Storage.gather, List.findSome?_cons, List.mapM_cons, hmismatch]
      rfl
    rw [hconcords.invoke, hgather]
  · have hassemble := hconcords.assemble ⟨"app.Whole"⟩ ⟨.ofName "app::Whole", [⟨"part", boxed⟩], 0⟩
    simp only [List.findSome?_cons, hmismatch, Access.failure?, List.findSome?_nil] at hassemble
    obtain ⟨values, -, htaken⟩ := hassemble
    obtain ⟨htaken, hwrapped⟩ := htaken "part" boxed [] rfl (by simp)
    rw [hmismatch] at htaken
    rw [hwrapped _ w htaken]
    show (Except.map _ (values.take boxed "part").1, w) = _
    rw [show (values.take boxed "part").1 = _ from htaken]
    rfl

end Wiring
