import Mathlib.Data.List.Forall2
import Wiring.Resolution
import Wiring.Proofs.Slots

/-!
# Requests to a storage

A request is answered from the component that its slot holds (`Storage.component?`). Arguments and
field values that are found show that the slots of their types are held, and they are found if each
type is answered (`Storage.Answers`): its slot holds a component of that very type, or of a handle
on it. What is not found is explained by one of the requests (`Storage.lookup_eq_error`,
`Storage.arguments_eq_error`, `Storage.fillFields_eq_error`).
-/

namespace Wiring

namespace Storage

/-- The component that a slot holds. -/
def component? (s : Storage) (a : Address) : Option Component := (s.get? a).bind Entry.component?

/-- A slot holds a component. -/
def Held (s : Storage) (a : Address) : Prop := (s.component? a).isSome = true

instance (s : Storage) (a : Address) : Decidable (s.Held a) := inferInstanceAs (Decidable (_ = true))

theorem component?_eq_some {s : Storage} {a : Address} {c : Component} :
    s.component? a = some c ↔ ∃ e, s.get? a = some e ∧ e.component? = some c :=
  Option.bind_eq_some_iff

/-- A request for a type can be answered. -/
def Answers (s : Storage) (t : ComponentType) : Prop :=
  ∃ a c, t.shared.slot? = some a ∧ s.component? a = some c ∧ (c.type = t ∨ c.type = t.shared)

/-- What every slot holds in `s` it also holds in `s'`. -/
def Keeps (s s' : Storage) : Prop := ∀ ⦃a c⦄, s.component? a = some c → s'.component? a = some c

theorem Keeps.refl (s : Storage) : s.Keeps s := fun _ _ h => h

theorem Keeps.trans {s₁ s₂ s₃ : Storage} (h₁ : s₁.Keeps s₂) (h₂ : s₂.Keeps s₃) : s₁.Keeps s₃ :=
  fun _ _ h => h₂ (h₁ h)

theorem Keeps.held {s s' : Storage} (h : s.Keeps s') {a : Address} (ha : s.Held a) : s'.Held a := by
  obtain ⟨c, hc⟩ := Option.isSome_iff_exists.1 ha
  exact Option.isSome_iff_exists.2 ⟨c, h hc⟩

/-- A slot that is held is not free. -/
theorem Held.not_free {s : Storage} {a : Address} (h : s.Held a) : ¬ s.Free a := by
  intro hfree
  obtain ⟨c, hc⟩ := Option.isSome_iff_exists.1 h
  obtain ⟨e, hget, hc⟩ := component?_eq_some.1 hc
  have hres := hfree e hget
  simp only [Entry.component?] at hc
  split at hc
  · next hrelation => simp [Entry.isResolved, hrelation] at hres
  · cases hc

theorem keeps_put {s : Storage} {e : Entry} (hfree : s.Free e.address) : s.Keeps (s.put e) := by
  intro b c hc
  have hne : e.address ≠ b := by
    rintro rfl
    have hheld : s.Held e.address := Option.isSome_iff_exists.2 ⟨c, hc⟩
    exact hheld.not_free hfree
  rw [component?, get?_put, if_neg hne]
  exact hc

theorem component?_put (s : Storage) (a : Address) (c : Component) :
    (s.put (.resolved a c)).component? a = some c := by
  rw [component?, get?_put]
  exact congrArg (Option.bind · Entry.component?) (if_pos rfl)

theorem keeps_setService (s : Storage) (a : Address) (state : ServiceState) :
    s.Keeps (s.setService a state) := by
  intro b c hc
  obtain ⟨e, hget, hc⟩ := component?_eq_some.1 hc
  rw [component?, get?_setService, hget]
  split <;> exact hc

theorem keeps_markResolved (s : Storage) (a : Address) : s.Keeps (s.markResolved a) := by
  intro b c hc
  obtain ⟨e, hget, hc⟩ := component?_eq_some.1 hc
  rw [component?, get?_markResolved, hget]
  split
  · simp only [Entry.component?] at hc
    split at hc
    · next hpayload _ => simpa [Entry.component?, hpayload] using hc
    · cases hc
  · exact hc

/-- A stop changes no component. -/
theorem component?_resetRunning (s : Storage) (a : Address) :
    s.resetRunning.component? a = s.component? a := by
  rw [component?, get?_resetRunning, component?]
  cases s.get? a with
  | none => rfl
  | some e =>
    show e.rested.component? = e.component?
    unfold Entry.rested
    split <;> rfl

/-! ## Lookup -/

/-- A handle on a component is asked for in the slot of the component. -/
theorem slot?_shared_eq (t : ComponentType) : t.shared.slot? = t.slot? := by
  obtain ⟨name, descriptor⟩ := t
  cases descriptor <;> rfl

theorem slot?_shared {t : ComponentType} {a : Address} (h : t.shared.slot? = some a) :
    t.request.address = a := by
  simp only [ComponentType.slot?] at h
  split at h
  · exact Option.some.inj h
  · cases h

variable {s : Storage}

/-- A lookup finds the component in the slot of the request. -/
theorem lookup_eq_ok {t : ComponentType} {a : Address} {c : Component} :
    s.lookup t = .ok (a, c) ↔ t.shared.slot? = some a ∧ s.component? a = some c := by
  simp only [lookup, ComponentType.slot?, component?]
  split
  · split
    · next hget =>
      constructor
      · rintro h
        cases h
        exact ⟨rfl, hget⟩
      · rintro ⟨ha, hc⟩
        cases ha
        rw [hget] at hc
        cases hc
        rfl
    · next hget =>
      refine ⟨fun h => (by cases h), ?_⟩
      rintro ⟨ha, hc⟩
      cases ha
      rw [hget] at hc
      cases hc
  · exact ⟨fun h => (by cases h), fun h => (by cases h.1)⟩

/-- A lookup fails because the request has no slot, or because its slot holds no component. -/
theorem lookup_eq_error {t : ComponentType} {err : Error} (h : s.lookup t = .error err) :
    (t.shared.slot? = none ∧ err = .unsupported t.request.name) ∨
      ∃ a, t.shared.slot? = some a ∧ s.component? a = none ∧ err = .notInitiated a := by
  simp only [lookup] at h
  split at h
  · next hplace =>
    split at h
    · cases h
    · next hnone =>
      cases h
      exact .inr ⟨_, by simp only [ComponentType.slot?, hplace, if_true], hnone, rfl⟩
  · next hplace =>
    cases h
    exact .inl ⟨by simp only [ComponentType.slot?, hplace]; rfl, rfl⟩

theorem held_of_lookup {t : ComponentType} {p : Address × Component} (h : s.lookup t = .ok p) :
    s.Held t.request.address := by
  obtain ⟨hslot, hc⟩ := lookup_eq_ok.1 (show s.lookup t = .ok (p.1, p.2) from h)
  rw [slot?_shared hslot, Held, hc]
  rfl

/-! ## Arguments -/

theorem held_of_lookupAll {types : List ComponentType} {components : List Component}
    (h : s.lookupAll types = .ok components) : ∀ t ∈ types, s.Held t.request.address := by
  induction types generalizing components with
  | nil => simp
  | cons t types ih =>
    simp only [lookupAll, bind, Except.bind] at h
    split at h
    · cases h
    · next p hlookup =>
      split at h
      · cases h
      · next rest hrest =>
        intro t' hmem
        rcases List.mem_cons.1 hmem with rfl | hmem
        · exact held_of_lookup hlookup
        · exact ih hrest t' hmem

/-- Several requests fail at the first that is not answered. -/
theorem lookupAll_eq_error {types : List ComponentType} {err : Error}
    (h : s.lookupAll types = .error err) : ∃ t ∈ types, s.lookup t = .error err := by
  induction types with
  | nil => cases h
  | cons t types ih =>
    simp only [lookupAll, bind, Except.bind] at h
    split at h
    · next hlookup =>
      cases h
      exact ⟨t, List.mem_cons_self, hlookup⟩
    · split at h
      · next hrest =>
        cases h
        obtain ⟨t', hmem, hlookup⟩ := ih hrest
        exact ⟨t', List.mem_cons_of_mem _ hmem, hlookup⟩
      · cases h

/-- Arguments are not found because a request is not answered, or because the component in a slot is
of another type. -/
theorem arguments_eq_error {params : List ComponentType} {err : Error}
    (h : s.arguments params = .error err) : ∃ t ∈ params, s.lookup t = .error err ∨
      ∃ a c, t.shared.slot? = some a ∧ s.component? a = some c ∧ c.share? t = none ∧
        err = .typeMismatch a t.shared.name := by
  simp only [arguments, bind, Except.bind] at h
  split at h
  · next hlookups =>
    cases h
    obtain ⟨t, hmem, hlookup⟩ := lookupAll_eq_error hlookups
    exact ⟨t, hmem, .inl hlookup⟩
  · next components hlookups =>
    induction params generalizing components with
    | nil =>
      cases hlookups
      cases h
    | cons t params ih =>
      simp only [lookupAll, bind, Except.bind] at hlookups
      split at hlookups
      · cases hlookups
      · next p hlookup =>
        split at hlookups
        · cases hlookups
        · next rest hrest =>
          cases hlookups
          simp only [shareAll, bind, Except.bind] at h
          split at h
          · split at h
            · next hshares =>
              cases h
              obtain ⟨t', hmem, hcause⟩ := ih rest hrest hshares
              exact ⟨t', List.mem_cons_of_mem _ hmem, hcause⟩
            · cases h
          · next hshare =>
            cases h
            obtain ⟨hslot, hc⟩ := lookup_eq_ok.1 (show s.lookup t = .ok (p.1, p.2) from hlookup)
            refine ⟨t, List.mem_cons_self, .inr ⟨p.1, p.2, hslot, hc, hshare, ?_⟩⟩
            rw [slot?_shared hslot]

/-- Arguments are only found where the slots of the parameters are held. -/
theorem held_of_arguments {params : List ComponentType} {args : List Object}
    (h : s.arguments params = .ok args) : ∀ t ∈ params, s.Held t.request.address := by
  simp only [arguments, bind, Except.bind] at h
  split at h
  · cases h
  · next components hlookup => exact held_of_lookupAll hlookup

/-- Arguments are handles on the components in the slots of the parameters. -/
theorem forall_of_arguments {params : List ComponentType} {args : List Object}
    (h : s.arguments params = .ok args) :
    List.Forall₂ (fun t object => ∃ a c, s.lookup t = .ok (a, c) ∧ c.share? t = some object)
      params args := by
  simp only [arguments, bind, Except.bind] at h
  split at h
  · cases h
  · next components hlookups =>
    induction params generalizing components args with
    | nil =>
      cases hlookups
      cases h
      exact .nil
    | cons t params ih =>
      simp only [lookupAll, bind, Except.bind] at hlookups
      split at hlookups
      · cases hlookups
      · next p hlookup =>
        split at hlookups
        · cases hlookups
        · next rest hrest =>
          cases hlookups
          simp only [shareAll, bind, Except.bind] at h
          split at h
          · next object hshare =>
            split at h
            · cases h
            · next objects hobjects =>
              cases h
              exact .cons ⟨p.1, p.2, hlookup, hshare⟩ (ih rest hrest hobjects)
          · cases h

theorem Answers.share? {t : ComponentType} (h : s.Answers t) :
    ∃ a c object, s.lookup t = .ok (a, c) ∧ c.share? t = some object := by
  obtain ⟨a, c, hslot, hc, htype⟩ := h
  refine ⟨a, c, ?_⟩
  by_cases heq : c.type = t
  · exact ⟨.handle c.object, lookup_eq_ok.2 ⟨hslot, hc⟩, by simp [Component.share?, heq]⟩
  · have hshared := htype.resolve_left heq
    refine ⟨c.object, lookup_eq_ok.2 ⟨hslot, hc⟩, ?_⟩
    rw [Component.share?, if_neg heq, if_pos hshared]

/-- Arguments are found if every parameter is answered. -/
theorem exists_arguments {params : List ComponentType} (h : ∀ t ∈ params, s.Answers t) :
    ∃ args, s.arguments params = .ok args := by
  suffices ∃ components args, s.lookupAll params = .ok components ∧
      shareAll params components = .ok args by
    obtain ⟨components, args, hlookup, hshare⟩ := this
    exact ⟨args, by simp [arguments, hlookup, hshare, bind, Except.bind]⟩
  induction params with
  | nil => exact ⟨[], [], rfl, rfl⟩
  | cons t params ih =>
    obtain ⟨a, c, object, hlookup, hshare⟩ := (h t List.mem_cons_self).share?
    obtain ⟨components, args, hlookups, hshares⟩ :=
      ih fun t' hmem => h t' (List.mem_cons_of_mem _ hmem)
    refine ⟨c :: components, object :: args, ?_, ?_⟩
    · simp [lookupAll, hlookup, hlookups, bind, Except.bind, pure, Except.pure]
    · simp [shareAll, hshare, hshares, bind, Except.bind, pure, Except.pure]

/-! ## Field values -/

theorem find?_insert (v : FieldValues) (value : FieldValue) (name : String) :
    (v.insert value).values.find? (·.name = name) =
      if value.name = name then some value else v.values.find? (·.name = name) := by
  simp only [FieldValues.insert, FieldValues.erase, List.find?_append]
  split
  · next heq =>
    subst heq
    have hnone : v.values.find? (fun _ => false) = none := by simp
    simp [List.find?_filter, hnone]
  · next hne =>
    have hsame : (fun x : FieldValue => !decide (x.name = value.name) && decide (x.name = name)) =
        fun x => decide (x.name = name) := by
      funext x
      by_cases heq : x.name = name
      · simp [heq, Ne.symm hne]
      · simp [heq]
    simp [List.find?_filter, hne, hsame]

/-- Field values are only found where the slots of the fields are held. -/
theorem held_of_fillFields {fields : List Field} {v values : FieldValues}
    (h : s.fillFields fields v = .ok values) :
    ∀ field ∈ fields, s.Held field.type.request.address := by
  induction fields generalizing v with
  | nil => simp
  | cons field fields ih =>
    simp only [fillFields, bind, Except.bind] at h
    split at h
    · cases h
    · next p hlookup =>
      intro field' hmem
      rcases List.mem_cons.1 hmem with rfl | hmem
      · exact held_of_lookup hlookup
      · exact ih h field' hmem

/-- Fields are not filled because the request of one of them is not answered. -/
theorem fillFields_eq_error {fields : List Field} {v : FieldValues} {err : Error}
    (h : s.fillFields fields v = .error err) :
    ∃ field ∈ fields, s.lookup field.type = .error err := by
  induction fields generalizing v with
  | nil => cases h
  | cons field fields ih =>
    simp only [fillFields, bind, Except.bind] at h
    split at h
    · next hlookup =>
      cases h
      exact ⟨field, List.mem_cons_self, hlookup⟩
    · obtain ⟨field', hmem, hlookup⟩ := ih h
      exact ⟨field', List.mem_cons_of_mem _ hmem, hlookup⟩

/-- A value comes from the slot of a declared field of its name. -/
theorem exists_field_of_fillFields {fields : List Field} {v values : FieldValues}
    {value : FieldValue} (h : s.fillFields fields v = .ok values) (hmem : value ∈ values.values) :
    value ∈ v.values ∨ ∃ field ∈ fields, field.name = value.name ∧
      s.lookup field.type = .ok (value.address, value.component) := by
  induction fields generalizing v with
  | nil =>
    cases h
    exact .inl hmem
  | cons field fields ih =>
    simp only [fillFields, bind, Except.bind] at h
    split at h
    · cases h
    · next p hlookup =>
      rcases ih h with hmem | ⟨field', hfield, hname, hlookup'⟩
      · simp only [FieldValues.insert, FieldValues.erase, List.mem_append, List.mem_filter,
          List.mem_singleton] at hmem
        rcases hmem with ⟨hmem, _⟩ | rfl
        · exact .inl hmem
        · exact .inr ⟨field, List.mem_cons_self, rfl, hlookup⟩
      · exact .inr ⟨field', List.mem_cons_of_mem _ hfield, hname, hlookup'⟩

/-- Field values are found if every field is answered. -/
theorem exists_fillFields {fields : List Field} (v : FieldValues)
    (h : ∀ field ∈ fields, s.Answers field.type) :
    ∃ values, s.fillFields fields v = .ok values := by
  induction fields generalizing v with
  | nil => exact ⟨v, rfl⟩
  | cons field fields ih =>
    obtain ⟨a, c, _, hlookup, _⟩ := (h field List.mem_cons_self).share?
    obtain ⟨values, hvalues⟩ := ih (v.insert ⟨field.name, a, c⟩) fun field' hmem =>
      h field' (List.mem_cons_of_mem _ hmem)
    exact ⟨values, by simp [fillFields, hlookup, hvalues, bind, Except.bind]⟩

/-- Filling other fields does not change what a name stands for. -/
theorem find?_fillFields {fields : List Field} {v values : FieldValues} {name : String}
    (h : s.fillFields fields v = .ok values) (hname : ∀ field ∈ fields, field.name ≠ name) :
    values.values.find? (·.name = name) = v.values.find? (·.name = name) := by
  induction fields generalizing v with
  | nil => cases h; rfl
  | cons field fields ih =>
    simp only [fillFields, bind, Except.bind] at h
    split at h
    · cases h
    · rw [ih h fun field' hmem => hname field' (List.mem_cons_of_mem _ hmem), find?_insert,
        if_neg (hname field List.mem_cons_self)]

/-- A field that shares its name with no other is filled with what its request finds. -/
theorem find?_fillFields_self {fields : List Field} {v values : FieldValues} {field : Field}
    (h : s.fillFields fields v = .ok values) (hmem : field ∈ fields)
    (hname : ∀ other ∈ fields, other.name = field.name → other = field) :
    ∃ a c, s.lookup field.type = .ok (a, c) ∧
      values.values.find? (·.name = field.name) = some ⟨field.name, a, c⟩ := by
  induction fields generalizing v with
  | nil => cases hmem
  | cons first fields ih =>
    simp only [fillFields, bind, Except.bind] at h
    split at h
    · cases h
    · next p hlookup =>
      by_cases hagain : field ∈ fields
      · exact ih h hagain fun other hother => hname other (List.mem_cons_of_mem _ hother)
      · obtain rfl : field = first := (List.mem_cons.1 hmem).resolve_right hagain
        refine ⟨p.1, p.2, hlookup, ?_⟩
        rw [find?_fillFields h, find?_insert, if_pos rfl]
        intro other hother heq
        exact hagain (hname other (List.mem_cons_of_mem _ hother) heq ▸ hother)

/-- A declared field that is answered can be taken at its declared type. -/
theorem take_fillFields {fields : List Field} {v values : FieldValues} {field : Field}
    (h : s.fillFields fields v = .ok values) (hmem : field ∈ fields)
    (hname : ∀ other ∈ fields, other.name = field.name → other = field)
    (hanswers : s.Answers field.type) :
    ∃ object, (values.take field.type field.name).1 = .ok object := by
  obtain ⟨a, c, hlookup, hfind⟩ := find?_fillFields_self h hmem hname
  obtain ⟨a', c', object, hlookup', hshare⟩ := hanswers.share?
  cases hlookup.symm.trans hlookup'
  exact ⟨object, by simp only [FieldValues.take, hfind, hshare]⟩

end Storage

end Wiring
