import Wiring.Proofs.Progress
import Wiring.Proofs.Wired

/-!
# Storages laid out by items

`Laid items calls s` says that a storage is what wired items become in the course of starts and
stops that made some calls: every entry is accounted for by an item, and every item still has its
entry. Registration lays the storage out (`Laid.registered`), and walks and stops keep it so
(`Laid.progress`, `Laid.resetRunning`). What a slot can hold follows from the item that provides it.
-/

namespace Wiring

/-- How an entry follows from the items, after some calls: it is one that an item makes, that of a
constructor which has run, or a component that a constructor or template among them gave. -/
inductive Accounted (items : List Item) (calls : List Call) (s : Storage) (a : Address) :
    Entry → Prop
  | constructor : .constructor c ∈ items → c.address = a →
      Accounted items calls s a (.provider a (.constructor c))
  | ran : .constructor c ∈ items → c.address = a → Accounted items calls s a (.ran c)
  | template : .template t ∈ items → t.type.slot? = some a →
      Accounted items calls s a (.provider a (.template t))
  | value : .value c ∈ items → c.type.slot? = some a →
      Accounted items calls s a { Entry.resolved a c with service := state }
  | output : .constructor c ∈ items → s.get? c.address = some (.ran c) →
      c.callable.outputs[i]? = some t → t.slot? = some a → .supply c i product ∈ calls →
      Accounted items calls s a { Entry.resolved a (.ofProduct t product) with service := state }
  | assembled : .template t ∈ items → t.type.slot? = some a →
      .assemble t values (.ok product) ∈ calls →
      Accounted items calls s a
        { Entry.resolved a (.ofProduct t.type product) with service := state }

/-- The storage is laid out by items, after some calls. -/
structure Laid (items : List Item) (calls : List Call) (s : Storage) : Prop where
  sound : s.Sound
  accounted : ∀ {a e}, s.get? a = some e → Accounted items calls s a e
  present : ∀ item ∈ items, ∀ a, item.slot? = some a → ∃ e, s.get? a = some e

variable {items : List Item} {calls calls' : List Call} {s s' : Storage} {a : Address} {e : Entry}

/-- The slot that accounts for an entry belongs to an item. -/
theorem Accounted.shadowed (h : Accounted items calls s a e) : e.shadowed = 0 := by
  cases h <;> rfl

theorem Accounted.mono (h : Accounted items calls s a e) (hsub : ∀ call ∈ calls, call ∈ calls')
    (hran : ∀ {c : Constructor}, s.get? c.address = some (.ran c) →
      s'.get? c.address = some (.ran c)) : Accounted items calls' s' a e := by
  cases h with
  | constructor hc haddr => exact .constructor hc haddr
  | ran hc haddr => exact .ran hc haddr
  | template ht hslot => exact .template ht hslot
  | value hc hslot => exact .value hc hslot
  | output hc hget houtput hslot hsupply =>
    exact .output hc (hran hget) houtput hslot (hsub _ hsupply)
  | assembled ht hslot hassemble => exact .assembled ht hslot (hsub _ hassemble)

/-- An entry stays accounted for when its service starts or stops. -/
theorem Accounted.setService (h : Accounted items calls s a e) (state : ServiceState)
    (hservice : e.service? ≠ none) : Accounted items calls s a { e with service := state } := by
  cases h with
  | constructor => exact absurd rfl hservice
  | ran => exact absurd rfl hservice
  | template => exact absurd rfl hservice
  | value hc hslot => exact .value hc hslot
  | output hc hget houtput hslot hsupply => exact .output hc hget houtput hslot hsupply
  | assembled ht hslot hassemble => exact .assembled ht hslot hassemble

namespace Laid

/-- Registration lays the storage out. -/
theorem registered (hdistinct : (items.flatMap Item.slots).Nodup) :
    (Storage.empty.addAll items).1 = .ok () ∧ Laid items [] (Storage.empty.addAll items).2 := by
  obtain ⟨hok, hregisters⟩ := Storage.registers_addAll hdistinct
  refine ⟨hok, Storage.Sound.empty.addAll items, fun hget => ?_, fun item hmem a hslot => ?_⟩
  · obtain ⟨item, hmem, hslot, rfl⟩ := (hregisters _ _).1 hget
    cases item with
    | value c => exact .value hmem hslot
    | constructor c => exact .constructor hmem (Option.some.inj hslot)
    | template t => exact .template hmem hslot
  · exact ⟨_, (hregisters a _).2 ⟨item, hmem, hslot, rfl⟩⟩

/-- More calls do no harm. -/
theorem mono (h : Laid items calls s) (hsub : ∀ call ∈ calls, call ∈ calls') :
    Laid items calls' s where
  sound := h.sound
  accounted hget := (h.accounted hget).mono hsub id
  present := h.present

/-- A stop leaves the storage laid out. -/
theorem resetRunning (h : Laid items calls s) : Laid items calls s.resetRunning := by
  have hran : ∀ {c : Constructor}, s.get? c.address = some (.ran c) →
      s.resetRunning.get? c.address = some (.ran c) := fun hget => by
    rw [Storage.get?_resetRunning, hget]
    rfl
  refine ⟨h.sound.resetRunning, fun {a e} hget => ?_, fun item hmem a hslot => ?_⟩
  · rw [Storage.get?_resetRunning] at hget
    obtain ⟨e', hget', rfl⟩ := Option.map_eq_some_iff.1 hget
    have hacc := (h.accounted hget').mono (fun _ hmem => hmem) hran
    unfold Entry.rested
    split
    · next hrunning =>
      refine hacc.setService .pendingUp ((h.sound.fits hget').service?_ne_none ?_)
      rw [hrunning]
      exact ServiceState.noConfusion
    · exact hacc
  · obtain ⟨e, hget⟩ := h.present item hmem a hslot
    exact ⟨_, by rw [Storage.get?_resetRunning, hget]; rfl⟩

/-- An unresolved constructor or template in a slot is among the items. -/
theorem constructor_mem {c : Constructor} (h : Laid items calls s)
    (hget : s.get? a = some (.provider a (.constructor c))) : .constructor c ∈ items := by
  generalize he : Entry.provider a (.constructor c) = e at hget
  cases h.accounted hget with
  | constructor hc => cases he; exact hc
  | ran => cases congrArg Entry.relation he
  | _ => cases congrArg Entry.payload he

theorem template_mem {t : Template} (h : Laid items calls s)
    (hget : s.get? a = some (.provider a (.template t))) : .template t ∈ items := by
  generalize he : Entry.provider a (.template t) = e at hget
  cases h.accounted hget with
  | template ht => cases he; exact ht
  | _ => cases congrArg Entry.payload he

/-- A walk leaves the storage laid out, after the calls it made. -/
theorem progress {s' : Scene} (h : Laid items calls s) (hp : Progress s s') :
    Laid items (calls ++ s'.calls) s'.storage := by
  have hran : ∀ {c : Constructor}, s.get? c.address = some (.ran c) →
      s'.storage.get? c.address = some (.ran c) := hp.kept_ran
  refine ⟨hp.sound, fun {a e} hget => ?_, fun item hmem a hslot => ?_⟩
  · cases hp.comes hget with
    | @kept e state hget₀ hstate =>
      have hacc : Accounted items (calls ++ s'.calls) s'.storage a e :=
        (h.accounted hget₀).mono (fun _ hmem => List.mem_append_left _ hmem) hran
      rcases hstate with rfl | ⟨hpending, rfl⟩
      · exact hacc
      · refine hacc.setService .runningUp ((h.sound.fits hget₀).service?_ne_none ?_)
        rw [hpending]
        exact ServiceState.noConfusion
    | ran hget₀ haddr => exact .ran (h.constructor_mem hget₀) haddr
    | stored _ hslot hsourced =>
      cases hsourced with
      | output hrun houtput hslot' hsupply =>
        obtain ⟨hget₀, hget', _⟩ := hp.of_run hrun
        exact .output (h.constructor_mem hget₀) hget' houtput hslot' (List.mem_append_right _ hsupply)
      | template hassemble hslot' =>
        obtain ⟨b, _, hget₀, _⟩ := hp.of_assembly hassemble
        exact .assembled (h.template_mem hget₀) hslot' (List.mem_append_right _ hassemble)
  · obtain ⟨e, hget⟩ := h.present item hmem a hslot
    exact hp.stays hget

/-! ## What a slot can hold -/

variable {c : Constructor} {t : Template} {type : ComponentType} {item : Item} {i : Nat}

/-- The entry of a constructor: it has run or it has not. -/
theorem constructor_cases (h : Laid items calls s) (hw : Wired items)
    (hc : .constructor c ∈ items) : s.get? c.address = some (.provider c.address (.constructor c)) ∨
      s.get? c.address = some (.ran c) := by
  obtain ⟨e, hget⟩ := h.present _ hc c.address rfl
  have hnot : ∀ {item : Item} {type : ComponentType}, item ∈ items → type ∈ item.types →
      type.slot? ≠ some c.address := fun hitem htype hslot =>
    hw.address_ne hc hitem (Item.mem_provisions.2 ⟨htype, hslot⟩) rfl
  cases h.accounted hget with
  | constructor hc' haddr =>
    cases hw.constructor_unique hc hc' haddr.symm
    exact .inl hget
  | ran hc' haddr =>
    cases hw.constructor_unique hc hc' haddr.symm
    exact .inr hget
  | template ht hslot => exact absurd hslot (hnot ht List.mem_cons_self)
  | value hv hslot => exact absurd hslot (hnot hv List.mem_cons_self)
  | output hc' _ houtput hslot => exact absurd hslot (hnot hc' (List.mem_of_getElem? houtput))
  | assembled ht hslot => exact absurd hslot (hnot ht List.mem_cons_self)

/-- What a provided slot has an entry for: the component is of the type provided, unless a template
is still to be assembled. -/
theorem provided_cases (h : Laid items calls s) (hw : Wired items) (hitem : item ∈ items)
    (hprovides : (a, type) ∈ item.provisions) (hget : s.get? a = some e) :
    (∃ t, item = .template t ∧ e = .provider a (.template t)) ∨
      ∃ component, e.component? = some component ∧ component.type = type ∧
        (item = .value component ∨
          (∃ c i product, item = .constructor c ∧ s.get? c.address = some (.ran c) ∧
            c.callable.outputs[i]? = some type ∧ .supply c i product ∈ calls ∧
            component = .ofProduct type product) ∨
          ∃ t values product, item = .template t ∧ .assemble t values (.ok product) ∈ calls ∧
            component = .ofProduct type product) := by
  cases h.accounted hget with
  | constructor hc haddr => exact absurd haddr (hw.address_ne hc hitem hprovides)
  | ran hc haddr => exact absurd haddr (hw.address_ne hc hitem hprovides)
  | template ht hslot =>
    obtain ⟨rfl, _⟩ := hw.provider_unique hitem ht hprovides
      (Item.mem_provisions.2 ⟨List.mem_cons_self, hslot⟩)
    exact .inl ⟨_, rfl, rfl⟩
  | value hv hslot =>
    obtain ⟨rfl, rfl⟩ := hw.provider_unique hitem hv hprovides
      (Item.mem_provisions.2 ⟨List.mem_cons_self, hslot⟩)
    exact .inr ⟨_, rfl, rfl, .inl rfl⟩
  | output hc hran houtput hslot hsupply =>
    obtain ⟨rfl, rfl⟩ := hw.provider_unique hitem hc hprovides
      (Item.mem_provisions.2 ⟨List.mem_of_getElem? houtput, hslot⟩)
    exact .inr ⟨_, rfl, rfl, .inr (.inl ⟨_, _, _, rfl, hran, houtput, hsupply, rfl⟩)⟩
  | assembled ht hslot hassemble =>
    obtain ⟨rfl, rfl⟩ := hw.provider_unique hitem ht hprovides
      (Item.mem_provisions.2 ⟨List.mem_cons_self, hslot⟩)
    exact .inr ⟨_, rfl, rfl, .inr (.inr ⟨_, _, _, rfl, hassemble, rfl⟩)⟩

/-- A component is of the type that its slot is provided for. -/
theorem type_eq {component : Component} (h : Laid items calls s) (hw : Wired items)
    (hitem : item ∈ items) (hprovides : (a, type) ∈ item.provisions)
    (hc : s.component? a = some component) : component.type = type := by
  obtain ⟨e, hget, hcomponent⟩ := Storage.component?_eq_some.1 hc
  rcases h.provided_cases hw hitem hprovides hget with ⟨t, _, rfl⟩ | ⟨component', hc', htype, _⟩
  · cases hcomponent
  · cases hcomponent.symm.trans hc'
    exact htype

/-- A plain value is there from its registration on. -/
theorem held_value {component : Component} (h : Laid items calls s) (hw : Wired items)
    (hitem : .value component ∈ items) (hslot : component.type.slot? = some a) :
    s.component? a = some component := by
  obtain ⟨e, hget⟩ := h.present _ hitem a hslot
  rcases h.provided_cases hw hitem (Item.mem_provisions.2 ⟨List.mem_cons_self, hslot⟩) hget with
    ⟨t, heq, _⟩ | ⟨component', hc, _, heq | ⟨_, _, _, heq, _⟩ | ⟨_, _, _, heq, _⟩⟩
  · cases heq
  · cases heq
    exact Storage.component?_eq_some.2 ⟨e, hget, hc⟩
  · cases heq
  · cases heq

/-- The slot of a template holds the template or its component. -/
theorem template_cases (h : Laid items calls s) (hw : Wired items) (hitem : .template t ∈ items)
    (hslot : t.type.slot? = some a) :
    s.get? a = some (.provider a (.template t)) ∨ s.Held a := by
  obtain ⟨e, hget⟩ := h.present _ hitem a hslot
  rcases h.provided_cases hw hitem (Item.mem_provisions.2 ⟨List.mem_cons_self, hslot⟩) hget with
    ⟨t', heq, rfl⟩ | ⟨component, hc, _⟩
  · cases heq
    exact .inl hget
  · exact .inr (Option.isSome_iff_exists.2
      ⟨component, Storage.component?_eq_some.2 ⟨e, hget, hc⟩⟩)

/-- The slot of an output has no entry, or its constructor has run and the slot holds it. -/
theorem output_cases (h : Laid items calls s) (hw : Wired items) (hitem : .constructor c ∈ items)
    (houtput : type ∈ c.callable.outputs) (hslot : type.slot? = some a) :
    s.get? a = none ∨ s.get? c.address = some (.ran c) ∧ s.Held a := by
  cases hget : s.get? a with
  | none => exact .inl rfl
  | some e =>
    rcases h.provided_cases hw hitem (Item.mem_provisions.2 ⟨houtput, hslot⟩) hget with
      ⟨t', heq, rfl⟩ |
      ⟨component, hc, _, heq | ⟨_, _, _, heq, hran, _⟩ | ⟨_, _, _, heq, _⟩⟩
    · cases heq
    · cases heq
    · cases heq
      exact .inr ⟨hran, Option.isSome_iff_exists.2
        ⟨component, Storage.component?_eq_some.2 ⟨e, hget, hc⟩⟩⟩
    · cases heq

end Laid

end Wiring
