import Wiring.Proofs.Laid
import Wiring.Proofs.Pace

/-!
# Readiness along the order

In a storage laid out by wired items, from which nothing is lost (`Storage.Whole`), a walk along the
order of the graph comes to each slot when everything requested there is held. So it fails only
where the program answers a call with a fault of its own: if every call is `Call.Faultless`, it
succeeds (`Laid.settlesAll_ok`).
-/

namespace Wiring

/-- Whether the program is not at fault. Constructors and hooks succeed; an assembly may fail only
over a declared field, alone of its name, from which the declared type cannot be taken. -/
def Call.Faultless : Call → Prop
  | construct _ _ result | up _ _ result | down _ result => result = .ok ()
  | supply .. => True
  | assemble t values result => ∀ e, result = .error e → ∃ field ∈ t.fields,
      (∀ other ∈ t.fields, other.name = field.name → other = field) ∧
        ∃ e', (values.take field.type field.name).1 = .error e'

/-- No output of a constructor that has run is missing. -/
def Storage.Whole (items : List Item) (s : Storage) : Prop :=
  ∀ c, .constructor c ∈ items → s.get? c.address = some (.ran c) →
    ∀ t ∈ c.callable.outputs, ∀ a, t.slot? = some a → s.Held a

/-- The slot from which an item provides a component. -/
def Item.seat (a : Address) : Item → Address
  | constructor c => c.address
  | _ => a

variable {items : List Item} {calls : List Call} {s₀ : Storage} {s s' : Scene}
  {r : Except Error Unit} {err : Error} {a b : Address} {e : Entry} {t : ComponentType}
  {item : Item} {order passed rest : List Address}

/-! ## The graph of a storage laid out by items -/

/-- An entry requests what the item that made it requests. -/
theorem Item.mem_requirements_entry (h : t ∈ item.requests) : t ∈ (item.entry a).requirements := by
  cases item with
  | value => cases h
  | constructor => exact h
  | template => exact h

theorem address_of_slot? (h : t.slot? = some a) : t.descriptor.address = a := by
  simp only [ComponentType.slot?] at h
  split at h
  · exact Option.some.inj h
  · cases h

/-- What an entry requests is requested by the item that accounts for it. -/
theorem Accounted.requirements (h : Accounted items calls s₀ a e) (ht : t ∈ e.requirements) :
    ∃ item ∈ items, item.slot? = some a ∧ t ∈ item.requests := by
  cases h with
  | constructor hc haddr => exact ⟨_, hc, congrArg some haddr, ht⟩
  | ran hc haddr => exact ⟨_, hc, congrArg some haddr, ht⟩
  | template ht' hslot => exact ⟨_, ht', hslot, ht⟩
  | value => cases ht
  | output => cases ht
  | assembled => cases ht

theorem Accounted.outputs (h : Accounted items calls s₀ a e) (ht : t ∈ e.outputs) :
    ∃ c, .constructor c ∈ items ∧ c.address = a ∧ t ∈ c.callable.outputs := by
  cases h with
  | constructor hc haddr => exact ⟨_, hc, haddr, ht⟩
  | ran hc haddr => exact ⟨_, hc, haddr, ht⟩
  | template => cases ht
  | value => cases ht
  | output => cases ht
  | assembled => cases ht

/-- Between slots, the graph has no edges but those of the items when they were registered. -/
theorem Laid.edge_registered (h : Laid items calls s₀) (hdistinct : (items.flatMap Item.slots).Nodup)
    (hedge : s₀.graph.Edge (.key a) (.key b)) :
    (Storage.empty.addAll items).2.graph.Edge (.key a) (.key b) := by
  obtain ⟨_, hregisters⟩ := Storage.registers_addAll hdistinct
  have hsound : (Storage.empty.addAll items).2.Sound := Storage.Sound.empty.addAll items
  rw [hsound.edge_graph]
  rcases h.sound.edge_graph.1 hedge with ⟨e, hget, t, ht, rfl⟩ | ⟨e, hget, t, ht, rfl⟩
  · obtain ⟨item, hitem, hslot, ht⟩ := (h.accounted hget).requirements ht
    refine .inl ⟨_, (hregisters b _).2 ⟨item, hitem, hslot, rfl⟩, t, ?_, rfl⟩
    exact Item.mem_requirements_entry ht
  · obtain ⟨c, hc, haddr, ht⟩ := (h.accounted hget).outputs ht
    exact .inr ⟨_, (hregisters a _).2 ⟨_, hc, congrArg some haddr, rfl⟩, t, ht, rfl⟩

/-- A graph that has no edges between slots but those of a graph without a cycle has no cycle. -/
theorem Storage.acyclic_of_edges {s s' : Storage} (hacyclic : ¬ s.graph.Cyclic)
    (hedges : ∀ {a b : Address}, s'.graph.Edge (.key a) (.key b) →
      s.graph.Edge (.key a) (.key b)) : ¬ s'.graph.Cyclic := by
  have hedge : ∀ {m n : Node}, m ≠ .root → s'.graph.Edge m n → s.graph.Edge m n := by
    intro m n hm hmn
    cases m with
    | root => exact absurd rfl hm
    | key a =>
      cases n with
      | root => exact absurd hmn Storage.not_edge_root
      | key b => exact hedges hmn
  have htarget : ∀ {m n : Node}, Relation.TransGen s'.graph.Edge m n → n ≠ .root := by
    rintro m _ hmn rfl
    cases hmn with
    | single hmn => exact Storage.not_edge_root hmn
    | tail _ hmn => exact Storage.not_edge_root hmn
  rintro ⟨n, hn⟩
  have hpath : ∀ {m : Node}, Relation.TransGen s'.graph.Edge n m →
      Relation.TransGen s.graph.Edge n m := by
    intro m hnm
    induction hnm with
    | single hnm => exact .single (hedge (htarget hn) hnm)
    | tail hnm hnext ih => exact ih.tail (hedge (htarget hnm) hnext)
  exact hacyclic ⟨n, hpath hn⟩

/-- The graph never gets a cycle. -/
theorem Laid.acyclic (h : Laid items calls s₀) (hw : Wired items) : ¬ s₀.graph.Cyclic :=
  Storage.acyclic_of_edges hw.acyclic (h.edge_registered hw.distinct)

/-! ## What is held when a slot is reached -/

/-- A slot is provided once the seat of its provider is passed. -/
theorem Laid.held_of_passed (hl : Laid items calls s₀) (hw : Wired items) (hwhole : s₀.Whole items)
    (hp : Paced s₀ passed s) (hitem : item ∈ items) (hprovides : (a, t) ∈ item.provisions)
    (hseat : item.seat a ∈ passed) : s.storage.Held a := by
  have hl' := hl.progress hp.progress
  obtain ⟨ht, hslot⟩ := Item.mem_provisions.1 hprovides
  have hfree : ∀ {b payload}, s.storage.get? b = some (.provider b payload) → s.storage.Free b :=
    fun hget => Storage.free_of_unresolved hget rfl
  cases item with
  | value c =>
    obtain rfl := List.mem_singleton.1 ht
    exact Option.isSome_iff_exists.2 ⟨c, hl'.held_value hw hitem hslot⟩
  | template k =>
    obtain rfl := List.mem_singleton.1 ht
    obtain ⟨e, hget₀⟩ := hl.present _ hitem a hslot
    refine (hl'.template_cases hw hitem hslot).resolve_left fun hget => ?_
    exact hp.settled hseat hget₀ (hfree hget)
  | constructor c =>
    obtain ⟨e, hget₀⟩ := hl.present _ hitem c.address rfl
    have hran := (hl'.constructor_cases hw hitem).resolve_left fun hget =>
      hp.settled hseat hget₀ (hfree hget)
    rcases hp.progress.ran_cases hl.sound hran with hran₀ | ⟨args, hrun⟩
    · exact hp.progress.keeps.held (hwhole c hitem hran₀ t ht a hslot)
    · exact hp.outputs hrun t ht hslot

/-- The seat of a provider is passed before the slots that it provides. -/
theorem Laid.seat_passed (hl : Laid items calls s₀) (hw : Wired items)
    (horder : s₀.graph.order = .ok order) (hsplit : order = passed ++ rest)
    (hitem : item ∈ items) (hprovides : (a, t) ∈ item.provisions) (ha : a ∈ passed) :
    item.seat a ∈ passed := by
  cases item with
  | value => exact ha
  | template => exact ha
  | constructor c =>
    obtain ⟨ht, hslot⟩ := Item.mem_provisions.1 hprovides
    obtain ⟨_, _, hbehind⟩ := Graph.order_topological s₀.graph_proper horder
    obtain ⟨before, after, rfl⟩ := List.append_of_mem ha
    have hedge : s₀.graph.Edge (.key c.address) (.key a) := by
      refine hl.sound.edge_graph.2 (.inr ?_)
      rcases hl.constructor_cases hw hitem with hget | hget
      · exact ⟨_, hget, t, ht, address_of_slot? hslot⟩
      · exact ⟨_, hget, t, ht, address_of_slot? hslot⟩
    exact List.mem_append_left _ (hbehind (by rw [hsplit, List.append_assoc]; rfl) _ hedge)

/-- What the provider in a slot requests is answered when its turn comes. -/
theorem Laid.answers (hl : Laid items calls s₀) (hw : Wired items) (hwhole : s₀.Whole items)
    (horder : s₀.graph.order = .ok order) (hsplit : order = passed ++ a :: rest)
    (hp : Paced s₀ passed s) (hget : s₀.get? a = some e) (ht : t ∈ e.requirements) :
    s.storage.Answers t := by
  obtain ⟨item, hitem, _, hrequests⟩ := (hl.accounted hget).requirements ht
  obtain ⟨b, hslot, provider, hprovider, hprovides⟩ := hw.answered item hitem t hrequests
  obtain ⟨_, _, hbehind⟩ := Graph.order_topological s₀.graph_proper horder
  have hpassed : b ∈ passed :=
    hbehind hsplit b (hl.sound.edge_graph.2 (.inl ⟨e, hget, t, ht, Storage.slot?_shared hslot⟩))
  obtain ⟨t', ht', hprovides'⟩ : ∃ t', (t' = t ∨ t' = t.shared) ∧ (b, t') ∈ provider.provisions :=
    hprovides.elim (fun h => ⟨t, .inl rfl, h⟩) fun h => ⟨t.shared, .inr rfl, h⟩
  have hseat := hl.seat_passed hw horder hsplit hprovider hprovides' hpassed
  obtain ⟨c, hc⟩ := Option.isSome_iff_exists.1
    (hl.held_of_passed hw hwhole hp hprovider hprovides' hseat)
  refine ⟨b, c, hslot, hc, ?_⟩
  rw [(hl.progress hp.progress).type_eq hw hprovider hprovides' hc]
  exact ht'

/-! ## Only faults fail a step -/

/-- The outputs of a constructor are absorbed into free slots up to one whose start hook fails; the
slots of those behind it are not touched. -/
theorem Wired.exists_fault {c : Constructor} {products : List Product} (hw : Wired items)
    (hc : .constructor c ∈ items) (hlength : products.length = c.callable.outputs.length)
    (hfree : ∀ t ∈ c.callable.outputs, ∀ a, t.slot? = some a → s.storage.Free a)
    (h : AbsorbsAll (c.components products) s (.error err) s') :
    ∃ (i : Nat) (t : ComponentType) (a : Address) (service : Service) (f : Fault),
      c.callable.outputs[i]? = some t ∧ t.slot? = some a ∧
      .up a.text service (.error f) ∈ s'.calls ∧ s'.storage.Held a ∧
      (∀ b service' f', .up b service' (.error f') ∈ s'.calls →
        .up b service' (.error f') ∈ s.calls ∨ b = a.text) ∧
      (∀ (j : Nat) (t' : ComponentType) (b : Address), j < i → c.callable.outputs[j]? = some t' →
        t'.slot? = some b → s'.storage.Held b) ∧
      ∀ (j : Nat) (t' : ComponentType) (b : Address), i < j → c.callable.outputs[j]? = some t' →
        t'.slot? = some b → s'.storage.get? b = s.storage.get? b := by
  obtain ⟨before, component, after, s₁, hsplit, hbefore, hfails⟩ := h.exists_of_error
  have htypes := Constructor.map_type_components hlength
  rw [hsplit, List.map_append, List.map_cons] at htypes
  have hthis : c.callable.outputs[before.length]? = some component.type := by
    rw [← htypes]
    simp
  have hearlier : ∀ {j : Nat} {t' : ComponentType}, j < before.length →
      c.callable.outputs[j]? = some t' → ∃ x ∈ before, x.type = t' := fun {j t'} hlt hj => by
    rw [← htypes, List.getElem?_append_left (by simpa using hlt)] at hj
    exact List.mem_map.1 (List.mem_of_getElem? hj)
  have hbefore_ne : ∀ {j : Nat} {t' : ComponentType} {b : Address}, before.length ≤ j →
      c.callable.outputs[j]? = some t' → t'.slot? = some b →
      ∀ x ∈ before, x.type.slot? ≠ some b := by
    intro j t' b hle hj hslot x hmem hslot'
    obtain ⟨k, hk⟩ := List.mem_iff_getElem?.1 hmem
    obtain ⟨hlt, _⟩ := List.getElem?_eq_some_iff.1 hk
    have hk' : c.callable.outputs[k]? = some x.type := by
      rw [← htypes, List.getElem?_append_left (by simpa using hlt), List.getElem?_map, hk]
      rfl
    have := hw.index_unique hc hk' hj hslot' hslot
    omega
  obtain ⟨a, service, f, hslot, hcall, hheld⟩ := hfails.fault_of_free fun a hslot => by
    intro e hget
    rw [hbefore.get?_of_ne (hbefore_ne (Nat.le_refl _) hthis hslot)] at hget
    exact hfree _ (List.mem_of_getElem? hthis) a hslot e hget
  refine ⟨before.length, component.type, a, service, f, hthis, hslot, hcall, hheld, ?_, ?_, ?_⟩
  · intro label service' f' hmem
    rcases hfails.mem_calls hmem with hmem | ⟨a', _, _, hslot', _, _, heq, _⟩
    · refine (hbefore.mem_calls hmem).imp_right ?_
      rintro ⟨_, _, _, _, _, _, _, _, heq, hresult⟩
      cases heq
      cases hresult rfl
    · cases heq
      obtain rfl : a = a' := Option.some.inj (hslot.symm.trans hslot')
      exact .inr rfl
  · intro j t' b hlt hj hslot'
    obtain ⟨x, hmem, rfl⟩ := hearlier hlt hj
    exact hfails.keeps.held (hbefore.held hmem hslot')
  · intro j t' b hlt hj hslot'
    have hne : component.type.slot? ≠ some b := fun heq => by
      have := hw.index_unique hc hthis hj heq hslot'
      omega
    rw [hfails.get?_of_ne hne, hbefore.get?_of_ne (hbefore_ne (Nat.le_of_lt hlt) hj hslot')]

/-- The slots of the outputs of a constructor that has not run are free. -/
theorem Laid.outputs_free {c : Constructor} (hl : Laid items calls s₀) (hw : Wired items)
    (hget : s₀.get? a = some (.provider a (.constructor c))) (ht : t ∈ c.callable.outputs)
    (hslot : t.slot? = some b) : s₀.get? b = none := by
  have haddr := ((hl.sound.fits hget).eq_constructor rfl rfl).1
  refine (hl.output_cases hw (hl.constructor_mem hget) ht hslot).resolve_right fun ⟨hran, _⟩ => ?_
  rw [haddr, hget] at hran
  cases congrArg Entry.relation (Option.some.inj hran)

theorem Laid.outputs_free_marked {c : Constructor} (hl : Laid items calls s₀) (hw : Wired items)
    (hget : s₀.get? a = some (.provider a (.constructor c))) (ht : t ∈ c.callable.outputs)
    (hslot : t.slot? = some b) : (s₀.markResolved a).get? b = none := by
  rw [Storage.get?_markResolved, hl.outputs_free hw hget ht hslot]
  split <;> rfl

/-- A step fails only over a fault of the program. -/
theorem Laid.settles_ok (hl : Laid items calls s₀) (hw : Wired items) (hwhole : s₀.Whole items)
    (horder : s₀.graph.order = .ok order) (hsplit : order = passed ++ a :: rest)
    (hp : Paced s₀ passed s) (hget : s.storage.get? a = some e) (h : Settles e s r s')
    (hf : ∀ call ∈ s'.calls, call.Faultless) : r = .ok () := by
  have hl' := hl.progress hp.progress
  have hfits := hl'.sound.fits hget
  have hanswers : e.isResolved = false → ∀ t ∈ e.requirements, s.storage.Answers t :=
    fun hres t ht => hl.answers hw hwhole horder hsplit hp (hp.progress.unresolved hget hres) ht
  have hfault : ∀ {a : Address} {service : Service} {f : Fault},
      .up a.text service (.error f) ∉ s'.calls := fun hmem => nomatch hf _ hmem
  cases r with
  | ok _ => rfl
  | error err =>
    exfalso
    cases h with
    | shadowed hne => exact hne (hl'.accounted hget).shadowed
    | waited _ _ _ _ hstarts =>
      cases hstarts with
      | fault f => exact hfault (List.mem_append_right _ (List.mem_singleton.2 rfl))
    | shapeless _ _ hpending hnone =>
      refine hfits.service?_ne_none ?_ hnone
      rw [hpending]
      exact ServiceState.noConfusion
    | uncalled _ hres hpayload hcalls =>
      obtain ⟨_, rfl⟩ := hfits.eq_constructor hres hpayload
      cases hcalls with
      | unsupplied hargs =>
        obtain ⟨args, hok⟩ := Storage.exists_arguments (hanswers hres)
        cases hargs.symm.trans hok
      | failed f => exact nomatch hf _ (List.mem_append_right _ (List.mem_singleton.2 rfl))
    | called _ hres hpayload hcalls habsorbs =>
      obtain ⟨_, rfl⟩ := hfits.eq_constructor hres hpayload
      cases hcalls with
      | supplied products _ hlength =>
        have hc := hl'.constructor_mem hget
        have hfree : ∀ t ∈ _, ∀ b, ComponentType.slot? t = some b →
            (s.storage.markResolved a).Free b := fun t ht b hslot e' hget' => by
          cases (hl'.outputs_free_marked hw hget ht hslot).symm.trans hget'
        obtain ⟨_, _, _, _, _, _, _, hcall, _⟩ := hw.exists_fault hc hlength hfree habsorbs
        exact hfault hcall
    | unassembled _ hres hpayload hassembles =>
      obtain ⟨_, rfl⟩ := hfits.eq_template hres hpayload
      have hfields : ∀ {t : Template}, t.fields.map Field.type = Entry.requirements _ →
          ∀ field ∈ t.fields, s.storage.Answers field.type := fun heq field hmem =>
        hanswers hres field.type (heq ▸ List.mem_map.2 ⟨field, hmem, rfl⟩)
      cases hassembles with
      | unfilled hfill =>
        obtain ⟨values, hok⟩ := Storage.exists_fillFields (.empty _) (hfields rfl)
        cases hfill.symm.trans hok
      | failed err hfill =>
        obtain ⟨field, hmem, hname, e', htake⟩ :=
          hf _ (List.mem_append_right _ (List.mem_singleton.2 rfl)) err rfl
        obtain ⟨object, hok⟩ := Storage.take_fillFields hfill hmem hname (hfields rfl field hmem)
        cases htake.symm.trans hok
    | assembled _ hres hpayload hassembles habsorbs =>
      obtain ⟨hslot, rfl⟩ := hfits.eq_template hres hpayload
      cases hassembles with
      | assembled product =>
        obtain ⟨_, _, _, _, hcall, _⟩ := habsorbs.fault_of_free fun b hslot' => by
          obtain rfl : a = b := Option.some.inj (hslot.symm.trans hslot')
          exact Storage.free_of_unresolved hget rfl
        exact hfault hcall

/-- A walk along the order fails only over a fault of the program. -/
theorem Laid.settlesAll_ok (hl : Laid items calls s₀) (hw : Wired items) (hwhole : s₀.Whole items)
    (hrest : s₀.Resting)
    (horder : s₀.graph.order = .ok order) (h : SettlesAll order ⟨s₀, []⟩ r s')
    (hf : ∀ call ∈ s'.calls, call.Faultless) : r = .ok () ∧ Paced s₀ order s' := by
  rcases h.paced (.start hl.sound hrest) with
    hok | ⟨passed, a, rest, e, s₁, err, hsplit, rfl, hp, hget, hsettles⟩
  · exact hok
  · cases hl.settles_ok hw hwhole horder hsplit hp hget hsettles hf

end Wiring
