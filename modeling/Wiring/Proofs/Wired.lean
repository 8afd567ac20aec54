import Wiring.Proofs.Ordering
import Wiring.Proofs.Steps

/-!
# Items that fit together

Items are `Wired` if no slot is provided twice, every request has a provider of a matching type, and
the graph of the storage to which they are added has no cycle. Then each provided slot has one
provider (`Wired.provider_unique`), no item is refused, and the storage is `Laid` out by the items:
every entry is accounted for by an item, and every item by an entry.
-/

namespace Wiring

/-! ## What items provide and request -/

namespace Item

/-- The types of the components that come from an item. -/
def types : Item → List ComponentType
  | value c => [c.type]
  | constructor c => c.callable.outputs
  | template t => [t.type]

/-- The types that an item requests. -/
def requests : Item → List ComponentType
  | value _ => []
  | constructor c => c.callable.params
  | template t => t.fields.map Field.type

/-- The slots that an item provides, with the types of the components in them. -/
def provisions (item : Item) : List (Address × ComponentType) :=
  item.types.filterMap fun t => t.slot?.map fun a => (a, t)

/-- The address of a constructor. -/
def address? : Item → Option Address
  | constructor c => some c.address
  | _ => none

/-- The slots that an item takes up: its own address, if it is a constructor, and those that it
provides. -/
def slots (item : Item) : List Address :=
  item.address?.toList ++ item.types.filterMap ComponentType.slot?

/-- The slot in which an item is registered. -/
def slot? : Item → Option Address
  | value c => c.type.slot?
  | constructor c => some c.address
  | template t => t.type.slot?

/-- The entry that an item makes in a slot. -/
def entry (a : Address) : Item → Entry
  | value c => .resolved a c
  | constructor c => .provider a (.constructor c)
  | template t => .provider a (.template t)

theorem address_entry (item : Item) {a : Address} (h : item.slot? = some a) :
    (item.entry a).address = a := by
  cases item <;> rfl

theorem mem_provisions {item : Item} {a : Address} {t : ComponentType} :
    (a, t) ∈ item.provisions ↔ t ∈ item.types ∧ t.slot? = some a := by
  simp only [provisions, List.mem_filterMap, Option.map_eq_some_iff, Prod.mk.injEq]
  constructor
  · rintro ⟨t', hmem, a', hslot, rfl, rfl⟩
    exact ⟨hmem, hslot⟩
  · rintro ⟨hmem, hslot⟩
    exact ⟨t, hmem, a, hslot, rfl, rfl⟩

theorem provides_output {c : Constructor} {a : Address} {t : ComponentType}
    (ht : t ∈ c.callable.outputs) (hslot : t.slot? = some a) :
    (a, t) ∈ (constructor c).provisions := mem_provisions.2 ⟨ht, hslot⟩

theorem provides_template {t : Template} {a : Address} (hslot : t.type.slot? = some a) :
    (a, t.type) ∈ (template t).provisions := mem_provisions.2 ⟨List.mem_cons_self, hslot⟩

theorem slot?_mem_slots {item : Item} {a : Address} (h : item.slot? = some a) : a ∈ item.slots := by
  cases item with
  | constructor c =>
    cases h
    exact List.mem_cons_self
  | value c => exact List.mem_filterMap.2 ⟨c.type, List.mem_singleton.2 rfl, h⟩
  | template t => exact List.mem_filterMap.2 ⟨t.type, List.mem_singleton.2 rfl, h⟩

theorem mem_slots_of_provisions {item : Item} {a : Address} {t : ComponentType}
    (h : (a, t) ∈ item.provisions) : a ∈ item.slots :=
  List.mem_append_right _ (List.mem_filterMap.2 ⟨t, mem_provisions.1 h⟩)

end Item

/-- Items that fit together. -/
structure Wired (items : List Item) : Prop where
  /-- Constructor addresses and provided slots are pairwise different. -/
  distinct : (items.flatMap Item.slots).Nodup
  /-- Each requested type leads to a provided slot, and the type provided there is the one requested
  or a handle on it. -/
  answered : ∀ item ∈ items, ∀ t ∈ item.requests, ∃ a, t.shared.slot? = some a ∧
    ∃ provider ∈ items, (a, t) ∈ provider.provisions ∨ (a, t.shared) ∈ provider.provisions
  /-- The graph of the items has no cycle. -/
  acyclic : ¬ (Storage.empty.addAll items).2.graph.Cyclic

/-- Whether a request for a type leads to a slot that an item provides with a matching type. -/
def Item.answers (items : List Item) (t : ComponentType) : Bool :=
  t.shared.slot?.any fun a => items.any fun provider =>
    (a, t) ∈ provider.provisions || (a, t.shared) ∈ provider.provisions

theorem wired_iff {items : List Item} : Wired items ↔ (items.flatMap Item.slots).Nodup ∧
    (∀ item ∈ items, ∀ t ∈ item.requests, Item.answers items t = true) ∧
      (Storage.empty.addAll items).2.graph.order.isOk = true := by
  have hanswers : ∀ t, Item.answers items t = true ↔ ∃ a, t.shared.slot? = some a ∧
      ∃ provider ∈ items, (a, t) ∈ provider.provisions ∨ (a, t.shared) ∈ provider.provisions := by
    intro t
    cases h : t.shared.slot? <;> simp [Item.answers, h]
  have horder : ¬ (Storage.empty.addAll items).2.graph.Cyclic ↔
      (Storage.empty.addAll items).2.graph.order.isOk = true := by
    have hproper := Storage.graph_proper (Storage.empty.addAll items).2
    constructor
    · intro hcycle
      obtain ⟨order, horder⟩ := Graph.exists_order hproper hcycle
      rw [horder]
      rfl
    · cases h : (Storage.empty.addAll items).2.graph.order with
      | ok order => exact fun _ => Graph.not_cyclic_of_order hproper h
      | error e => exact fun hok => nomatch hok
  rw [← horder]
  simp only [hanswers]
  exact ⟨fun h => ⟨h.distinct, h.answered, h.acyclic⟩, fun ⟨h₁, h₂, h₃⟩ => ⟨h₁, h₂, h₃⟩⟩

instance : DecidablePred Wired := fun _ => decidable_of_iff _ wired_iff.symm

/-! ## Each slot has one provider -/

section Distinct

variable {α β : Type} {xs : List α}

/-- What occurs among the images of a list once comes from one element. -/
theorem eq_of_mem_flatMap {f : α → List β} (h : (xs.flatMap f).Nodup) {x y : α} {b : β}
    (hx : x ∈ xs) (hy : y ∈ xs) (hbx : b ∈ f x) (hby : b ∈ f y) : x = y := by
  have hpairs : xs.Pairwise fun x y => b ∈ f x → b ∈ f y → x = y :=
    (List.pairwise_flatMap.1 h).2.imp fun hne hx hy => absurd rfl (hne b hx b hy)
  have hflip : xs.Pairwise (flip fun x y => b ∈ f x → b ∈ f y → x = y) :=
    hpairs.imp fun heq hx hy => (heq hy hx).symm
  exact hpairs.forall_of_forall_of_flip (fun _ _ _ _ => rfl) hflip hx hy hbx hby

/-- In a list whose images do not repeat, equal images stand at equal places. -/
theorem index_eq_of_filterMap {f : α → Option β} (h : (xs.filterMap f).Nodup) {i j : Nat} {x y : α}
    {b : β} (hi : xs[i]? = some x) (hj : xs[j]? = some y) (hx : f x = some b) (hy : f y = some b) :
    i = j := by
  obtain ⟨hi', rfl⟩ := List.getElem?_eq_some_iff.1 hi
  obtain ⟨hj', rfl⟩ := List.getElem?_eq_some_iff.1 hj
  have hpairs := List.pairwise_iff_getElem.1 (List.pairwise_filterMap.1 h)
  rcases Nat.lt_trichotomy i j with hlt | heq | hgt
  · exact absurd rfl (hpairs i j hi' hj' hlt b hx b hy)
  · exact heq
  · exact absurd rfl (hpairs j i hj' hi' hgt b hy b hx)

end Distinct

namespace Wired

variable {items : List Item} {item item' : Item} {a : Address} {t t' : ComponentType}

/-- The types of an item have different slots. -/
theorem index_unique {i j : Nat} (hw : Wired items) (hitem : item ∈ items)
    (hi : item.types[i]? = some t) (hj : item.types[j]? = some t') (hslot : t.slot? = some a)
    (hslot' : t'.slot? = some a) : i = j := by
  have hslots := (List.pairwise_flatMap.1 hw.distinct).1 item hitem
  exact index_eq_of_filterMap (List.nodup_append.1 hslots).2.1 hi hj hslot hslot'

/-- A slot is provided by one item only, and for one type. -/
theorem provider_unique (hw : Wired items) (hitem : item ∈ items) (hitem' : item' ∈ items)
    (h : (a, t) ∈ item.provisions) (h' : (a, t') ∈ item'.provisions) : item = item' ∧ t = t' := by
  obtain rfl := eq_of_mem_flatMap hw.distinct hitem hitem'
    (Item.mem_slots_of_provisions h) (Item.mem_slots_of_provisions h')
  obtain ⟨ht, hslot⟩ := Item.mem_provisions.1 h
  obtain ⟨ht', hslot'⟩ := Item.mem_provisions.1 h'
  obtain ⟨i, hi⟩ := List.mem_iff_getElem?.1 ht
  obtain ⟨j, hj⟩ := List.mem_iff_getElem?.1 ht'
  obtain rfl := hw.index_unique hitem hi hj hslot hslot'
  exact ⟨rfl, Option.some.inj (hi.symm.trans hj)⟩

/-- The address of a constructor is no provided slot. -/
theorem address_ne {c : Constructor} (hw : Wired items) (hc : .constructor c ∈ items)
    (hitem : item ∈ items) (h : (a, t) ∈ item.provisions) : c.address ≠ a := by
  rintro rfl
  obtain rfl : Item.constructor c = item := eq_of_mem_flatMap hw.distinct hc hitem
    (Item.slot?_mem_slots rfl) (Item.mem_slots_of_provisions h)
  obtain ⟨ht, hslot⟩ := Item.mem_provisions.1 h
  have hslots := (List.pairwise_flatMap.1 hw.distinct).1 _ hitem
  exact (List.nodup_cons.1 hslots).1 (List.mem_filterMap.2 ⟨t, ht, hslot⟩)

/-- Constructors have different addresses. -/
theorem constructor_unique {c c' : Constructor} (hw : Wired items) (hc : .constructor c ∈ items)
    (hc' : .constructor c' ∈ items) (h : c.address = c'.address) : c = c' := by
  have hslot : (Item.constructor c').slot? = some c.address := congrArg some h.symm
  have hsame := eq_of_mem_flatMap hw.distinct hc hc' (Item.slot?_mem_slots rfl)
    (Item.slot?_mem_slots hslot)
  exact Item.constructor.inj hsame

end Wired

/-! ## Registration -/

/-- The slots in which items are registered are pairwise different if all their slots are. -/
theorem nodup_slot? {items : List Item} (h : (items.flatMap Item.slots).Nodup) :
    (items.filterMap Item.slot?).Nodup := by
  refine List.pairwise_filterMap.2 ((List.pairwise_flatMap.1 h).2.imp ?_)
  intro item item' hne a hslot b hslot'
  exact hne a (Item.slot?_mem_slots hslot) b (Item.slot?_mem_slots hslot')

namespace Storage

/-- Adding an item to a storage that does not know its slot. -/
theorem add_of_none {s : Storage} {item : Item} {a : Address} (hslot : item.slot? = some a)
    (hnone : s.get? a = none) : s.add item = .ok (s.put (item.entry a)) := by
  have hfree : s.Free a := fun e hget => by cases hnone.symm.trans hget
  cases item with
  | value c =>
    rcases s.insertValue_cases hslot with ⟨_, heq⟩ | ⟨hnot, _⟩
    · rw [Storage.add, heq]
      rfl
    · exact absurd hfree hnot
  | constructor c =>
    obtain rfl : c.address = a := Option.some.inj hslot
    rcases s.insert_cases (.provider c.address (.constructor c)) with ⟨_, heq⟩ | ⟨hnot, _⟩
    · exact heq
    · exact absurd hfree hnot
  | template t =>
    have hslot : t.type.slot? = some a := hslot
    rcases s.insert_cases (.provider a (.template t)) with ⟨_, heq⟩ | ⟨hnot, _⟩
    · simp only [Storage.add, hslot]
      exact heq
    · exact absurd hfree hnot

theorem add_of_unaddressable {s : Storage} {item : Item} (hslot : item.slot? = none) :
    s.add item = .ok s := by
  cases item with
  | value c => rw [Storage.add, insertValue_of_unaddressable hslot]
  | constructor c => cases hslot
  | template t =>
    have hslot : t.type.slot? = none := hslot
    simp only [Storage.add, hslot]

/-- A storage holds exactly the entries that items make. -/
def Registers (s : Storage) (items : List Item) : Prop :=
  ∀ a e, s.get? a = some e ↔ ∃ item ∈ items, item.slot? = some a ∧ e = item.entry a

theorem Registers.add {s : Storage} {done : List Item} {item : Item} (h : s.Registers done)
    (hnew : ∀ a, item.slot? = some a → ∀ item' ∈ done, item'.slot? ≠ some a) :
    ∃ s', s.add item = .ok s' ∧ s'.Registers (done ++ [item]) := by
  cases hslot : item.slot? with
  | none =>
    refine ⟨s, add_of_unaddressable hslot, fun a e => ?_⟩
    rw [h a e]
    simp [hslot]
  | some a =>
    have hnone : s.get? a = none := by
      cases hget : s.get? a with
      | none => rfl
      | some e =>
        obtain ⟨item', hmem, hslot', _⟩ := (h a e).1 hget
        exact absurd hslot' (hnew a hslot item' hmem)
    have hself : (item.entry a).address = a := item.address_entry hslot
    refine ⟨_, add_of_none hslot hnone, fun b e => ?_⟩
    rw [get?_put, hself]
    simp only [List.mem_append, List.mem_singleton]
    split
    · next heq =>
      subst heq
      constructor
      · rintro heq
        exact ⟨item, .inr rfl, hslot, (Option.some.inj heq).symm⟩
      · rintro ⟨item', hmem | rfl, hslot', rfl⟩
        · exact absurd hslot' (hnew a hslot item' hmem)
        · rfl
    · next hne =>
      rw [h b e]
      constructor
      · rintro ⟨item', hmem, hslot', rfl⟩
        exact ⟨item', .inl hmem, hslot', rfl⟩
      · rintro ⟨item', hmem | rfl, hslot', rfl⟩
        · exact ⟨item', hmem, hslot', rfl⟩
        · exact absurd (Option.some.inj (hslot.symm.trans hslot')) hne

/-- Items that are registered in different slots are all accepted, and each makes its entry. -/
theorem Registers.addAll {s : Storage} {done items : List Item} (h : s.Registers done)
    (hdistinct : ((done ++ items).filterMap Item.slot?).Nodup) :
    (s.addAll items).1 = .ok () ∧ (s.addAll items).2.Registers (done ++ items) := by
  induction items generalizing s done with
  | nil =>
    rw [List.append_nil]
    exact ⟨rfl, h⟩
  | cons item items ih =>
    obtain ⟨s', hadd, hs'⟩ := h.add fun a hslot item' hmem hslot' => by
      have hnodup := hdistinct
      rw [List.filterMap_append, List.nodup_append] at hnodup
      refine hnodup.2.2 a (List.mem_filterMap.2 ⟨item', hmem, hslot'⟩) a ?_ rfl
      exact List.mem_filterMap.2 ⟨item, List.mem_cons_self, hslot⟩
    rw [Storage.addAll, hadd]
    rw [← List.singleton_append, ← List.append_assoc] at hdistinct ⊢
    exact ih hs' hdistinct

theorem registers_empty : empty.Registers [] := fun a e => by simp

/-- Wired items are all accepted by an empty storage, and each makes its entry. -/
theorem registers_addAll {items : List Item} (hdistinct : (items.flatMap Item.slots).Nodup) :
    (empty.addAll items).1 = .ok () ∧ (empty.addAll items).2.Registers items :=
  registers_empty.addAll (nodup_slot? hdistinct)

theorem addAll_append {s : Storage} {items : List Item} (more : List Item)
    (hok : (s.addAll items).1 = .ok ()) :
    s.addAll (items ++ more) = (s.addAll items).2.addAll more := by
  induction items generalizing s with
  | nil => rfl
  | cons item items ih =>
    rw [List.cons_append, addAll]
    rw [addAll] at hok ⊢
    split
    · next s' hadd =>
      rw [hadd] at hok
      exact ih hok
    · next hadd =>
      rw [hadd] at hok
      cases hok

end Storage

end Wiring
