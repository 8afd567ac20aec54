import Wiring.Proofs.Diagnosis
import Wiring.Proofs.Distinctness

/-!
# Regular storages

An entry of a sound storage fits its slot. That is not yet all that the other parts of a container
rely on: that only a value is ever counted again, and that the slot of a constructor never comes to
hold a template while the constructor runs. Both hold because no type is declared under a name that
ends like the address of a constructor (`ComponentType.Named`). A storage that is `Regular` stays so
under every change, one field of an entry at a time, and is as those who read it expect it to be
(`Storage.Regular.represented`).
-/

namespace Wiring

/-! ## Names of types -/

/-- A name without `#` is no address of a constructor. -/
theorem ComponentType.named_ofName {n : String} (h : '#' ∉ n.toList) : (ofName n).Named := by
  rintro a hslot ⟨signature, identity, htext⟩
  obtain rfl : Address.mk (TypeName.dotted n) = a := Option.some.inj hslot
  exact Descriptor.layered_ne_label h [] none signature identity (congrArg Address.mk htext)

/-- The values and templates among the items are of such types. -/
def Item.Named : Item → Prop
  | .value c => c.type.Named
  | .template t => t.type.Named
  | .constructor _ => True

/-- An operation that registers only such items. -/
def Operation.Named : Operation → Prop
  | .register items => ∀ item ∈ items, item.Named
  | _ => True

/-- The context and the token of a container are. -/
theorem Container.seeds_named (context : Context) (token : Token) :
    ∀ item ∈ Container.seeds context token, item.Named := by
  simp only [seeds, List.forall_mem_cons]
  exact ⟨ComponentType.named_ofName (by decide), ComponentType.named_ofName (by decide),
    List.forall_mem_nil _⟩

/-! ## Changes -/

/-- The storage is sound, no template is in the slot of a constructor, and only values are counted
again. -/
structure Storage.Regular (s : Storage) : Prop where
  sound : s.Sound
  template : ∀ ⦃a e t⦄, s.get? a = some e → e.payload = .template t → ¬ a.Serial
  shadowed : ∀ ⦃a e⦄, s.get? a = some e → e.shadowed ≠ 0 → ∃ c, e.payload = .value c

namespace Storage.Regular

variable {s s' : Storage} {a : Address} {e : Entry}

theorem empty : Storage.empty.Regular := ⟨.empty, nofun, nofun⟩

/-- An entry that nothing is counted for may be stored, a template in the slot of a type. -/
theorem put (h : s.Regular) (hfits : e.Fits e.address) (hshadowed : e.shadowed = 0)
    (htemplate : ∀ t, e.payload = .template t → ¬ e.address.Serial) : (s.put e).Regular where
  sound := h.sound.put hfits
  template a e' t hget hpayload := by
    rw [get?_put] at hget
    split at hget
    · next heq =>
      obtain rfl := Option.some.inj hget
      exact heq ▸ htemplate t hpayload
    · exact h.template hget hpayload
  shadowed a e' hget hne := by
    rw [get?_put] at hget
    split at hget
    · obtain rfl := Option.some.inj hget
      exact absurd hshadowed hne
    · exact h.shadowed hget hne

/-- So may an entry that replaces an unresolved one. -/
theorem insert (h : s.Regular) (hinsert : s.insert e = .ok s') (hfits : e.Fits e.address)
    (hshadowed : e.shadowed = 0) (htemplate : ∀ t, e.payload = .template t → ¬ e.address.Serial) :
    s'.Regular := by
  rcases insert_cases s e with ⟨_, heq⟩ | ⟨_, heq⟩ <;> cases heq.symm.trans hinsert
  exact h.put hfits hshadowed htemplate

/-- A change of one entry that keeps its payload, and counts again for a value only. -/
theorem update (h : s.Regular) {f : Entry → Entry} (hsound : Storage.Sound ⟨s.table.update a f⟩)
    (hpayload : ∀ e, (f e).payload = e.payload)
    (hshadowed : ∀ e, s.get? a = some e → (f e).shadowed = e.shadowed ∨ ∃ c, e.payload = .value c) :
    Storage.Regular ⟨s.table.update a f⟩ := by
  have hget? (b : Address) : (⟨s.table.update a f⟩ : Storage).get? b =
      if a = b then (s.get? b).map f else s.get? b := Table.get?_update _ _ _ _
  refine ⟨hsound, fun b e' t hget hp => ?_, fun b e' hget hne => ?_⟩ <;> rw [hget?] at hget <;>
    split at hget
  · obtain ⟨e, hget', rfl⟩ := Option.map_eq_some_iff.1 hget
    exact h.template hget' ((hpayload e).symm.trans hp)
  · exact h.template hget hp
  · next heq =>
    obtain ⟨e, hget', rfl⟩ := Option.map_eq_some_iff.1 hget
    rw [hpayload]
    rcases hshadowed e (heq ▸ hget') with hsame | hvalue
    · exact h.shadowed hget' (hsame ▸ hne)
    · exact hvalue
  · exact h.shadowed hget hne

/-- Where a resolved entry is in the slot of a type, it is a value. -/
theorem exists_value (h : s.Regular) (ha : ¬ a.Serial) (hget : s.get? a = some e)
    (hres : e.isResolved = true) : ∃ c, e.payload = .value c := by
  cases h.sound.fits hget with
  | value c => exact ⟨c, rfl⟩
  | constructor c _ _ haddr => exact absurd (haddr ▸ c.serial_address) ha
  | template => cases hres

/-- A value that is registered for an occupied slot is counted there. -/
theorem shadow (h : s.Regular) (ha : ¬ a.Serial) (hfree : ¬ s.Free a) :
    Storage.Regular ⟨s.table.update a Entry.shadow⟩ := by
  refine h.update (h.sound.shadow hfree) (fun _ => rfl) fun e hget => .inr ?_
  obtain ⟨e', hget', hres⟩ := not_free hfree
  obtain rfl := Option.some.inj (hget.symm.trans hget')
  exact h.exists_value ha hget hres

/-- The slot of a constructor may be marked as resolved, whatever it has come to hold meanwhile. -/
theorem markResolved (h : s.Regular) (ha : a.Serial) : (s.markResolved a).Regular := by
  refine h.update (h.sound.update fun e hget => ?_) (fun _ => rfl) fun _ _ => .inl rfl
  cases hfits : h.sound.fits hget with
  | value c state n hslot hstate => exact .value c state n hslot hstate
  | constructor c _ n haddr => exact .constructor c _ n haddr nofun
  | template t => exact absurd ha (h.template hget rfl)

theorem setRunning (h : s.Regular) (hget : s.get? a = some e) (hservice : e.service? ≠ none) :
    (s.setService a .runningUp).Regular :=
  h.update (h.sound.setRunning hget hservice) (fun _ => rfl) fun _ _ => .inl rfl

theorem resetRunning (h : s.Regular) : s.resetRunning.Regular := by
  have hrested (e : Entry) : e.rested.payload = e.payload ∧ e.rested.shadowed = e.shadowed := by
    unfold Entry.rested
    split <;> exact ⟨rfl, rfl⟩
  refine ⟨h.sound.resetRunning, fun a e t hget hpayload => ?_, fun a e hget hne => ?_⟩ <;>
    rw [get?_resetRunning] at hget <;> obtain ⟨e, hget', rfl⟩ := Option.map_eq_some_iff.1 hget
  · exact h.template hget' ((hrested e).1.symm.trans hpayload)
  · rw [(hrested e).2] at hne
    rw [(hrested e).1]
    exact h.shadowed hget' hne

/-- What is produced is stored where nothing is resolved. -/
theorem insertProduct (h : s.Regular) {c : Component} (hinsert : s.insertProduct c = .ok s') :
    s'.Regular := by
  cases hslot : c.type.slot? with
  | none =>
    simp only [Storage.insertProduct, hslot] at hinsert
    exact Except.ok.inj hinsert ▸ h
  | some a =>
    simp only [Storage.insertProduct, hslot] at hinsert
    exact h.insert hinsert (.resolved hslot) rfl fun _ htemplate => by cases htemplate

theorem add (h : s.Regular) {item : Item} (hitem : item.Named) (hadd : s.add item = .ok s') :
    s'.Regular := by
  cases item with
  | value c =>
    cases hadd
    cases hslot : c.type.slot? with
    | none => exact (insertValue_of_unaddressable hslot).symm ▸ h
    | some a =>
      rcases insertValue_cases s hslot with ⟨_, heq⟩ | ⟨hfree, heq⟩ <;> rw [heq]
      · exact h.put (.resolved hslot) rfl nofun
      · exact h.shadow (hitem a hslot) hfree
  | constructor c =>
    exact h.insert hadd (.constructor c _ 0 rfl fun _ => rfl) rfl nofun
  | template t =>
    simp only [Storage.add] at hadd
    split at hadd
    · exact Except.ok.inj hadd ▸ h
    · next a hslot =>
      exact h.insert hadd (.template t hslot) rfl fun _ _ => hitem a hslot

theorem addAll (h : s.Regular) {items : List Item} (hitems : ∀ item ∈ items, item.Named) :
    (s.addAll items).2.Regular := by
  induction items generalizing s with
  | nil => exact h
  | cons item rest ih =>
    rw [Storage.addAll]
    split
    · next s' hadd =>
      exact ih (h.add (hitems item List.mem_cons_self) hadd)
        fun item hmem => hitems item (List.mem_cons_of_mem _ hmem)
    · exact h

end Storage.Regular

/-- A type that bears such a name could be counted for a constructor. -/
example :
    let c : Constructor := ⟨1, [], [], 0⟩
    let s := (Storage.empty.addAll [.constructor c]).2.markResolved c.address
    ((s.insertValue ⟨.ofName "fn()#1", .made 0, none⟩).get? c.address).map
      (fun e => (e.kind, e.shadowed)) = some (.callable, 1) := by
  decide +kernel

/-- The storage of a new container is regular. -/
theorem Container.new_regular (config : ContainerConfig) (context : Context) (token : Token) :
    (Container.new config context token).storage.Regular := by
  have hseeds := Storage.Regular.empty.addAll (seeds_named context token)
  rwa [storage_new config context token] at hseeds

/-! ## What readers of a storage expect -/

/-- The fields of an entry agree with each other. The kind is derived from the payload (`Entry.kind`), so
the first three clauses hold by definition; the others say how the relation, the state of the service
and the count agree with it. -/
structure Entry.Coherent (e : Entry) : Prop where
  other : e.kind = .other ↔ ∃ c, e.payload = .value c
  callable : e.kind = .callable ↔ ∃ c, e.payload = .constructor c
  composite : e.kind = .composite ↔ ∃ t, e.payload = .template t
  value_resolved : e.kind = .other → e.relation = .resolvedValue
  template_unresolved : e.kind = .composite → e.relation = .newlyRegistered
  /-- There are hooks exactly if the entry counts as a service. -/
  hooks : e.service? ≠ none ↔ e.service ≠ .notAService
  provider : e.kind ≠ .other → e.service? = none ∧ e.service = .notAService
  shadowed : e.shadowed ≠ 0 → e.kind = .other

/-- What those who read a storage may rely on. -/
structure Storage.Represented (s : Storage) : Prop where
  addressed : ∀ ⦃a e⦄, s.get? a = some e → e.address = a
  coherent : ∀ ⦃a e⦄, s.get? a = some e → e.Coherent
  /-- The descriptors are those of the entries. -/
  described : ∀ d, d ∈ s.descriptors ↔ ∃ e, s.get? d.address = some e ∧ d = e.descriptor
  /-- There is one for each address, in their order. -/
  ascending : s.descriptors.Pairwise fun d d' => d.address < d'.address
  /-- A request is answered with a value. -/
  answered : ∀ ⦃t a c⦄, s.lookup t = .ok (a, c) →
    ∃ e, s.get? a = some e ∧ e.kind = .other ∧ e.payload = .value c

theorem Entry.Fits.coherent {a : Address} {e : Entry} (h : e.Fits a)
    (hshadowed : e.shadowed ≠ 0 → ∃ c, e.payload = .value c) : e.Coherent := by
  have hhooks : e.service? ≠ none ↔ e.service ≠ .notAService := not_congr h.notAService_iff.symm
  cases h with
  | value c state n hslot hstate =>
    exact ⟨by simp [kind], by simp [kind], by simp [kind], fun _ => rfl, nofun, hhooks,
      fun hne => absurd rfl hne, fun _ => rfl⟩
  | constructor c relation n haddr hn =>
    refine ⟨by simp [kind], by simp [kind], by simp [kind], nofun, nofun, hhooks,
      fun _ => ⟨rfl, rfl⟩, fun hne => ?_⟩
    obtain ⟨_, hpayload⟩ := hshadowed hne
    cases hpayload
  | template t hslot =>
    exact ⟨by simp [kind], by simp [kind], by simp [kind], nofun, fun _ => rfl, hhooks,
      fun _ => ⟨rfl, rfl⟩, fun hne => absurd rfl hne⟩

/-- A regular storage is as its readers expect it. -/
theorem Storage.Regular.represented {s : Storage} (h : s.Regular) : s.Represented where
  addressed _ _ hget := (h.sound.fits hget).address_eq
  coherent _ _ hget := (h.sound.fits hget).coherent (h.shadowed hget)
  described d := by
    simp only [descriptors, List.mem_map, h.sound.mem_entries]
    constructor
    · rintro ⟨e, hget, rfl⟩
      exact ⟨e, hget, rfl⟩
    · rintro ⟨e, hget, heq⟩
      have haddr : d.address = e.address := congrArg EntryDescriptor.address heq
      exact ⟨e, haddr ▸ hget, heq.symm⟩
  ascending := by
    rw [descriptors, List.pairwise_map]
    have hkeys := h.sound.ascending
    rwa [← h.sound.indexed.map_address_entries, List.pairwise_map] at hkeys
  answered t a c hlookup := by
    obtain ⟨_, hc⟩ := lookup_eq_ok.1 hlookup
    obtain ⟨e, hget, hcomponent⟩ := component?_eq_some.1 hc
    have hpayload := (h.sound.fits hget).component?_eq.1 hcomponent
    exact ⟨e, hget, by simp [Entry.kind, hpayload], hpayload⟩

end Wiring
